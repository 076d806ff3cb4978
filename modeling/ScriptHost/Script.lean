import ScriptHost.Value

/-!
# Scripts

A script is given by what its functions do. Each call of a function performs one act: a
list of steps that ask the host for something, and an ending. What a step passes to the
host is described by a term, which may refer to earlier results and to the arguments of
the function that is running.
-/

namespace ScriptHost

/-- A description of a value. -/
inductive Term
  | value (value : Value)
  | array (items : List Term)
  | object (properties : List (String × Term))
  | error (message : Term)
  | saved (name : String)
  | argument (index : Nat)
  | endpoint (index : Nat)
deriving Inhabited

/-- What a step asks for. `settle` asks for the status of an operation until it is no
longer pending, and `pump` delivers events until there have been enough of them. -/
inductive Action
  | call (function : String) (arguments : List Term)
  | print (arguments : List Term)
  | get (property : String)
  | settle (operation : String)
  | pump (connection : String) (least : Nat)
  | defer (function : String)
  | define (name : String) (value : Term)

/-- A step of a script. Its result may be saved under a name, cut down to some of its
properties, and a step that raises passes on what is thrown. -/
structure Step where
  action : Action
  save? : Option String
  pick? : Option (List String)
  raises : Bool

/-- How an act ends after its steps. -/
inductive Ending
  | returning (value : Term)
  | throwing (value : Term)

/-- What one call of a function does. An act that repeats stands for all later calls,
too. -/
structure Act where
  steps : List Step
  ending : Ending
  repeats : Bool

namespace Act

/-- The act that does nothing. -/
def nothing : Act :=
  ⟨[], .returning (.value .undefined), false⟩

instance : Inhabited Act := ⟨nothing⟩

end Act

/-- The functions of a script and what their calls do, in the order of the calls, and the
programs that files of the script may contain. -/
structure Script where
  functions : List (String × List Act)
  programs : List Act

namespace Script

/-- The script without functions and programs. -/
def empty : Script :=
  ⟨[], []⟩

/-- The act of a call after a number of earlier calls. -/
def actAt (acts : List Act) (earlier : Nat) : Act :=
  match acts[earlier]? with
  | some act => act
  | none =>
      match acts.getLast? with
      | some act => if act.repeats then act else .nothing
      | none => .nothing

/-- The act that a function performs after a number of earlier calls. -/
def act
    (script : Script)
    (name : String)
    (earlier : Nat) : Act :=
  actAt ((script.functions.lookup name).getD []) earlier

/-! ## Programs as text -/

/-- The text that stands for the program of a number. -/
def programText (number : Nat) : String :=
  "perform(" ++ toString number ++ ")"

/-- Characters between an opening and a closing text. -/
def between?
    (opening closing : String)
    (text : String) : Option String :=
  let chars := text.toList
  let inner := (chars.drop opening.length).take
    (chars.length - opening.length - closing.length)
  if opening ++ String.ofList inner ++ closing = text then some (String.ofList inner) else none

/-- The act that a line of text stands for by itself: an integer is returned, and an error
with a plain message is thrown. -/
def plainAct (text : String) : Act :=
  match text.toInt? with
  | some value => ⟨[], .returning (.value (.ofInt value)), false⟩
  | none =>
      match between? "throw new Error('" "')" text with
      | some message => ⟨[], .throwing (.value (.error "Error" (.string message))), false⟩
      | none => .nothing

/-- The program that a text stands for. -/
def program
    (script : Script)
    (text : String) : Act :=
  match (between? "perform(" ")" text).bind String.toNat? with
  | some number => script.programs[number]?.getD .nothing
  | none => plainAct text

/-- Give a program a text of its own. -/
def addProgram
    (script : Script)
    (program : Act) : String × Script :=
  (programText script.programs.length, { script with programs := script.programs ++ [program] })

end Script
end ScriptHost
