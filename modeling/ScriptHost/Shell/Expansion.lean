import ScriptHost.Shell.Arithmetic
import ScriptHost.Shell.Command
import ScriptHost.Shell.Format
import ScriptHost.Shell.Pattern
import ScriptHost.Shell.State

/-!
# Expansion

Before a command runs, the parameters, expressions and commands in its words are replaced
by what they stand for, unquoted results are cut into fields, and redirections change where
its output leads.
-/

namespace ScriptHost
namespace Shell

/-! ## Parameters and words -/

/-- Give a variable a value. -/
def State.assign (state : State) (name value : String) : State :=
  { state with
    bindings := (name, value) :: state.bindings.filter fun entry => entry.1 ≠ name }

/-- Forget a variable. -/
def State.forget (state : State) (name : String) : State :=
  { state with
    bindings := state.bindings.filter fun entry => entry.1 ≠ name
    exported := state.exported.filter fun entry => entry ≠ name }

/-- The value of a parameter that is set. -/
def State.parameter? (state : State) (name : String) : Option String :=
  match name with
  | "?" => some (toString state.status)
  | "$" => some (toString processNumber)
  | "#" => some (toString (state.arguments.length - 1))
  | "@" => some (String.intercalate " " (state.arguments.drop 1))
  | "*" => some (String.intercalate " " (state.arguments.drop 1))
  | "!" => none
  | "-" => none
  | name =>
      match name.toNat? with
      | some position => state.arguments[position]?
      | none => state.bindings.lookup name

/-- The value of a parameter, empty if it is not set. -/
def State.parameter (state : State) (name : String) : String :=
  (state.parameter? name).getD ""

/-- Cut the text between braces into the name of a parameter and what is asked of it. -/
def splitRequest (chars : List Char) : String × List Char :=
  match chars with
  | [] => ("", [])
  | first :: rest =>
      if beginsName first then
        (String.ofList (first :: rest.takeWhile continuesName), rest.dropWhile continuesName)
      else if first.isDigit then
        (String.ofList (first :: rest.takeWhile Char.isDigit), rest.dropWhile Char.isDigit)
      else if namesSpecial first then (first.toString, rest)
      else ("", chars)

/-- Give up because of what stands between braces. -/
def badSubstitution
    {α : Type} : ShellM α := do
  complain "Bad substitution"
  throw (.exited 2)

/-- The text that the characters between braces stand for: a parameter, its length, one
that is replaced if it is missing or present, or one without a part at an end. -/
def bracedText (chars : List Char) : ShellM String := do
  let state ← get
  let (name, request) := splitRequest chars
  let value? := state.parameter? name
  let value := value?.getD ""
  let filled := value?.any (· ≠ "")
  match name, request with
  | "#", _ :: _ => do
      match splitRequest request with
      | (name, []) => pure (toString (state.parameter name).length)
      | _ => badSubstitution
  | "", _ => badSubstitution
  | _, [] => pure value
  | _, ':' :: '-' :: word => pure (if filled then value else String.ofList word)
  | _, '-' :: word => pure (value?.getD (String.ofList word))
  | _, ':' :: '+' :: word => pure (if filled then String.ofList word else "")
  | _, '+' :: word => pure (if value?.isSome then String.ofList word else "")
  | _, ':' :: '=' :: word => if filled then pure value else assigned name word
  | _, '=' :: word => if value?.isSome then pure value else assigned name word
  | _, '%' :: '%' :: word => cut Pattern.withoutEnd true word value
  | _, '%' :: word => cut Pattern.withoutEnd false word value
  | _, '#' :: '#' :: word => cut Pattern.withoutFront true word value
  | _, '#' :: word => cut Pattern.withoutFront false word value
  | _, _ => badSubstitution
where
  /-- Give a parameter the value that is used for it. -/
  assigned (name : String) (word : List Char) : ShellM String := do
    let value := String.ofList word
    modify fun state => state.assign name value
    pure value
  /-- Take away a part of a value. -/
  cut
      (remove : Pattern → Bool → List Char → List Char)
      (longest : Bool)
      (word : List Char)
      (value : String) : ShellM String :=
    pure (String.ofList (remove (.ofText (String.ofList word)) longest value.toList))

/-- A text without the ends of lines at its end. -/
def dropLineEnds (text : String) : String :=
  String.ofList ((text.toList.reverse.dropWhile (· = '\n')).reverse)

/-- Runs a line and answers what it writes to its output. -/
abbrev Substitute := String → ShellM String

/-- The text of pieces, all of them taken as quoted. -/
def plainText (substitute : Substitute) : Word → ShellM String
  | [] => pure ""
  | piece :: rest => do
      let here ←
        match piece with
        | .text value _ => pure value
        | .parameter request _ => bracedText request.toList
        | .arithmetic expression _ => arithmetic expression
        | .commands line _ => substitute line
      pure (here ++ (← plainText substitute rest))
where
  /-- The value of an expression in which parameters are replaced first. -/
  arithmetic (expression : String) : ShellM String := do
    let state ← get
    let chars := (expression.toList.filter (· ≠ '$'))
    let valueOf := fun name => (constant? (state.parameter name).toList).getD 0
    match Arithmetic.value valueOf (String.ofList chars) with
    | .ok value => pure (toString value)
    | .error fault => do
        complain ("arithmetic expression: " ++ fault.message ++ ": \"" ++ expression ++ "\"")
        throw (.exited 2)

/-- Fields that are complete, and the one that has begun. -/
structure Fields where
  complete : List String
  current? : Option String

/-- Put a text at the end of the field that has begun. -/
def Fields.append (fields : Fields) (text : String) : Fields :=
  { fields with current? := some (fields.current?.getD "" ++ text) }

/-- End the field that has begun. -/
def Fields.finish (fields : Fields) : Fields :=
  match fields.current? with
  | none => fields
  | some text => ⟨fields.complete ++ [text], none⟩

/-- Put a text at the end that blanks cut into fields. -/
def Fields.appendCut (fields : Fields) : List Char → Fields
  | [] => fields
  | char :: rest =>
      if isBlank char || char = '\n' then appendCut fields.finish rest
      else appendCut (fields.append char.toString) rest

/-- Whether a piece stands in quotes. -/
def Piece.isQuoted : Piece → Bool
  | .text _ quoted => quoted
  | .parameter _ quoted => quoted
  | .arithmetic _ quoted => quoted
  | .commands _ quoted => quoted

/-- Put the value of a piece at the end of fields. Text that stands in the line itself
is never cut. -/
def appendPiece
    (substitute : Substitute)
    (fields : Fields)
    (piece : Piece) : ShellM Fields := do
  match piece with
  | .parameter "@" true => do
      let rest := (← get).arguments.drop 1
      pure (rest.zipIdx.foldl (fun fields (argument, index) =>
        (if index = 0 then fields else fields.finish).append argument) fields)
  | piece => do
      let text ← plainText substitute [piece]
      match piece, piece.isQuoted with
      | .text _ _, _ => pure (fields.append text)
      | _, true => pure (fields.append text)
      | _, false => pure (fields.appendCut text.toList)

/-- The pattern that a word writes. -/
def patternOf (substitute : Substitute) : Word → ShellM Pattern
  | [] => pure []
  | piece :: rest => do
      let text ← plainText substitute [piece]
      let here := if piece.isQuoted then Pattern.ofLiteral text else Pattern.ofText text
      pure (here ++ (← patternOf substitute rest))

/-- Whether a word has a sign of a pattern outside quotes. -/
def hasPatternSign (pieces : Word) : Bool :=
  pieces.any fun piece =>
    match piece with
    | .text value false => (Pattern.ofText value).isOpen
    | _ => false

/-- The part of a pattern behind its last slash and the text in front, if only that part
can stand for more than one text. -/
def splitPattern? (pattern : Pattern) : Option (String × Pattern) :=
  let isSlash := fun part : PatternPart => part = .exactly '/'
  let last := (pattern.reverse.takeWhile fun part => !isSlash part).reverse
  let front := pattern.take (pattern.length - last.length)
  if Pattern.isOpen front then none
  else
    let char? : PatternPart → Option Char
      | .exactly char => some char
      | _ => none
    some (String.ofList (front.filterMap char?), last)

/-- The paths that a pattern stands for. -/
def pathsOf
    (files : FileSystem)
    (pattern : Pattern) : List String :=
  match splitPattern? pattern with
  | none => []
  | some (front, last) =>
      match files.listDirectory (if front = "" then "." else front) with
      | .ok names => (last.chooseNames names).map (front ++ ·)
      | .error _ => []

/-- The fields of a word. A pattern is replaced by the paths that it stands for, if there
are any. -/
def fieldsOfWord
    (substitute : Substitute)
    (pieces : Word) : ShellM (List String) := do
  let paths ←
    if hasPatternSign pieces then do
      let pattern ← patternOf substitute pieces
      pure (pathsOf (← get).files pattern)
    else pure []
  if paths.isEmpty then
    let fields ← pieces.foldlM (appendPiece substitute) ⟨[], none⟩
    pure fields.finish.complete
  else pure paths

/-- The fields of words. -/
def fieldsOf
    (substitute : Substitute)
    (words : List Word) : ShellM (List String) := do
  pure (← words.mapM (fieldsOfWord substitute)).flatten

/-! ## Redirections -/

/-- Change where a descriptor leads. -/
def retarget (descriptor : Nat) (target : Target) : ShellM Unit :=
  modify fun state =>
    if descriptor = 2 then { state with errors := target }
    else { state with output := target }

/-- Follow one redirection. The answer tells whether it could be done. -/
def redirect
    (substitute : Substitute)
    (change : Redirect) : ShellM Bool := do
  let target ← plainText substitute change.target
  let descriptor := change.descriptor?.getD 1
  let state ← get
  match change.operator with
  | ">&" => do
      match target with
      | "1" => retarget descriptor state.output
      | "2" => retarget descriptor state.errors
      | _ => retarget descriptor .closed
      pure true
  | "<&" => pure true
  | "<" =>
      if target = nowherePath then
        set { state with input := [] }
        pure true
      else
        match state.files.readFile target with
        | .ok content => do
            set { state with input := content }
            pure true
        | .error _ => do
            complain ("cannot open " ++ target ++ ": No such file")
            pure false
  | operator =>
      if target = nowherePath then
        retarget descriptor .nowhere
        pure true
      else
        match state.files.writable target with
        | .error problem => do
            complain ("cannot create " ++ target ++ ": "
              ++ if problem = .isDirectory then "Is a directory" else "Directory nonexistent")
            pure false
        | .ok location => do
            let content := if operator = ">>" then state.files.contentAt location else []
            set { state with files := state.files.put location (.file content) }
            retarget descriptor (.file location)
            pure true

/-- Follow redirections in order up to the first that cannot be done. -/
def redirectAll (substitute : Substitute) : List Redirect → ShellM Bool
  | [] => pure true
  | change :: rest => do
      if ← redirect substitute change then redirectAll substitute rest else pure false

end Shell
end ScriptHost
