import ScriptHost.Natives

/-!
# The steps of a script

A step evaluates its terms, asks the host, and logs what came of it. Functions of the host
call functions of the script and the other way round; the number of calls within calls is
bounded by a depth, so that every run ends.
-/

namespace ScriptHost
namespace Session

/-! ## Endpoints -/

/-- Whether a text is a number of a length. -/
def isNumberText
    (least most : Nat)
    (text : List Char) : Bool :=
  least ≤ text.length && text.length ≤ most && text.all Char.isDigit

/-- Whether a text is an endpoint of this machine whose port was given out. -/
def isGivenEndpoint (text : String) : Bool :=
  let host := ['1', '2', '7', '.', '0', '.', '0', '.']
  let rest := text.toList.drop host.length
  host.isPrefixOf text.toList
    && isNumberText 1 3 (rest.takeWhile (· ≠ ':'))
    && isNumberText 4 5 ((rest.dropWhile (· ≠ ':')).drop 1)

mutual

/-- The endpoints in a value, in the order in which they are written. -/
def endpointsOf : Value → List String
  | .string text => if isGivenEndpoint text then [text] else []
  | .array items => endpointsOfItems items
  | .object properties => endpointsOfProperties properties
  | .error _ message => endpointsOf message
  | _ => []

/-- The endpoints in the items of an array. -/
def endpointsOfItems : List Value → List String
  | [] => []
  | item :: rest => endpointsOf item ++ endpointsOfItems rest

/-- The endpoints in the properties of an object. -/
def endpointsOfProperties : List (String × Value) → List String
  | [] => []
  | (_, value) :: rest => endpointsOf value ++ endpointsOfProperties rest

end

/-- Endpoints that are written for the first time get the next numbers. -/
def noteEndpoints (values : List Value) : SessionM Unit :=
  modify fun session =>
    { session with
      endpoints := (endpointsOfItems values).foldl
        (fun endpoints endpoint =>
          if endpoints.contains endpoint then endpoints else endpoints ++ [endpoint])
        session.endpoints }

/-- The value that a result or a thrown value consists of. -/
def resultValue : Except Value Value → Value
  | .ok value => value
  | .error value => value

/-- The values that a log entry shows. -/
def LogEntry.values : LogEntry → List Value
  | .called _ arguments => arguments
  | .did result => [resultValue result]

/-- Put an entry into the log. -/
def note (entry : LogEntry) : SessionM Unit := do
  noteEndpoints (LogEntry.values entry)
  modify fun session => { session with log := session.log ++ [entry] }

/-! ## Terms -/

mutual

/-- The value that a term describes. -/
def evaluate
    (session : Session)
    (arguments : List Value) : Term → Value
  | .value value => value
  | .array items => .array (evaluateItems session arguments items)
  | .object properties => .record (evaluateProperties session arguments properties)
  | .error message => .error "Error" (evaluate session arguments message)
  | .saved name => (session.saved.lookup name).getD .undefined
  | .argument index => arguments.getD index .undefined
  | .endpoint index => (session.endpoints[index]?.map Value.string).getD .undefined

/-- The values that terms describe. -/
def evaluateItems
    (session : Session)
    (arguments : List Value) : List Term → List Value
  | [] => []
  | term :: rest => evaluate session arguments term :: evaluateItems session arguments rest

/-- The properties that terms describe. -/
def evaluateProperties
    (session : Session)
    (arguments : List Value) : List (String × Term) → List (String × Value)
  | [] => []
  | (name, term) :: rest =>
      (name, evaluate session arguments term) :: evaluateProperties session arguments rest

end

/-- The value of a term now. -/
def valueOf
    (arguments : List Value)
    (term : Term) : SessionM Value := do
  return evaluate (← get) arguments term

/-! ## Actions -/

/-- Put a value under a name in place of the one before. -/
def assign
    (name : String)
    (value : Value)
    (entries : List (String × Value)) : List (String × Value) :=
  (name, value) :: entries.filter fun entry => entry.1 ≠ name

/-- Ask for the status of an operation until it is settled. `fuel` bounds how much work is
done meanwhile. -/
def settle
    (invoke : Invoke)
    (operation : Value) : Nat → SessionM Value
  | 0 => throw .stuck
  | fuel + 1 => do
      match ← Natives.call invoke "taskStatus" [operation] with
      | .string status =>
          if status = OperationStatus.pending.name then
            if ← await then settle invoke operation fuel else throw .stuck
          else pure (.string status)
      | other => pure other

/-- The nanoseconds that pumping waits for events that do not come. -/
def pumpPatience : Nat := 5000000000

/-- Deliver events until there have been enough of them. When none come any more, time
passes in vain. -/
def pump
    (invoke : Invoke)
    (connection : Value)
    (least : Nat) : Nat → Int → SessionM Value
  | 0, delivered => pure (.ofInt delivered)
  | fuel + 1, delivered => do
      let result ← Natives.call invoke "tcpPumpEvents" [connection]
      let count :=
        match result with
        | .float number => number.toInt?.getD 0
        | _ => 0
      if (least : Int) ≤ delivered + count then pure (.ofInt (delivered + count))
      else if count = 0 then do
        changeHost fun host => host.pass pumpPatience
        pure (.ofInt delivered)
      else pump invoke connection least fuel (delivered + count)

/-- Do what a step asks for. -/
def act
    (invoke : Invoke)
    (arguments : List Value) : Action → SessionM Value
  | .call function terms => do
      Natives.call invoke function (evaluateItems (← get) arguments terms)
  | .print terms => do
      Natives.call invoke "print" (evaluateItems (← get) arguments terms)
  | .get property => do return (Natives.asValue (← theHost)).property property
  | .settle name => do
      settle invoke (← valueOf arguments (.saved name))
        ((← theHost).agenda.appointments.length + 1)
  | .pump name least => do
      pump invoke (← valueOf arguments (.saved name)) least (least + 1) 0
  | .defer function => do
      modify fun session => { session with jobs := session.jobs ++ [function] }
      pure .undefined
  | .define name term => do
      let value ← valueOf arguments term
      modify fun session => { session with globals := assign name value session.globals }
      pure .undefined

/-- A result with the properties that are picked. -/
def picked
    (pick? : Option (List String))
    (value : Value) : Value :=
  match pick?, value with
  | some names, .object properties =>
      .object (properties.filter fun property => names.contains property.1)
  | _, value => value

/-- Perform a step. The answer is what it came to, with the picked properties only. -/
def perform
    (invoke : Invoke)
    (arguments : List Value)
    (step : Step) : SessionM (Except Value Value) := do
  let result ← caught (act invoke arguments step.action)
  match step.save?, result with
  | some name, .ok value =>
      modify fun session => { session with saved := assign name value session.saved }
  | _, _ => pure ()
  pure (result.map (picked step.pick?))

/-- Perform the steps of an act and log them. A step that raises ends the act with what it
throws. -/
def performSteps
    (invoke : Invoke)
    (arguments : List Value) : List Step → SessionM Unit
  | [] => pure ()
  | step :: rest => do
      let result ← perform invoke arguments step
      note (.did result)
      match result with
      | .error value =>
          if step.raises then throw (.thrown value) else performSteps invoke arguments rest
      | .ok _ => performSteps invoke arguments rest

/-- Perform an act. -/
def performAct
    (invoke : Invoke)
    (arguments : List Value)
    (act : Act) : SessionM Value := do
  performSteps invoke arguments act.steps
  match act.ending with
  | .returning term => valueOf arguments term
  | .throwing term => throw (.thrown (← valueOf arguments term))

/-! ## Calls -/

/-- Count a call of a function. The answer is the number of earlier calls. -/
def countCall (name : String) : SessionM Nat := do
  let earlier := ((← get).calls.lookup name).getD 0
  modify fun session =>
    { session with
      calls := (name, earlier + 1) :: session.calls.filter fun entry => entry.1 ≠ name }
  pure earlier

/-- Call a function of the script. -/
def callScript
    (invoke : Invoke)
    (name : String)
    (arguments : List Value) : SessionM Value := do
  note (.called name arguments)
  let earlier ← countCall name
  performAct invoke arguments ((← get).script.act name earlier)

/-- Call a function. The depth bounds how many calls there are within calls. -/
def invokeWithin : Nat → Invoke
  | 0, _, _ => throw .stuck
  | depth + 1, .script name, arguments => callScript (invokeWithin depth) name arguments
  | depth + 1, .host name, arguments => Natives.call (invokeWithin depth) name arguments

/-- More calls within calls than any script makes that ends. -/
def callDepth : Nat := 1000

/-- Call a function from outside. -/
def invoke : Invoke :=
  invokeWithin callDepth

end Session
end ScriptHost
