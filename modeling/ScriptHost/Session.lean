import ScriptHost.Host
import ScriptHost.Script
import ScriptHost.Value.Conversion
import ScriptHost.Value.Text

/-!
# Sessions

A session is a host together with the script that it runs: what the script has saved and
defined, how often its functions were called, and which calls are deferred. A step of a
session is interrupted by a thrown value, by a failure of the host itself, or because it
waits for something that never comes.
-/

namespace ScriptHost

/-- Why a step of a session ends early. -/
inductive Interruption
  | thrown (value : Value)
  | crashed
  | stuck

/-- What a log records: a call of a function, and what a step came to. -/
inductive LogEntry
  | called (function : String) (arguments : List Value)
  | did (result : Except Value Value)

/-- A host with the script that it runs. -/
structure Session where
  host : Host
  script : Script
  calls : List (String × Nat)
  saved : List (String × Value)
  globals : List (String × Value)
  jobs : List String
  log : List LogEntry
  endpoints : List String

/-- A step of a session. -/
abbrev SessionM := ExceptT Interruption (StateM Session)

/-- How a function is called. -/
abbrev Invoke := Function → List Value → SessionM Value

namespace Session

/-- A session whose script has not begun. -/
def start (host : Host) (script : Script) : Session where
  host := host
  script := script
  calls := []
  saved := []
  globals := []
  jobs := []
  log := []
  endpoints := []

/-! ## The host -/

/-- The host of the session. -/
def theHost : SessionM Host := do
  return (← get).host

/-- Change the host of the session. -/
def changeHost (change : Host → Host) : SessionM Unit :=
  modify fun session => { session with host := change session.host }

/-- Ask the host for something and keep it as it is afterwards. -/
def askHost
    {α : Type}
    (request : Host → α × Host) : SessionM α := do
  let (answer, host) := request (← theHost)
  changeHost fun _ => host
  pure answer

/-! ## Throwing -/

/-- Throw an error of a name with a message. -/
def raiseNamed
    {α : Type}
    (name message : String) : SessionM α :=
  throw (.thrown (.error name (.string message)))

/-- Throw an error of the host. -/
def raise
    {α : Type}
    (message : String) : SessionM α :=
  raiseNamed "Error" message

/-- Throw an error for a value of the wrong type. -/
def raiseType
    {α : Type}
    (message : String) : SessionM α :=
  raiseNamed "TypeError" message

/-- Take what was converted, or throw. -/
def converted
    {α : Type}
    (result : Except ConversionError α) : SessionM α :=
  match result with
  | .ok value => pure value
  | .error error => raiseType error.message

/-- What a step comes to: a result or a thrown value. -/
def caught
    {α : Type}
    (step : SessionM α) : SessionM (Except Value α) :=
  tryCatch (do return .ok (← step)) fun interruption =>
    match interruption with
    | .thrown value => pure (.error value)
    | other => throw other

/-- What a step comes to, with the words in which a thrown value is reported. -/
def reported
    {α : Type}
    (step : SessionM α) : SessionM (Except String α) := do
  return (← caught step).mapError Value.thrownMessage

/-- Call a function, of which the host keeps a record. What it comes to is reported. -/
def callRecorded
    (invoke : Invoke)
    (record : Host → Host)
    (function : Function)
    (arguments : List Value) : SessionM (Except String Value) := do
  changeHost record
  reported (invoke function arguments)

/-! ## Time -/

/-- Wait for the work that is done next. The answer tells whether there was any. -/
def await : SessionM Bool := do
  match (← theHost).await? with
  | none => pure false
  | some host => do
      changeHost fun _ => host
      pure true

/-- Wait until something is there. `fuel` bounds how much work is done meanwhile. -/
def awaitSome
    {α : Type}
    (find : Host → Option α) : Nat → SessionM α
  | 0 => throw .stuck
  | fuel + 1 => do
      match find (← theHost) with
      | some found => pure found
      | none => if ← await then awaitSome find fuel else throw .stuck

/-- Wait until an operation is settled. -/
def waitFor (operation : OperationId) : SessionM Outcome := do
  awaitSome (fun host => host.board.outcome? operation)
    ((← theHost).agenda.appointments.length + 1)

end Session

/-! ## Natives -/

/-- Reads the arguments of a call from left to right. -/
abbrev Parameters (α : Type) := StateT (List Value) (Except ConversionError) α

namespace Parameters

/-- Read an argument; one that is not there is undefined. -/
def next
    {α : Type}
    (conversion : Conversion α) : Parameters α := do
  let arguments ← get
  set (arguments.drop 1)
  match conversion (arguments.head?.getD .undefined) with
  | .ok value => pure value
  | .error error => throw error

/-- Read an argument that may be left out. -/
def next?
    {α : Type}
    (conversion : Conversion α) : Parameters (Option α) :=
  next (Conversion.optional conversion)

end Parameters

/-- A function of the host: how many arguments it needs, and what it does. -/
structure Native where
  required : Nat
  body : Invoke → List Value → SessionM Value

namespace Native

/-- A function that reads its arguments first. -/
def reading
    {α : Type}
    (required : Nat)
    (parameters : Parameters α)
    (body : Invoke → α → SessionM Value) : Native where
  required := required
  body := fun invoke arguments => do
    let (values, _) ← Session.converted (parameters.run arguments)
    body invoke values

/-- A function that calls no other. -/
def plain
    {α : Type}
    (required : Nat)
    (parameters : Parameters α)
    (body : α → SessionM Value) : Native :=
  reading required parameters fun _ values => body values

/-- Call a function of the host. Missing arguments are noticed before any is read. -/
def call
    (native : Native)
    (invoke : Invoke)
    (arguments : List Value) : SessionM Value := do
  if arguments.length < native.required then
    Session.raiseType ("Error calling function with " ++ toString arguments.length
      ++ " argument(s) while " ++ toString native.required ++ " where expected")
  else native.body invoke arguments

end Native
end ScriptHost
