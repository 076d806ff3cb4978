import ScriptHost.Scheduler
import ScriptHost.Session

/-!
# Tasks

A script makes delays, looks at operations, waits for one, or runs those that a producer
yields. An operation that is waited for or run is no longer held by the script, whatever
comes of it.
-/

namespace ScriptHost
namespace Natives

open Session

/-- A count that may be left out. It is a whole number and not negative. -/
def countOf
    (name : String)
    (number? : Option Binary64)
    (default : UInt64) : SessionM Nat :=
  match number? with
  | none => pure default.toNat
  | some number =>
      match number.toInt? with
      | some value =>
          if value < 0 then refuse number else pure (min value.toNat (UInt64.size - 1))
      | none => refuse number
where
  /-- Refuse a number that is no count. -/
  refuse (number : Binary64) : SessionM Nat :=
    raise (name ++ " must be a non-negative integer, got " ++ number.messageText)

/-- The type of result that is asked for. A name that names none asks for nothing. -/
def resultType
    (name? : Option String)
    (natural : ResultType) : ResultType :=
  match name? with
  | none => natural
  | some name => (ResultType.ofName? name).getD .void

/-- The words for a handle that holds no operation. -/
def unknownOperation (handle : ScriptHandle) : String :=
  "unknown operation " ++ handle.display

/-- The nanoseconds of the smallest time that a delay takes. -/
def delayStep : Nat := 1000000

/-- Make a delay. -/
def taskDelay (milliseconds : Binary64) : SessionM Value := do
  match Delay.nanoseconds milliseconds with
  | .error .invalid => raise ("invalid delay " ++ milliseconds.messageText)
  | .error .tooLong => throw .crashed
  | .ok time => do
      let operation ← askHost fun host => host.begin (time + delayStep) .delay
      return .ofHandle (← askHost fun host => host.holdOperation operation .void)

/-- Tell the status of an operation. -/
def taskStatus (handle : ScriptHandle) : SessionM Value := do
  let host ← theHost
  match (host.operations.get? handle).bind fun held => host.board.status? held.operation with
  | some status => do
      changeHost fun host => host.deal (.shown handle status)
      pure (.string status.name)
  | none => do
      changeHost fun host => host.deal (.missed handle)
      raise (unknownOperation handle)

/-- Take an operation from the script. -/
def claim (handle : ScriptHandle) : SessionM (Option HeldOperation) := do
  match (← theHost).takeOperation handle with
  | none => do
      changeHost fun host => host.deal (.missed handle)
      pure none
  | some (held, host) => do
      changeHost fun _ => host
      pure (some held)

/-- Wait for an operation that was taken from the script and give back what it yields. -/
def receive
    (handle : ScriptHandle)
    (type? : Option String)
    (held : HeldOperation) : SessionM Value := do
  let delivery :=
    Scheduler.deliveryOf (resultType type? held.natural) (← waitFor held.operation)
  changeHost fun host => host.deal (.handed handle .waiter delivery)
  match delivery with
  | .ok value? => pure (.ofOperationValue value?)
  | .error error => raise error.message

/-- Take an operation from the script, wait for it and give back what it yields. -/
def taskWait
    (handle : ScriptHandle)
    (type? : Option String) : SessionM Value := do
  match ← claim handle with
  | none => raise (unknownOperation handle)
  | some held => receive handle type? held

/-! ## Runs -/

/-- Enough fuel for runs that end. -/
def runFuel : Nat := 1000000

/-- The callback of an operation that is run: the key of its function, and which operation it
is. -/
structure Awaiter where
  key : HandleKey
  handle : ScriptHandle
  operation : OperationId

/-- The words for what a producer must not return. -/
def badProduct : String :=
  "producer must return [operation, type, callback] or null"

/-- Take what a producer returned apart: an operation, a type of result and a
function. -/
def readProduct
    (items : List Value) :
    Except ConversionError (ScriptHandle × Option String × Function) := do
  let item := fun index => items.getD index .undefined
  let handle ← Conversion.handle (item 0)
  let type? ← Conversion.optional Conversion.string (item 1)
  let function ← Conversion.function (item 2)
  pure (handle, type?, function)

/-- Take in the operation that a producer returned. Nothing is taken from the script
unless all of it is in order. -/
def takeIn
    (items : List Value) : SessionM (Scheduler.Production Awaiter String) := do
  match readProduct items with
  | .error error => pure (.failed error.message)
  | .ok (handle, type?, function) => do
      match ← claim handle with
      | none => pure (.failed (unknownOperation handle))
      | some held => do
          let key ← askHost fun host => host.park function
          pure (.item
            ⟨held.operation, resultType type? held.natural, ⟨key, handle, held.operation⟩⟩)

/-- Ask a producer for its next operation. -/
def produce
    (invoke : Invoke)
    (producer : Function) : SessionM (Scheduler.Production Awaiter String) := do
  match ← reported (invoke producer []) with
  | .error message => pure (.failed message)
  | .ok .undefined => pure .finished
  | .ok .null => pure .finished
  | .ok (.array items) => takeIn items
  | .ok _ => pure (.failed badProduct)

/-- What a function is told of an operation: its value, or nothing and the reason of its
failure. -/
def deliveryArguments : Scheduler.Delivery → List Value
  | .ok value? => [.ofOperationValue value?]
  | .error error => [.undefined, .string error.message]

/-- Tell the function that waits for an operation what came of it. Its registration ends
before it is called. -/
def deliver
    (invoke : Invoke)
    (completion : Scheduler.Completion Awaiter) : SessionM (Except String Unit) := do
  let awaiter := completion.callback
  let function? := (← theHost).callables.get? awaiter.key
  changeHost fun host => host.release awaiter.key
  match function? with
  | none => pure (.ok ())
  | some function => do
      let handed := .handed awaiter.handle (.callback function) completion.result
      let answer ← callRecorded invoke (·.deal handed) function
        (deliveryArguments completion.result)
      pure (answer.map fun _ => ())

/-- How a run reaches the host of a session. -/
def environment
    {κ : Type}
    (dispatch : Scheduler.Completion κ → SessionM (Except String Unit))
    (discard : κ → SessionM Unit) : Scheduler.Environment SessionM κ String where
  board := do return (← theHost).board
  setBoard := fun board => changeHost fun host => { host with board := board }
  await := await
  dispatch := dispatch
  discard := discard

/-- What a run comes to: its counts, or the first failure as an error. -/
def runResult
    (result? : Option (Except String Scheduler.Report)) : SessionM Scheduler.Report :=
  match result? with
  | none => throw .stuck
  | some (.ok report) => pure report
  | some (.error message) => raise message

/-- Run the operations that a producer yields. The answer counts them. -/
def taskRun
    (invoke : Invoke)
    (producer : Function)
    (limit? : Option Binary64) : SessionM Value := do
  let limit ← countOf "limit" limit? (← theHost).settings.scheduler.defaultConcurrency
  let environment := environment (deliver invoke) fun awaiter =>
    changeHost fun host => host.release awaiter.key
  let result? ← Scheduler.runPull environment limit (produce invoke producer) runFuel
  return .ofCount (← runResult result?).dispatched

open Parameters in
/-- The functions for tasks. -/
def tasks : List (String × Native) := [
  ("taskDelay", .plain 1 (next Conversion.number) taskDelay),
  ("taskStatus", .plain 1 (next Conversion.handle) taskStatus),
  ("taskWait", .plain 1
    (do return (← next Conversion.handle, ← next? Conversion.string))
    fun (handle, type?) => taskWait handle type?),
  ("taskRun", .reading 1
    (do return (← next Conversion.function, ← next? Conversion.number))
    fun invoke (producer, limit?) => taskRun invoke producer limit?)]

end Natives
end ScriptHost
