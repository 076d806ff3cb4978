import ScriptHost.Operation

/-!
# Observing one operation

An observation follows a single operation: whether its completer is still unused,
how many observers share it, and which listeners have fired. Every request yields an
answer, the status after it, and what listeners recorded meanwhile.
-/

namespace ScriptHost
namespace Operation

/-- What a listener records when it fires. -/
inductive Mark
  | label (text : String)
  | status
  deriving DecidableEq

/-- How an observed operation comes about. A worker comes to no outcome if its work panics or
its thread cannot be started. -/
inductive Origin
  | pending
  | ready (outcome : Outcome)
  | worker (outcome? : Option Outcome)

/-- A request on an observed operation. -/
inductive Request
  | complete (outcome : Outcome)
  | drop
  | listen (mark : Mark)
  | addObserver
  | dropObserver
  | outcome
  | wait
  | isComplete
  | describe

/-- The answer of a request. -/
inductive Answer
  | settled
  | noCompleter
  | nothing
  | count (number : Nat)
  | outcome (outcome? : Option Outcome)
  | flag (value : Bool)
  | text (value : String)

/-- An operation under observation. -/
structure Observation where
  operation : Operation Mark
  hasCompleter : Bool
  observers : Nat
  fired : List String

namespace Observation

/-- A pending operation with one observer, whose completer is unused. -/
def pending : Observation :=
  ⟨.fresh, true, 1, []⟩

/-- What a listener records. -/
def recorded
    (operation : Operation Mark) : Mark → String
  | .label text => text
  | .status => operation.status.name

/-- Let listeners fire in order. -/
def fire
    (observation : Observation)
    (marks : List Mark) : Observation :=
  { observation with
    fired := observation.fired ++ marks.map (recorded observation.operation) }

/-- Use up the completer. -/
def complete
    (observation : Observation)
    (outcome : Outcome) : Observation × Answer :=
  if observation.hasCompleter then
    let (operation, marks) := observation.operation.settle outcome
    ({ observation with operation := operation, hasCompleter := false }.fire marks, .settled)
  else (observation, .noCompleter)

/-- Drop the completer. -/
def drop (observation : Observation) : Observation × Answer :=
  observation.complete (.error .abandoned)

/-- An operation as its origin leaves it. A worker has ended before it is observed. -/
def begin : Origin → Observation
  | .pending => pending
  | .ready outcome => (pending.complete outcome).1
  | .worker (some outcome) => (pending.complete outcome).1
  | .worker none => pending.drop.1

/-- Register a listener. -/
def listen
    (observation : Observation)
    (mark : Mark) : Observation × Answer :=
  let (operation, fires) := observation.operation.listen mark
  let observation := { observation with operation := operation }
  (if fires then observation.fire [mark] else observation, .nothing)

/-- Answer a request. Observers come and go, but the last one stays. -/
def answer
    (observation : Observation) : Request → Observation × Answer
  | .complete outcome => observation.complete outcome
  | .drop => observation.drop
  | .listen mark => observation.listen mark
  | .addObserver =>
      let observers := observation.observers + 1
      ({ observation with observers := observers }, .count observers)
  | .dropObserver =>
      let observers := max 1 (observation.observers - 1)
      ({ observation with observers := observers }, .count observers)
  | .outcome => (observation, .outcome observation.operation.outcome?)
  | .wait => (observation, .outcome observation.operation.outcome?)
  | .isComplete => (observation, .flag observation.operation.isComplete)
  | .describe => (observation, .text observation.operation.describe)

/-- Answer requests one after the other, each with the status after it and what
listeners recorded during it. -/
def answerAll
    (observation : Observation) :
    List Request → List (Answer × OperationStatus × List String)
  | [] => []
  | request :: requests =>
      let (observation, answer) := { observation with fired := [] }.answer request
      (answer, observation.operation.status, observation.fired)
        :: observation.answerAll requests

end Observation
end Operation
end ScriptHost
