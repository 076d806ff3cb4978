import ScriptHost.Natives.Tasks
import ScriptHost.Proofs.Session

/-!
# Uses of an operation

A script makes use of an operation by its handle: it asks for its status, waits for it, or has a
producer return it to a run. Whether a use finds an operation depends on what the script holds, and
whatever it comes to is recorded.
-/

namespace ScriptHost
namespace Session

open Natives

variable {session : Session} {handle : ScriptHandle}

/-- The session once something that befell an operation was recorded. -/
def noting
    (session : Session)
    (dealing : Dealing) : Session :=
  session.withHost (session.host.deal dealing)

/-- What is thrown to a script that uses a handle that stands for no operation. -/
def unknown (handle : ScriptHandle) : Interruption :=
  .thrown (.error "Error" (.string (unknownOperation handle)))

/-- A status that cannot be shown is noted as missed. -/
theorem run_taskStatus_of_none
    (isMissed : ((session.host.operations.get? handle).bind
      fun held => session.host.board.status? held.operation) = none) :
    (taskStatus handle).run.run session =
      (.error (unknown handle), session.noting (.missed handle)) := by
  rw [taskStatus, run_bind, run_theHost]
  dsimp only
  rw [isMissed]
  rfl

/-- A claim that finds nothing is noted as missed. -/
theorem run_claim_of_none
    (absent : session.host.operations.get? handle = none) :
    (claim handle).run.run session = (.ok none, session.noting (.missed handle)) := by
  have notTaken : session.host.takeOperation handle = none := by
    rw [Host.takeOperation, HandleTable.remove, absent]
  rw [claim, run_bind, run_theHost]
  dsimp only
  rw [notTaken]
  rfl

/-- Nobody can wait for an operation that is not there. -/
theorem run_taskWait_of_none
    (absent : session.host.operations.get? handle = none)
    (type? : Option String) :
    (taskWait handle type?).run.run session =
      (.error (unknown handle), session.noting (.missed handle)) := by
  rw [taskWait, run_bind, run_claim_of_none absent]
  rfl

section Products

variable {items : List Value} {type? : Option String} {function : Function}
  (isProduct : readProduct items = .ok (handle, type?, function))

include isProduct

/-- A run cannot take in an operation that is not there. -/
theorem run_takeIn_of_none
    (absent : session.host.operations.get? handle = none) :
    (takeIn items).run.run session =
      (.ok (.failed (unknownOperation handle)), session.noting (.missed handle)) := by
  rw [takeIn, isProduct]
  dsimp only
  rw [run_bind, run_claim_of_none absent]
  rfl

end Products

/-! ## Handing out what came of an operation -/

/-- What a script that waits for an operation is given. -/
def received : Scheduler.Delivery → Except Interruption Value
  | .ok value? => .ok (.ofOperationValue value?)
  | .error error => .error (.thrown (.error "Error" (.string error.message)))

section Receiving

variable {later : Session} {held : HeldOperation} (type? : Option String)

end Receiving

section Delivering

variable {invoke : Invoke} {completion : Scheduler.Completion Awaiter}

end Delivering

/-- No use of a handle finds an operation, and it is recorded that the script misses it. -/
structure Misses
    (session : Session)
    (handle : ScriptHandle) : Prop where
  status : (taskStatus handle).run.run session =
    (.error (unknown handle), session.noting (.missed handle))
  wait : ∀ type?, (taskWait handle type?).run.run session =
    (.error (unknown handle), session.noting (.missed handle))
  run : ∀ items type? function, readProduct items = .ok (handle, type?, function) →
    (takeIn items).run.run session =
      (.ok (.failed (unknownOperation handle)), session.noting (.missed handle))

/-- Every use of a handle without an operation misses. -/
theorem misses_of_none (absent : session.host.operations.get? handle = none) :
    session.Misses handle where
  status := run_taskStatus_of_none (by rw [absent]; rfl)
  wait := run_taskWait_of_none absent
  run _ _ _ isProduct := run_takeIn_of_none isProduct absent

end Session
end ScriptHost
