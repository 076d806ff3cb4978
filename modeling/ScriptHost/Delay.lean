import ScriptHost.Agenda
import ScriptHost.Binary64
import ScriptHost.Board

/-!
# Delays

A delay is an operation that completes without a value after some time. If the workers
stop before, it is abandoned like every other operation of theirs.
-/

namespace ScriptHost
namespace Delay

/-- Why a number of milliseconds is no delay. -/
inductive Problem
  | invalid
  | tooLong
deriving DecidableEq, Repr

/-- The number of seconds that no delay reaches. -/
def secondsLimit : Nat := UInt64.size

/-- The nanoseconds of a number of seconds, to the nearest one; a tie goes to the even one. -/
def ofSeconds (seconds : Binary64) : Except Problem Nat :=
  match seconds.meaning with
  | .nan => .error .tooLong
  | .infinity _ => .error .tooLong
  | .finite _ significand exponent =>
      let numerator := significand * Binary64.factor 2 exponent
      let denominator := Binary64.factor 2 (-exponent)
      if secondsLimit * denominator ≤ numerator then .error .tooLong
      else .ok (Binary64.roundQuotient (1000000000 * numerator) denominator)

/-- The nanoseconds of a number of milliseconds. Its seconds are a number of the same format. -/
def nanoseconds (milliseconds : Binary64) : Except Problem Nat :=
  match milliseconds.meaning with
  | .nan => .error .invalid
  | .infinity _ => .error .invalid
  | .finite negative significand _ =>
      if negative && significand ≠ 0 then .error .invalid
      else ofSeconds (milliseconds.divNat 1000)

/-- The outcome of a delay that nobody stops. -/
def outcome : Outcome :=
  .ok .void

/-- A delay seen to its end. Its workers either go on until it is due or are stopped
at once. -/
def observe
    (time : Nat)
    (stopped : Bool) : Option Outcome × Option OperationStatus :=
  let (board, id) := Board.empty.create
  let agenda := Agenda.empty.add time id
  let board :=
    if stopped then board.settle id (.error .abandoned)
    else
      match agenda.next? with
      | some (id, _) => board.settle id outcome
      | none => board
  (board.outcome? id, board.status? id)

end Delay
end ScriptHost
