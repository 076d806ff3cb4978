import Mathlib.Algebra.Order.Floor.Semifield
import Mathlib.Data.Rat.Floor
import ScriptHost.Proofs.Delay
import ScriptHost.Proofs.Natives.Mistakes

/-!
# Numbers that scripts give

A script gives numbers as delays, as limits of runs and as sizes of buffers. The host converts such
a number first and refuses it if it makes no sense. It may go on with a number that makes sense and
is out of range all the same: with a delay that nothing can measure, or a size that no buffer has.
-/

namespace ScriptHost

/-- What a script gives a number for. -/
inductive Purpose
  | delay
  | limit
  | bufferSize
deriving DecidableEq

namespace Purpose

/-- The values that make sense for a purpose. -/
def Accepts : Purpose → ℚ → Prop
  | delay, value => 0 ≤ value
  | limit, value => ∃ count : Nat, value = count
  | bufferSize, value => ∃ count : Nat, value = count

/-- What a number of some value is converted to: the nanoseconds that are nearest to its seconds,
or a count, the greatest one if it is beyond. -/
def amount (number : Binary64) : Purpose → ℚ → Nat
  | delay, _ => Binary64.nearest (1000000000 * Delay.secondsOf number)
  | limit, value => min ⌊value⌋₊ (UInt64.size - 1)
  | bufferSize, value => min ⌊value⌋₊ (UInt64.size - 1)

/-- What can be made of an amount: a delay of as many seconds as can be counted, a limit, or the
buffer of a link. -/
def Fits : Purpose → Nat → Prop
  | delay, time => time < 1000000 * Delay.millisecondsLimit
  | limit, count => count < UInt64.size
  | bufferSize, size => ∀ config : TransportConfig,
      config.bufferSize = size → (Transport.new config).canBuffer

/-- The value from which on a purpose is out of range. -/
def bound? : Purpose → Option ℚ
  | delay => some Delay.millisecondsLimit
  | limit => none
  | bufferSize => some (2 ^ 63)

/-- The words in which a number is refused. -/
def refusal : Purpose → Binary64 → String
  | delay, number => "invalid delay " ++ number.messageText
  | limit, number => "limit" ++ " must be a non-negative integer, got " ++ number.messageText
  | bufferSize, number =>
      "bufferSize" ++ " must be a non-negative integer, got " ++ number.messageText

end Purpose

namespace Natives

open Session Parameters

/-- Convert a number of milliseconds to nanoseconds. -/
def timeOf (milliseconds : Binary64) : SessionM Nat :=
  match Delay.nanoseconds milliseconds with
  | .error .invalid => raise ("invalid delay " ++ milliseconds.messageText)
  | .error .tooLong => throw .crashed
  | .ok time => pure time

/-- Convert a number. -/
def convert
    (purpose : Purpose)
    (number : Binary64) : SessionM Nat :=
  match purpose with
  | .delay => timeOf number
  | .limit => countOf "limit" (some number) 0
  | .bufferSize => countOf "bufferSize" (some number) 0

/-- Begin a delay. -/
def beginDelay (time : Nat) : SessionM Value := do
  let operation ← askHost fun host => host.begin (time + delayStep) .delay
  return .ofHandle (← askHost fun host => host.holdOperation operation .void)

/-- Run the operations that a producer yields, with a limit. -/
def runWithin
    (invoke : Invoke)
    (producer : Function)
    (limit : Nat) : SessionM Value := do
  let environment := environment (deliver invoke) fun awaiter =>
    changeHost fun host => host.release awaiter.key
  let result? ← Scheduler.runPull environment limit (produce invoke producer) runFuel
  return .ofCount (← runResult result?).dispatched

/-- Start a connection whose links have buffers of a size. -/
def startWithin
    (isServer : Bool)
    (request : ConnectionRequest)
    (bufferSize : Nat) : SessionM Value := do
  let host ← theHost
  match started host.network isServer
      (request.configuration host.settings.network bufferSize) with
  | .error _ => pure .null
  | .ok (transport, network) => do
      changeHost fun host => { host with network := network }
      holdConnection transport isServer request

/-- A call gives a number for a purpose, and this is what it does with the amount. -/
inductive Gives (invoke : Invoke) (number : Binary64) :
    Purpose → SessionM Value → (Nat → SessionM Value) → Prop
  | delay {first : Value} {rest : List Value}
      (reads : Reads (next Conversion.number) (first :: rest) number) :
      Gives invoke number .delay (call invoke "taskDelay" (first :: rest)) beginDelay
  | run {first : Value} {rest : List Value} {producer : Function}
      (reads : Reads (do return (← next Conversion.function, ← next? Conversion.number))
        (first :: rest) (producer, some number)) :
      Gives invoke number .limit (call invoke "taskRun" (first :: rest))
        (runWithin invoke producer)
  | batch {first : Value} {rest : List Value} {handle : ScriptHandle}
      (reads : Reads (do return (← next Conversion.handle, ← next? Conversion.number))
        (first :: rest) (handle, some number)) :
      Gives invoke number .limit (call invoke "runBatchProcess" (first :: rest))
        fun limit => runBatch invoke handle limit runFuel
  | start (isServer : Bool) {first config : Value} {rest : List Value}
      {request : ConnectionRequest}
      (reads : Reads (next Conversion.object) (first :: rest) config)
      (isRead : ConnectionRequest.read config = .ok request)
      (isAsked : request.bufferSize? = some number) :
      Gives invoke number .bufferSize
        (call invoke (if isServer then "tcpServerStart" else "tcpClientStart") (first :: rest))
        (startWithin isServer request)

/-- A number that makes no sense is refused in words, and the session is left as it is. Any other
number is converted to an amount that fits, and the call goes on with it. -/
structure GoesWell
    (session : Session)
    (purpose : Purpose)
    (number : Binary64) : Prop where
  converts : ∀ {invoke step next}, Gives invoke number purpose step next →
    step.run.run session = (convert purpose number >>= next).run.run session
  refuses : (∀ value ∈ number.value?, ¬purpose.Accepts value) →
    (convert purpose number).run.run session = (raise (purpose.refusal number)).run.run session
  goesOn : ∀ value ∈ number.value?, purpose.Accepts value →
    (convert purpose number).run.run session = (.ok (purpose.amount number value), session) ∧
      purpose.Fits (purpose.amount number value)

variable {invoke : Invoke} {session : Session} {purpose : Purpose} {number : Binary64}

/-! ## Calls -/

/-- A call whose arguments are read does what the function does with them. -/
theorem run_call_of_reads
    {α : Type}
    {name : String}
    {parameters : Parameters α}
    {body : Invoke → α → SessionM Value}
    {first : Value}
    {rest : List Value}
    {values : α}
    (found : all.lookup name = some (.reading 1 parameters body))
    (reads : Reads parameters (first :: rest) values)
    (invoke : Invoke)
    (session : Session) :
    (call invoke name (first :: rest)).run.run session = (body invoke values).run.run session := by
  obtain ⟨left, isRead⟩ := reads
  rw [call, found]
  change (Native.call _ invoke (first :: rest)).run.run session = _
  rw [Native.call, if_neg (by simp [Native.reading])]
  change (converted (parameters.run (first :: rest)) >>= _).run.run session = _
  rw [isRead]
  rfl

theorem taskDelay_eq (milliseconds : Binary64) :
    taskDelay milliseconds = timeOf milliseconds >>= beginDelay := by
  unfold taskDelay timeOf
  cases Delay.nanoseconds milliseconds with
  | error problem => cases problem <;> rfl
  | ok time => rfl

/-- A connection that is asked for with a size of buffers starts once the number is converted. -/
theorem run_startConnection_eq
    {config : Value}
    {request : ConnectionRequest}
    (isRead : ConnectionRequest.read config = .ok request)
    (isAsked : request.bufferSize? = some number)
    (isServer : Bool)
    (session : Session) :
    (startConnection isServer config).run.run session =
      (convert .bufferSize number >>= startWithin isServer request).run.run session := by
  rw [run_startConnection isRead, isAsked]
  refine run_countOf_bind_congr "bufferSize" (some number) _ fun count => ?_
  cases isStarted : started session.host.network isServer
      (request.configuration session.host.settings.network count) with
  | error error => rw [startWithin, run_theHost_bind, run_theHost_bind, isStarted]
  | ok begun => rw [startWithin, run_theHost_bind, run_theHost_bind, isStarted]

/-- A call that is given a number converts it first. -/
theorem Gives.run_eq
    {step : SessionM Value}
    {next : Nat → SessionM Value}
    (gives : Gives invoke number purpose step next)
    (session : Session) :
    step.run.run session = (convert purpose number >>= next).run.run session := by
  cases gives with
  | delay reads =>
      rw [run_call_of_reads rfl reads, taskDelay_eq]
      rfl
  | @run first rest producer reads =>
      rw [run_call_of_reads rfl reads]
      change (taskRun invoke producer (some number)).run.run session = _
      rw [taskRun, run_theHost_bind]
      rfl
  | @batch first rest handle reads =>
      rw [run_call_of_reads rfl reads]
      change (runBatchProcess invoke handle (some number)).run.run session = _
      rw [runBatchProcess, run_theHost_bind]
      rfl
  | @start isServer first config rest request reads isRead isAsked =>
      rw [← run_startConnection_eq isRead isAsked isServer session]
      cases isServer with
      | false =>
          change (call invoke "tcpClientStart" _).run.run session = _
          rw [run_call_of_reads rfl reads]
      | true =>
          change (call invoke "tcpServerStart" _).run.run session = _
          rw [run_call_of_reads rfl reads]

/-! ## Conversions -/

/-- A number of milliseconds is refused if it is not finite or is negative, and crashes the host
from the limit on. -/
theorem run_timeOf
    (number : Binary64)
    (session : Session) :
    (timeOf number).run.run session =
      match number.value? with
      | none => (raise (Purpose.refusal .delay number)).run.run session
      | some value =>
          if value < 0 then (raise (Purpose.refusal .delay number)).run.run session
          else if Delay.millisecondsLimit ≤ value then (.error .crashed, session)
          else (.ok (Purpose.amount number .delay value), session) := by
  rw [timeOf, Delay.nanoseconds_eq]
  cases number.value? with
  | none => rfl
  | some value =>
      dsimp only
      by_cases isNegative : value < 0
      · rw [if_pos isNegative, if_pos isNegative]
        rfl
      rw [if_neg isNegative, if_neg isNegative]
      by_cases isLong : (Delay.millisecondsLimit : ℚ) ≤ value
      · rw [if_pos isLong, if_pos isLong]
        rfl
      · rw [if_neg isLong, if_neg isLong]
        rfl

theorem badCount_iff :
    BadCount number ↔ ∀ value ∈ number.value?, ¬∃ count : Nat, value = count := by
  constructor
  · rintro isBad value isValue ⟨count, rfl⟩
    have isWhole : number.toInt? = some (count : Int) := by
      rw [Binary64.toInt?_eq_some_iff, Option.mem_def.mp isValue, Int.cast_natCast]
    exact absurd (isBad _ isWhole) (by omega)
  · intro none integer isWhole
    rw [Binary64.toInt?_eq_some_iff] at isWhole
    by_contra notNegative
    obtain ⟨count, rfl⟩ := Int.eq_ofNat_of_zero_le (not_lt.mp notNegative)
    exact none _ isWhole ⟨count, by simp⟩

/-- A number that is a count is taken for it, or for the greatest count if it is beyond. -/
theorem countOf_of_value
    {count : Nat}
    (isValue : number.value? = some (count : ℚ))
    (name : String)
    (default : UInt64) :
    countOf name (some number) default = pure (min ⌊(count : ℚ)⌋₊ (UInt64.size - 1)) := by
  have isWhole : number.toInt? = some (count : Int) := by
    rw [Binary64.toInt?_eq_some_iff, isValue, Int.cast_natCast]
  rw [countOf, isWhole, Nat.floor_natCast]
  exact if_neg (by omega)

theorem canBuffer_new_iff (config : TransportConfig) :
    (Transport.new config).canBuffer ↔ config.bufferSize ≤ Transport.largestBuffer := by
  rw [Transport.canBuffer, Transport.new, decide_eq_true_iff, max_le_iff]
  exact and_iff_left (by decide)

theorem Purpose.fits_bufferSize_iff (size : Nat) :
    Purpose.bufferSize.Fits size ↔ size ≤ Transport.largestBuffer := by
  constructor
  · intro fits
    exact (canBuffer_new_iff ⟨"", size, false, 0⟩).mp (fits _ rfl)
  · rintro isSmall config rfl
    exact (canBuffer_new_iff config).mpr isSmall

/-! ## Judgement -/

/-- A number that makes no sense is refused, whatever it is for. -/
theorem run_convert_of_refused
    (isRefused : ∀ value ∈ number.value?, ¬purpose.Accepts value)
    (session : Session) :
    (convert purpose number).run.run session =
      (raise (purpose.refusal number)).run.run session := by
  cases purpose with
  | delay =>
      refine (run_timeOf number session).trans ?_
      cases isValue : number.value? with
      | none => rfl
      | some value => exact if_pos (not_le.mp (isRefused value isValue))
  | limit =>
      rw [convert, countOf_of_bad (badCount_iff.mpr isRefused)]
      rfl
  | bufferSize =>
      rw [convert, countOf_of_bad (badCount_iff.mpr isRefused)]
      rfl

/-- A number that makes sense and is in range is converted to an amount that fits. -/
theorem run_convert_of_lt
    {value : ℚ}
    (isValue : number.value? = some value)
    (accepted : purpose.Accepts value)
    (inRange : ∀ bound ∈ purpose.bound?, value < bound)
    (session : Session) :
    (convert purpose number).run.run session = (.ok (purpose.amount number value), session) ∧
      purpose.Fits (purpose.amount number value) := by
  cases purpose with
  | delay =>
      have inRange : value < Delay.millisecondsLimit := inRange _ rfl
      have isRun := run_timeOf number session
      rw [isValue] at isRun
      dsimp only at isRun
      rw [if_neg accepted.not_gt, if_neg inRange.not_ge] at isRun
      have seconds := Delay.areSeconds isValue accepted
      have isNear := (abs_le.mp (Binary64.abs_nearest_sub_le
        (mul_nonneg (by norm_num : (0 : ℚ) ≤ 1000000000) seconds.notNegative))).2
      have isBelow := seconds.stays inRange
      refine ⟨isRun, ?_⟩
      rw [Purpose.Fits, ← Nat.cast_lt (α := ℚ), Purpose.amount, Delay.millisecondsLimit]
      push_cast
      linarith
  | limit =>
      obtain ⟨count, rfl⟩ := accepted
      rw [convert, countOf_of_value isValue]
      refine ⟨rfl, (min_le_right _ _).trans_lt ?_⟩
      decide
  | bufferSize =>
      obtain ⟨count, rfl⟩ := accepted
      have inRange : (count : ℚ) < 2 ^ 63 := inRange _ rfl
      have inRange : count < 2 ^ 63 := by exact_mod_cast inRange
      rw [convert, countOf_of_value isValue]
      refine ⟨rfl, (Purpose.fits_bufferSize_iff _).mpr ((min_le_left _ _).trans ?_)⟩
      rw [Nat.floor_natCast, Transport.largestBuffer]
      exact Nat.le_pred_of_lt inRange

/-- A number that makes sense and is out of range is not converted to an amount that fits. -/
theorem not_fits_of_le
    (purpose : Purpose)
    {value bound : ℚ}
    (isValue : number.value? = some value)
    (isBound : purpose.bound? = some bound)
    (isBeyond : bound ≤ value) :
    purpose.Accepts value ∧
      ¬((convert purpose number).run.run session = (.ok (purpose.amount number value), session) ∧
        purpose.Fits (purpose.amount number value)) := by
  cases purpose with
  | delay =>
      cases isBound
      have accepted : 0 ≤ value := le_trans (Nat.cast_nonneg _) isBeyond
      refine ⟨accepted, fun converted => ?_⟩
      have isRun := run_timeOf number session
      rw [isValue] at isRun
      dsimp only at isRun
      rw [if_neg accepted.not_gt, if_pos isBeyond] at isRun
      cases isRun.symm.trans converted.1
  | limit => cases isBound
  | bufferSize =>
      cases isBound
      obtain ⟨count, rfl⟩ := Binary64.exists_nat_of_le isValue
        (le_trans (by norm_num [Binary64.leadingBit]) isBeyond)
      have isBeyond : 2 ^ 63 ≤ count := by exact_mod_cast isBeyond
      refine ⟨⟨count, rfl⟩, fun converted => ?_⟩
      have fits := (Purpose.fits_bufferSize_iff _).mp converted.2
      rw [Purpose.amount, Nat.floor_natCast, Transport.largestBuffer] at fits
      exact absurd fits (by simp only [UInt64.size]; omega)

/-- A number that a script gives goes well if it is in the range of what it is for, and only
then. -/
theorem goesWell_iff
    (session : Session)
    (purpose : Purpose)
    (number : Binary64) :
    GoesWell session purpose number ↔
      ∀ bound ∈ purpose.bound?, ∀ value ∈ number.value?, value < bound := by
  constructor
  · intro goesWell bound isBound value isValue
    by_contra notLess
    obtain ⟨accepted, notFits⟩ := not_fits_of_le purpose isValue isBound (not_lt.mp notLess)
    exact notFits (goesWell.goesOn value isValue accepted)
  · intro inRange
    refine ⟨fun gives => gives.run_eq session, fun isRefused =>
      run_convert_of_refused isRefused session, fun value isValue accepted => ?_⟩
    exact run_convert_of_lt isValue accepted
      (fun bound isBound => inRange bound isBound value isValue) session

/-- A session that nothing has happened in. -/
def idle : Session :=
  .start (.start .default [] (.ofWorkspace "work")) .empty

/-- With `2 ^ 80` milliseconds a delay crashes the host, and with `2 ^ 63` bytes no link of a
connection has a buffer. -/
theorem not_goesWell_greatNumbers :
    ¬GoesWell idle .delay (.ofPowerOfTwo 80) ∧
      ((call silent "taskDelay" [.float (.ofPowerOfTwo 80)]).run.run idle).1 = .error .crashed ∧
      ¬GoesWell idle .bufferSize (.ofPowerOfTwo 63) := by
  have isLong : (Binary64.ofPowerOfTwo 80).value? = some ((2 ^ 80 : Int) : ℚ) :=
    Binary64.toInt?_eq_some_iff.mp (by decide +kernel)
  have isWide : (Binary64.ofPowerOfTwo 63).value? = some ((2 ^ 63 : Int) : ℚ) :=
    Binary64.toInt?_eq_some_iff.mp (by decide +kernel)
  refine ⟨fun goesWell => ?_, ?_, fun goesWell => ?_⟩
  · obtain ⟨accepted, notFits⟩ := not_fits_of_le .delay isLong rfl
      (by norm_num [Delay.millisecondsLimit, Delay.secondsLimit])
    exact notFits (goesWell.goesOn _ isLong accepted)
  · have crashes := run_timeOf (.ofPowerOfTwo 80) idle
    rw [isLong] at crashes
    dsimp only at crashes
    rw [if_neg (by norm_num), if_pos (by norm_num [Delay.millisecondsLimit, Delay.secondsLimit])]
      at crashes
    rw [run_call_of_reads rfl ⟨[], rfl⟩, taskDelay_eq, run_bind, crashes]
  · obtain ⟨accepted, notFits⟩ := not_fits_of_le .bufferSize isWide rfl (by norm_num)
    exact notFits (goesWell.goesOn _ isWide accepted)

end Natives
end ScriptHost
