import ScriptHost.Operation
import Mathlib.Data.List.TakeWhile
import Mathlib.Logic.Function.Basic

/-!
# An operation that is shared

A worker holds the completer of an operation and any number of observers share it. What
anybody does under the lock of the operation is one step. Listeners fire outside of the
lock, one at a time, in the call that has to let them fire: the call that settles the
operation, or the call that registers a listener too late. Until such a call has returned,
everybody else goes on, and so does a listener that fires in it. The steps say no more of
threads than this, so that every interleaving of threads is a sequence of steps.
-/

namespace ScriptHost
namespace Operation

variable {ℓ : Type}

/-- The worker's side of an operation. Whoever uses a completer drops it afterwards. -/
inductive Completer
  | unused
  | usedUp
  | gone

/-- A call that lets listeners fire: the one that settles the operation, or the registration
of a listener, by its number. -/
inductive Call
  | completion
  | registration (number : Nat)
  deriving DecidableEq

/-- What an observer is told. It is told an outcome at once, or after it has waited for one,
or after it has given up waiting. -/
inductive Reading
  | status (status : OperationStatus)
  | isComplete (flag : Bool)
  | outcome (outcome? : Option Outcome)
  | wait (outcome : Outcome)
  | waitTimeout (outcome? : Option Outcome)

namespace Reading

/-- An observer is told how the operation stands. Waiting ends when there is an outcome. -/
def Fits (operation : Operation ℓ) : Reading → Prop
  | .status told => told = operation.status
  | .isComplete told => told = operation.isComplete
  | .outcome told => told = operation.outcome?
  | .wait told => some told = operation.outcome?
  | .waitTimeout told => told = operation.outcome?

/-- The outcome that an observer was told. -/
def seen? : Reading → Option Outcome
  | .outcome told => told
  | .wait told => some told
  | .waitTimeout told => told
  | _ => none

theorem Fits.outcome?_eq
    {operation : Operation ℓ}
    {reading : Reading}
    {outcome : Outcome}
    (fits : reading.Fits operation)
    (isSeen : reading.seen? = some outcome) :
    operation.outcome? = some outcome := by
  cases reading with
  | status | isComplete => cases isSeen
  | outcome | wait | waitTimeout => exact fits.symm.trans isSeen

end Reading

/-- Something that happens to a shared operation. The completer is used or dropped, a
listener is registered, a listener fires in a call, a call returns, an observer is told how
the operation stands, is cloned, or leaves. A worker that panics or never starts drops its
completer. -/
inductive Event (ℓ : Type)
  | used (outcome : Outcome)
  | dropped
  | registered (observer : Nat) (listener : ℓ)
  | fired (call : Call) (listener : ℓ)
  | returned (call : Call)
  | read (observer : Nat) (reading : Reading)
  | cloned (observer copy : Nat)
  | left (observer : Nat)

/-- A shared operation. Listeners are counted as they are registered, and `due` holds what
the calls under way still have to let fire. -/
structure Shared (ℓ : Type) where
  operation : Operation ℓ
  completer : Completer
  observers : List Nat
  registered : Nat
  due : Call → Option (List ℓ)

namespace Shared

/-- An operation with one observer, to whose completer nothing has happened. -/
def fresh : Shared ℓ :=
  ⟨.fresh, .unused, [0], 0, fun _ => none⟩

/-- Say what is due in a call under way, or that it is not under way. -/
def setDue
    (shared : Shared ℓ)
    (call : Call)
    (list? : Option (List ℓ)) : Shared ℓ :=
  { shared with due := Function.update shared.due call list? }

@[simp] theorem due_setDue_self
    (shared : Shared ℓ)
    (call : Call)
    (list? : Option (List ℓ)) :
    (shared.setDue call list?).due call = list? :=
  Function.update_self ..

theorem due_setDue_of_ne
    {call other : Call}
    (different : other ≠ call)
    (shared : Shared ℓ)
    (list? : Option (List ℓ)) :
    (shared.setDue call list?).due other = shared.due other :=
  Function.update_of_ne different ..

@[simp] theorem setDue_setDue
    (shared : Shared ℓ)
    (call : Call)
    (first second : Option (List ℓ)) :
    (shared.setDue call first).setDue call second = shared.setDue call second := by
  rw [setDue, setDue, Function.update_idem]
  rfl

/-- Settle the operation, and leave the completer as it is then. The listeners that waited
are due in the call that does so. -/
def finish
    (shared : Shared ℓ)
    (outcome : Outcome)
    (completer : Completer) : Shared ℓ :=
  let (operation, listeners) := shared.operation.settle outcome
  { shared with operation := operation, completer := completer }.setDue .completion
    (some listeners)

/-- Register a listener. It is due in the call that does so if it comes too late. -/
def register
    (shared : Shared ℓ)
    (listener : ℓ) : Shared ℓ :=
  let (operation, fires) := shared.operation.listen listener
  { shared with operation := operation, registered := shared.registered + 1 }.setDue
    (.registration shared.registered) (some (if fires then [listener] else []))

end Shared

/-- One step of whoever holds the completer, of an observer, or of a call under way. -/
inductive Step : Shared ℓ → Event ℓ → Shared ℓ → Prop
  | uses
      {shared : Shared ℓ}
      (outcome : Outcome)
      (isUnused : shared.completer = .unused) :
      Step shared (.used outcome) (shared.finish outcome .usedUp)
  | abandons
      {shared : Shared ℓ}
      (isUnused : shared.completer = .unused) :
      Step shared .dropped (shared.finish (.error .abandoned) .gone)
  | drops
      {shared : Shared ℓ}
      (isUsedUp : shared.completer = .usedUp) :
      Step shared .dropped { shared with completer := .gone }
  | registers
      {shared : Shared ℓ}
      (observer : Nat)
      (listener : ℓ)
      (isThere : observer ∈ shared.observers) :
      Step shared (.registered observer listener) (shared.register listener)
  | fires
      {shared : Shared ℓ}
      {listener : ℓ}
      {rest : List ℓ}
      (call : Call)
      (isDue : shared.due call = some (listener :: rest)) :
      Step shared (.fired call listener) (shared.setDue call (some rest))
  | returns
      {shared : Shared ℓ}
      (call : Call)
      (isDone : shared.due call = some []) :
      Step shared (.returned call) (shared.setDue call none)
  | reads
      {shared : Shared ℓ}
      (observer : Nat)
      (reading : Reading)
      (isThere : observer ∈ shared.observers)
      (fits : reading.Fits shared.operation) :
      Step shared (.read observer reading) shared
  | clones
      {shared : Shared ℓ}
      (observer copy : Nat)
      (isThere : observer ∈ shared.observers)
      (isNew : copy ∉ shared.observers) :
      Step shared (.cloned observer copy) { shared with observers := shared.observers ++ [copy] }
  | leaves
      {shared : Shared ℓ}
      (observer : Nat)
      (isThere : observer ∈ shared.observers) :
      Step shared (.left observer) { shared with observers := shared.observers.erase observer }

/-- How an operation may stand after some events, from the time it was made. -/
inductive After : List (Event ℓ) → Shared ℓ → Prop
  | begins : After [] .fresh
  | goesOn
      {events : List (Event ℓ)}
      {shared next : Shared ℓ}
      {event : Event ℓ}
      (after : After events shared)
      (step : Step shared event next) :
      After (events ++ [event]) next

/-- Every beginning of a run is a run, and the next event is one step. -/
theorem After.exists_step
    {past rest : List (Event ℓ)}
    {event : Event ℓ}
    {shared : Shared ℓ}
    (after : After (past ++ event :: rest) shared) :
    ∃ earlier next, After past earlier ∧ Step earlier event next := by
  generalize split : past ++ event :: rest = events at after
  induction after generalizing rest with
  | begins => simp at split
  | goesOn after step inductionHypothesis =>
      rcases List.eq_nil_or_concat rest with rfl | ⟨rest, last, rfl⟩
      · obtain ⟨rfl, same⟩ := List.append_inj' split rfl
        cases same
        exact ⟨_, _, after, step⟩
      · rw [List.concat_eq_append, ← List.cons_append, ← List.append_assoc] at split
        obtain ⟨sameEvents, -⟩ := List.append_inj' split rfl
        exact inductionHypothesis sameEvents

/-! ## Reading a history -/

namespace Event

/-- The outcome with which a completer is used or dropped. -/
def ending? : Event ℓ → Option Outcome
  | used outcome => some outcome
  | dropped => some (.error .abandoned)
  | _ => none

/-- The listener that is registered. -/
def listener? : Event ℓ → Option ℓ
  | registered _ listener => some listener
  | _ => none

/-- The listener that fires in a call. -/
def firedIn? (call : Call) : Event ℓ → Option ℓ
  | fired other listener => if other = call then some listener else none
  | _ => none

/-- A call under way goes on. -/
def isOfCall : Event ℓ → Bool
  | fired .. => true
  | returned _ => true
  | _ => false

end Event

/-- The outcome that was recorded first. -/
def outcomeOf (events : List (Event ℓ)) : Option Outcome :=
  events.findSome? Event.ending?

/-- The listeners that were registered, in order. -/
def registrations (events : List (Event ℓ)) : List ℓ :=
  events.filterMap Event.listener?

/-- How an operation stands after some events: it keeps its listeners until an outcome is
recorded, and that outcome for good. -/
def operationAfter (events : List (Event ℓ)) : Operation ℓ :=
  (outcomeOf events).elim (.pending (registrations events)) .settled

/-- The listeners that were registered while the operation was pending, in order. -/
def early (events : List (Event ℓ)) : List ℓ :=
  registrations (events.takeWhile fun event => event.ending?.isNone)

/-- The listeners that fired in a call, in order. -/
def firings
    (call : Call)
    (events : List (Event ℓ)) : List ℓ :=
  events.filterMap (Event.firedIn? call)

/-- A call was made: the operation is settled, or the listener of that number registered. -/
def HasBegun (events : List (Event ℓ)) : Call → Prop
  | .completion => outcomeOf events ≠ none
  | .registration number => number < (registrations events).length

/-- The listeners that have to fire in a call. When the operation settles, those that were
registered before have to fire, in order; a listener that is registered later has to fire
in its own registration. -/
def owed (events : List (Event ℓ)) : Call → List ℓ
  | .completion => if (outcomeOf events).isSome then early events else []
  | .registration number =>
      if (early events).length ≤ number then (registrations events)[number]?.toList else []

section Histories

variable {events : List (Event ℓ)} {event : Event ℓ}

theorem outcomeOf_append (first second : List (Event ℓ)) :
    outcomeOf (first ++ second) = (outcomeOf first).or (outcomeOf second) :=
  List.findSome?_append

theorem outcomeOf_concat
    (events : List (Event ℓ))
    (event : Event ℓ) :
    outcomeOf (events ++ [event]) = (outcomeOf events).or event.ending? := by
  rw [outcomeOf_append]
  cases found : event.ending? <;> simp [outcomeOf, found]

theorem registrations_concat
    (events : List (Event ℓ))
    (event : Event ℓ) :
    registrations (events ++ [event]) = registrations events ++ event.listener?.toList := by
  rw [registrations, List.filterMap_append]
  cases event <;> rfl

theorem registrations_concat_of_none
    (noListener : event.listener? = none) :
    registrations (events ++ [event]) = registrations events := by
  rw [registrations_concat, noListener, Option.toList_none, List.append_nil]

theorem firings_concat
    (call : Call)
    (events : List (Event ℓ))
    (event : Event ℓ) :
    firings call (events ++ [event]) = firings call events ++ (event.firedIn? call).toList := by
  rw [firings, List.filterMap_append]
  cases found : event.firedIn? call <;> simp [firings, found]

/-- Nothing is recorded as long as the completer is neither used nor dropped. -/
theorem outcomeOf_eq_none_iff :
    outcomeOf events = none ↔ ∀ event ∈ events, event.ending? = none :=
  List.findSome?_eq_none_iff

/-- The first outcome is recorded. -/
theorem outcomeOf_concat_of_ending
    {outcome : Outcome}
    (isPending : outcomeOf events = none)
    (isEnding : event.ending? = some outcome) :
    outcomeOf (events ++ [event]) = some outcome := by
  rw [outcomeOf_concat, isPending, isEnding]
  rfl

/-- Nothing else is ever recorded. -/
theorem outcomeOf_concat_of_none
    (noEnding : event.ending? = none ∨ (outcomeOf events).isSome = true) :
    outcomeOf (events ++ [event]) = outcomeOf events := by
  rw [outcomeOf_concat]
  rcases noEnding with isQuiet | isSettled
  · rw [isQuiet, Option.or_none]
  · exact Option.or_of_isSome isSettled

/-- What uses or drops a completer registers no listener. -/
theorem listener?_eq_none_of_ending
    {outcome : Outcome}
    (isEnding : event.ending? = some outcome) :
    event.listener? = none := by
  cases event with
  | registered => cases isEnding
  | _ => rfl

/-- Every listener is early while nothing is recorded. -/
theorem early_of_outcomeOf_eq_none (isPending : outcomeOf events = none) :
    early events = registrations events := by
  rw [early, List.takeWhile_eq_self_iff.mpr]
  intro event member
  rw [outcomeOf_eq_none_iff.mp isPending event member]
  rfl

/-- No listener is early once an outcome is recorded. -/
theorem early_append_of_isSome
    (isSettled : (outcomeOf events).isSome = true)
    (more : List (Event ℓ)) :
    early (events ++ more) = early events := by
  rw [early, List.takeWhile_append, if_neg, early]
  intro sameLength
  have isWhole := (List.takeWhile_prefix (fun event : Event ℓ => event.ending?.isNone)).eq_of_length
    sameLength
  have isPending : outcomeOf events = none := by
    rw [outcomeOf_eq_none_iff]
    intro event member
    exact Option.isNone_iff_eq_none.mp (List.takeWhile_eq_self_iff.mp isWhole event member)
  rw [isPending] at isSettled
  cases isSettled

theorem early_prefix_registrations (events : List (Event ℓ)) :
    early events <+: registrations events :=
  (List.takeWhile_prefix _).filterMap _

/-- No call has to let a listener fire while nothing is recorded. -/
theorem owed_of_outcomeOf_eq_none
    (isPending : outcomeOf events = none)
    (call : Call) :
    owed events call = [] := by
  cases call with
  | completion => rw [owed, isPending]; rfl
  | registration number =>
      rw [owed, early_of_outcomeOf_eq_none isPending]
      split
      · rename_i isOver
        rw [List.getElem?_eq_none isOver]
        rfl
      · rfl

/-- A registration that was not made has to let nothing fire. -/
theorem owed_registration_of_le
    {number : Nat}
    (isOver : (registrations events).length ≤ number) :
    owed events (.registration number) = [] := by
  rw [owed, List.getElem?_eq_none isOver, Option.toList_none, ite_self]

/-- What settles an operation has to let all listeners fire that were registered. -/
theorem owed_concat_of_ending
    {outcome : Outcome}
    (isPending : outcomeOf events = none)
    (isEnding : event.ending? = some outcome)
    (call : Call) :
    owed (events ++ [event]) call = if call = .completion then registrations events else [] := by
  have sameRegistrations : registrations (events ++ [event]) = registrations events :=
    registrations_concat_of_none (listener?_eq_none_of_ending isEnding)
  have isSettled : (outcomeOf (events ++ [event])).isSome = true := by
    rw [outcomeOf_concat_of_ending isPending isEnding]
    rfl
  have sameEarly : early (events ++ [event]) = registrations events := by
    rw [early, List.takeWhile_append_of_pos]
    · simp [isEnding, registrations]
    · intro other member
      rw [outcomeOf_eq_none_iff.mp isPending other member]
      rfl
  cases call with
  | completion => rw [owed, if_pos isSettled, sameEarly, if_pos rfl]
  | registration number =>
      rw [if_neg Call.noConfusion, owed, sameEarly, sameRegistrations]
      split
      · rename_i isOver
        rw [List.getElem?_eq_none isOver]
        rfl
      · rfl

/-- The registration of a listener that comes too late has to let that listener fire. -/
theorem owed_concat_of_registered
    {observer : Nat}
    (listener : ℓ)
    (isSettled : (outcomeOf events).isSome = true)
    (call : Call) :
    owed (events ++ [.registered observer listener]) call =
      if call = .registration (registrations events).length then [listener]
      else owed events call := by
  have sameEarly := early_append_of_isSome isSettled [.registered observer listener]
  have oneMore : registrations (events ++ [Event.registered observer listener]) =
      registrations events ++ [listener] := registrations_concat ..
  cases call with
  | completion =>
      rw [if_neg Call.noConfusion, owed, owed, sameEarly, outcomeOf_append,
        Option.or_of_isSome isSettled]
  | registration number =>
      have earlyFew := (early_prefix_registrations events).length_le
      rw [owed, owed, sameEarly, oneMore]
      by_cases isNew : number = (registrations events).length
      · rw [isNew, if_pos earlyFew, if_pos rfl, List.getElem?_concat_length]
        rfl
      · rw [if_neg (fun same => isNew (Call.registration.inj same))]
        rcases Nat.lt_or_ge number (registrations events).length with isOld | isOver
        · rw [List.getElem?_append_left isOld]
        · rw [List.getElem?_eq_none (by simp; omega), List.getElem?_eq_none isOver]

/-- Nothing else changes what has to fire. -/
theorem owed_concat_of_none
    (noListener : event.listener? = none)
    (noEnding : event.ending? = none ∨ (outcomeOf events).isSome = true)
    (call : Call) :
    owed (events ++ [event]) call = owed events call := by
  have sameOutcome := outcomeOf_concat_of_none noEnding
  have sameRegistrations : registrations (events ++ [event]) = registrations events :=
    registrations_concat_of_none noListener
  have sameEarly : early (events ++ [event]) = early events := by
    cases isRecorded : outcomeOf events with
    | some outcome => exact early_append_of_isSome (by rw [isRecorded]; rfl) _
    | none =>
        rw [early_of_outcomeOf_eq_none (sameOutcome.trans isRecorded), sameRegistrations,
          early_of_outcomeOf_eq_none isRecorded]
  cases call with
  | completion => rw [owed, owed, sameOutcome, sameEarly]
  | registration number => rw [owed, owed, sameEarly, sameRegistrations]

private theorem flatMap_getElem?_range (list : List ℓ) :
    (List.range list.length).flatMap (fun number => list[number]?.toList) = list := by
  induction list with
  | nil => rfl
  | cons first rest inductionHypothesis =>
      rw [List.length_cons, List.range_succ_eq_map, List.flatMap_cons, List.flatMap_map]
      exact congrArg (first :: ·) inductionHypothesis

/-- Altogether the calls have to let every listener fire once, the early ones first. -/
theorem flatMap_owed_eq_registrations (isSettled : (outcomeOf events).isSome = true) :
    owed events .completion ++ (List.range (registrations events).length).flatMap
      (fun number => owed events (.registration number)) = registrations events := by
  obtain ⟨late, split⟩ := early_prefix_registrations events
  have earlyNone : ∀ number ∈ List.range (early events).length,
      owed events (.registration number) = [] := by
    intro number inRange
    rw [owed, if_neg (Nat.not_le.mpr (List.mem_range.mp inRange))]
  have lateOnes : ∀ number, owed events (.registration ((early events).length + number)) =
      late[number]?.toList := by
    intro number
    rw [owed, if_pos (Nat.le_add_right ..), ← split,
      List.getElem?_append_right (Nat.le_add_right ..), Nat.add_sub_cancel_left]
  have sameLength : (registrations events).length = (early events).length + late.length := by
    rw [← split, List.length_append]
  rw [owed, if_pos isSettled, sameLength, List.range_add, List.flatMap_append,
    List.flatMap_eq_nil_iff.mpr earlyNone, List.nil_append, List.flatMap_map]
  simp only [lateOnes]
  rw [flatMap_getElem?_range, split]

end Histories

end Operation
end ScriptHost
