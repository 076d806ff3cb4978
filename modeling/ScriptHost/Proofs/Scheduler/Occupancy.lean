import ScriptHost.Proofs.Scheduler.Ledger
import Mathlib.Order.Bounds.Basic

/-!
# Occupancy of the slots

The operations that are outstanding are counted from what has happened: those that were
taken in and not handed out. The slots of a run hold exactly so many, never more than its
limit, and the table has grown to the largest number that was ever outstanding and no
further, because a free entry is used before a new one is made.
-/

namespace ScriptHost
namespace Scheduler

variable {α κ ε : Type}

/-- The number of operations that were taken in and not handed out. -/
def outstanding (events : List (Event α κ ε)) : Nat :=
  (admissions events).length - (completions events).length

/-- The largest number of operations that were outstanding at any time so far. -/
def IsPeak
    (events : List (Event α κ ε))
    (peak : Nat) : Prop :=
  IsGreatest {count | ∃ past, past <+: events ∧ count = outstanding past} peak

theorem isPeak_nil : IsPeak ([] : List (Event α κ ε)) 0 := by
  refine ⟨⟨[], List.prefix_refl _, rfl⟩, ?_⟩
  rintro count ⟨past, isPrefix, rfl⟩
  rw [List.prefix_nil.mp isPrefix]
  exact Nat.le_refl _

/-- One more event may raise the peak. -/
theorem IsPeak.concat
    {events : List (Event α κ ε)}
    {peak : Nat}
    (isPeak : IsPeak events peak)
    (event : Event α κ ε) :
    IsPeak (events ++ [event]) (max peak (outstanding (events ++ [event]))) := by
  obtain ⟨⟨highest, isPrefix, rfl⟩, isBound⟩ := isPeak
  constructor
  · rcases Nat.le_total (outstanding highest) (outstanding (events ++ [event])) with rises | stays
    · exact ⟨events ++ [event], List.prefix_refl _, Nat.max_eq_right rises⟩
    · exact ⟨highest, isPrefix.trans (List.prefix_append _ _), Nat.max_eq_left stays⟩
  · rintro count ⟨past, isPast, rfl⟩
    rcases List.prefix_concat_iff.mp isPast with rfl | earlier
    · exact Nat.le_max_right ..
    · exact (isBound ⟨past, earlier, rfl⟩).trans (Nat.le_max_left ..)

/-- How full the slots are after some events, in a run that may hold `limit` operations at
a time. -/
structure Occupancy
    (limit : Nat)
    (events : List (Event α κ ε))
    (slots : Slots κ) : Prop where
  limit_eq : slots.limit = limit
  occupied_eq : slots.occupied = outstanding events
  occupied_le : slots.occupied ≤ limit
  size_eq : slots.entries.size = slots.free.length + slots.occupied
  isPeak : IsPeak events slots.entries.size

namespace Occupancy

variable {start : Board} {limit : Nat} {events : List (Event α κ ε)} {slots : Slots κ}
variable {desk : Desk κ}

theorem begins
    (limit : Nat)
    (mailbox : MailboxId) :
    Occupancy limit ([] : List (Event α κ ε)) (.new limit mailbox : Slots κ) where
  limit_eq := rfl
  occupied_eq := rfl
  occupied_le := Nat.zero_le _
  size_eq := rfl
  isPeak := isPeak_nil

/-- The number of entries stays the largest number of operations that were outstanding. -/
private theorem isPeak_concat
    {later : Slots κ}
    (occupancy : Occupancy limit events slots)
    (event : Event α κ ε)
    (sameSize : later.entries.size = max slots.entries.size (outstanding (events ++ [event]))) :
    IsPeak (events ++ [event]) later.entries.size := by
  rw [sameSize]
  exact occupancy.isPeak.concat event

theorem happens
    {event : Event α κ ε}
    (occupancy : Occupancy limit events slots)
    (noAdmission : event.admission? = none)
    (noCompletion : event.completion? = none) :
    Occupancy limit (events ++ [event]) slots := by
  have unchanged : outstanding (events ++ [event]) = outstanding events := by
    rw [outstanding, admissions_concat_of_none events noAdmission,
      completions_concat_of_none events noCompletion, outstanding]
  refine { occupancy with occupied_eq := occupancy.occupied_eq.trans unchanged.symm, isPeak := ?_ }
  apply occupancy.isPeak_concat
  rw [unchanged, ← occupancy.occupied_eq, occupancy.size_eq]
  omega

/-- A new entry is made only if there is no free one. -/
theorem size_occupy
    (occupancy : Occupancy limit events slots)
    (board : Board)
    (admission : Admission κ) :
    (slots.occupy board admission).1.entries.size =
      max slots.entries.size (slots.occupied + 1) :=
  Slots.size_occupy_eq_max occupancy.size_eq board admission

theorem takesIn
    {admission : Admission κ}
    (occupancy : Occupancy limit events desk.slots)
    (ledger : Ledger start events desk)
    (room : desk.slots.isFull = false) :
    Occupancy limit (events ++ [.admitted admission]) (desk.takeIn admission).slots := by
  have notFull : desk.slots.occupied < desk.slots.limit := by
    simpa [Slots.isFull] using room
  have oneMore : outstanding (events ++ [Event.admitted admission]) =
      desk.slots.occupied + 1 := by
    have counted := ledger.occupied
    rw [outstanding, admissions_concat, completions_concat]
    simp [Event.admission?, Event.completion?]
    omega
  have grows := occupancy.size_occupy desk.board admission
  have sizeBefore := occupancy.size_eq
  rw [Desk.slots_takeIn]
  exact {
    limit_eq := occupancy.limit_eq
    occupied_eq := by rw [Slots.occupied_occupy, oneMore]
    occupied_le := by
      rw [Slots.occupied_occupy, ← occupancy.limit_eq]
      exact notFull
    size_eq := by
      rw [grows, Slots.free_occupy, Slots.occupied_occupy, List.length_tail]
      omega
    isPeak := by
      apply occupancy.isPeak_concat
      rw [grows, oneMore] }

theorem handsOut
    {completion : Completion κ}
    {next : Slots κ}
    {signals : List Nat}
    (occupancy : Occupancy limit events desk.slots)
    (ledger : Ledger start events desk)
    (ledgerAfter : Ledger start (events ++ [.dispatched completion]) (desk.handOut next signals))
    (announced : desk.slots.complete? desk.board desk.signals =
      some (completion, next, signals)) :
    Occupancy limit (events ++ [.dispatched completion]) next := by
  obtain ⟨index, _, _, -, -, -, rfl⟩ := Slots.exists_vacate_of_complete? announced
  have counted := ledger.occupied
  have countedAfter := ledgerAfter.occupied
  rw [admissions_concat, completions_concat] at countedAfter
  simp only [Desk.handOut, Event.admission?, Event.completion?, Option.toList_none,
    Option.toList_some, List.append_nil, List.length_append, List.length_singleton] at countedAfter
  have oneLess : outstanding (events ++ [Event.dispatched completion]) =
      (desk.slots.vacate index).occupied := by
    rw [outstanding, admissions_concat, completions_concat]
    simp [Event.admission?, Event.completion?]
    omega
  have sizeBefore := occupancy.size_eq
  have bounded := occupancy.occupied_le
  exact {
    limit_eq := occupancy.limit_eq
    occupied_eq := oneLess.symm
    occupied_le := by omega
    size_eq := by
      rw [Slots.size_vacate,
        show (desk.slots.vacate index).free = index :: desk.slots.free from rfl,
        List.length_cons]
      omega
    isPeak := by
      apply occupancy.isPeak_concat
      rw [Slots.size_vacate, oneLess]
      omega }

/-- The slots hold what is outstanding at every moment of a run. -/
theorem ofMoment
    (unused : ∀ id, start.unfired start.mailboxes.size id = [])
    (moment : Moment start limit events desk) :
    Occupancy limit events desk.slots := by
  induction moment with
  | begins => exact .begins limit _
  | @happens events desk event _ isQuiet inductionHypothesis =>
      obtain ⟨tickets, seen⟩ := desk.exists_see event
      rw [seen]
      exact inductionHypothesis.happens isQuiet.2.1 isQuiet.2.2
  | takesIn moment room _ inductionHypothesis =>
      exact inductionHypothesis.takesIn (.ofMoment unused moment) room
  | handsOut moment announced inductionHypothesis =>
      exact inductionHypothesis.handsOut (.ofMoment unused moment)
        (.ofMoment unused (moment.handsOut announced)) announced

end Occupancy

/-- An operation that was just taken in is in a slot, under the next sequence. -/
theorem Moment.exists_slotAt?_of_admitted
    {start : Board}
    {limit : Nat}
    {events : List (Event α κ ε)}
    {desk : Desk κ}
    {admission : Admission κ}
    (unused : ∀ id, start.unfired start.mailboxes.size id = [])
    (moment : Moment start limit (events ++ [.admitted admission]) desk) :
    ∃ index, desk.slots.slotAt? index =
      some ⟨admission.operation, admission.type, admission.callback,
        (admissions events).length⟩ := by
  generalize split : events ++ [Event.admitted admission] = all at moment
  cases moment with
  | begins => simp at split
  | happens moment isQuiet =>
      obtain ⟨-, same⟩ := List.append_inj' split rfl
      cases same
      cases isQuiet.2.1
  | @takesIn earlier before taken moment room isHeld =>
      obtain ⟨rfl, same⟩ := List.append_inj' split rfl
      cases same
      have ledger := Ledger.ofMoment unused moment
      refine ⟨before.slots.nextIndex, ?_⟩
      rw [ledger.inOrder.slotAt?_takeIn, if_pos rfl, Slots.nextSlot, ledger.nextSequence]
  | handsOut moment announced =>
      obtain ⟨-, same⟩ := List.append_inj' split rfl
      cases same

end Scheduler
end ScriptHost
