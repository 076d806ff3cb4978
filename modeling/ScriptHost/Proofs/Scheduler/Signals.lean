import ScriptHost.Proofs.Scheduler.Tickets
import Mathlib.Order.Bounds.Basic

/-!
# One signal for each entry

On every course that a slot table takes from its opening, each filled entry is owed one signal,
and an empty entry none. Every signal finds a settled operation, so that the table skips no
signal, never counts below zero, and never waits for the operation that it hands out.
-/

namespace ScriptHost
namespace Scheduler
namespace Desk

variable {κ : Type} {start desk next : Desk κ} {past : List (Desk κ)}

/-- The largest number of operations that the table has held at a time. -/
def IsPeak
    (past : List (Desk κ))
    (desk : Desk κ)
    (peak : Nat) : Prop :=
  IsGreatest {count | ∃ earlier ∈ past ++ [desk], earlier.slots.occupied = count} peak

/-- What holds of a slot table at work, which was in the past what `past` lists. -/
structure IsAccountedFor
    (past : List (Desk κ))
    (desk : Desk κ) : Prop where
  nodup_free : desk.slots.free.Nodup
  free_perm : (desk.slots.free ++ desk.slots.occupiedIndices).Perm
    (List.range desk.slots.entries.size)
  occupied_eq : desk.slots.occupied = desk.slots.occupiedIndices.length
  occupied_le : desk.slots.occupied ≤ desk.slots.limit
  isPeak : IsPeak past desk desk.slots.entries.size
  /-- Each ticket stands for one listener that has not fired. -/
  unfired_eq : ∀ id, desk.unfired id = (desk.ticketsOf id).map Ticket.index
  /-- A listener that has not fired announces the entry of the operation that registered it. -/
  isFor : ∀ ticket ∈ desk.tickets, ∃ slot, desk.slots.slotAt? ticket.index = some slot ∧
    slot.operation = ticket.operation ∧ slot.sequence = ticket.sequence
  count_eq : ∀ index,
    desk.signals.count index +
        desk.tickets.countP (fun ticket =>
          some ticket.sequence = desk.slots.sequenceAt? index) =
      if (desk.slots.slotAt? index).isSome then 1 else 0
  isSettled : ∀ index ∈ desk.signals, ∃ slot, desk.slots.slotAt? index = some slot ∧
    (desk.board.outcome? slot.operation).isSome
  /-- The oldest signal is not skipped, and what it hands out has been counted and is settled. -/
  handsOut : ∀ index rest, desk.signals = index :: rest →
    0 < desk.slots.occupied ∧
      ∃ slot outcome, desk.slots.slotAt? index = some slot ∧
        desk.board.outcome? slot.operation = some outcome ∧
        desk.slots.complete? desk.board desk.signals =
          some (⟨slot.sequence, slot.callback, deliveryOf slot.type outcome⟩,
            desk.slots.vacate index, rest)

/-! ## Counting signals -/

/-- A ticket announces an entry if and only if it has the sequence of the operation there. -/
theorem IsInOrder.index_eq_iff
    {ticket : Ticket}
    (inOrder : desk.IsInOrder)
    (member : ticket ∈ desk.tickets)
    (index : Nat) :
    ticket.index = index ↔ some ticket.sequence = desk.slots.sequenceAt? index := by
  obtain ⟨slot, filled, -, sameSequence⟩ := inOrder.isFor ticket member
  have found : desk.slots.sequenceAt? ticket.index = some ticket.sequence := by
    rw [Slots.sequenceAt?, filled, Option.map_some, sameSequence]
  constructor
  · rintro rfl
    exact found.symm
  · intro same
    exact inOrder.table.sequence_inj ticket.index index ticket.sequence found same.symm

theorem IsInOrder.count_eq
    (inOrder : desk.IsInOrder)
    (index : Nat) :
    desk.signals.count index +
        desk.tickets.countP (fun ticket =>
          some ticket.sequence = desk.slots.sequenceAt? index) =
      if (desk.slots.slotAt? index).isSome then 1 else 0 := by
  have sameTickets : desk.tickets.countP (fun ticket =>
      some ticket.sequence = desk.slots.sequenceAt? index) =
      (desk.tickets.map Ticket.index).count index := by
    rw [List.count, List.countP_map]
    refine List.countP_congr fun ticket member => ?_
    simp [inOrder.index_eq_iff member index]
  rw [sameTickets, ← List.count_append, ← owed, inOrder.nodup_owed.count]
  exact if_congr (inOrder.mem_owed_iff index) rfl rfl

/-! ## Courses -/

/-- Once in order, a table stays in order. -/
theorem Course.isInOrder
    (course : Course start past desk)
    (inOrder : start.IsInOrder) :
    desk.IsInOrder := by
  induction course with
  | begins => exact inOrder
  | goesOn course step inductionHypothesis => exact inductionHypothesis.step step

theorem IsPeak.goesOn
    {peak : Nat}
    (isPeak : IsPeak past desk peak) :
    IsPeak (past ++ [desk]) next (max peak next.slots.occupied) := by
  obtain ⟨⟨highest, member, rfl⟩, isBound⟩ := isPeak
  constructor
  · rcases Nat.le_total highest.slots.occupied next.slots.occupied with rises | stays
    · exact ⟨next, by simp, (Nat.max_eq_right rises).symm⟩
    · exact ⟨highest, List.mem_append_left [next] member, (Nat.max_eq_left stays).symm⟩
  · rintro count ⟨earlier, isEarlier, rfl⟩
    rcases List.mem_append.mp isEarlier with wasBefore | isLast
    · exact (isBound ⟨earlier, wasBefore, rfl⟩).trans (Nat.le_max_left ..)
    · rw [List.mem_singleton.mp isLast]
      exact Nat.le_max_right ..

/-- A table that opens without entries has as many of them as it ever held operations. -/
theorem Course.isPeak
    (course : Course start past desk)
    (inOrder : start.IsInOrder)
    (noEntries : start.slots.entries.size = start.slots.occupied) :
    IsPeak past desk desk.slots.entries.size := by
  induction course with
  | begins =>
      rw [noEntries]
      refine ⟨⟨start, List.mem_singleton_self start, rfl⟩, ?_⟩
      rintro count ⟨earlier, isEarlier, rfl⟩
      rw [List.mem_singleton.mp isEarlier]
  | goesOn course step inductionHypothesis =>
      rw [(course.isInOrder inOrder).size_eq_max step]
      exact inductionHypothesis.goesOn

/-- Whatever order operations settle in, and however their settlements and the table take turns,
each filled entry is owed exactly one signal, and each signal hands out a settled operation. -/
theorem Course.isAccountedFor
    {limit : Nat}
    {board : Board}
    (unused : ∀ id, (opening limit board : Desk κ).unfired id = [])
    (course : Course (opening limit board) past desk) :
    IsAccountedFor past desk := by
  have opens := isInOrder_opening unused
  have inOrder := course.isInOrder opens
  exact {
    nodup_free := inOrder.table.tidy.nodup_free
    free_perm := inOrder.table.tidy.free_perm
    occupied_eq := inOrder.table.occupied_eq
    occupied_le := inOrder.table.occupied_le
    isPeak := course.isPeak opens rfl
    unfired_eq := inOrder.unfired_eq
    isFor := inOrder.isFor
    count_eq := inOrder.count_eq
    isSettled := inOrder.isSettled
    handsOut := fun index rest queued => by
      obtain ⟨slot, outcome, filled, settled, complete⟩ := inOrder.exists_complete? queued
      exact ⟨inOrder.table.occupied_pos (Option.isSome_iff_exists.mpr ⟨slot, filled⟩),
        slot, outcome, filled, settled, complete⟩ }

/-- A table for two operations, which opens on a board with one operation. -/
def openingForTwo : Desk Unit :=
  opening 2 Board.empty.create.1

/-- The table after it has taken the operation in twice. -/
def takenInTwice : Desk Unit :=
  (openingForTwo.takeIn ⟨0, .int, ()⟩).takeIn ⟨0, .int, ()⟩

/-- The operation has settled, and the first of its two listeners has been called. -/
def halfCalled : Desk Unit :=
  (takenInTwice.move (.record 0 (.ok (.int 7)) : Move Unit)).move (.call 0 0 : Move Unit)

/-- The operation was handed out once and taken in again, into the same entry, while its second
listener has still to be called. -/
def takenInAgain : Desk Unit :=
  (halfCalled.handOut (halfCalled.slots.vacate 0) []).takeIn ⟨0, .int, ()⟩

theorem takenInAgain_isAccountedFor :
    (∀ id, openingForTwo.unfired id = []) ∧ takenInAgain.signals = [0] ∧
      takenInAgain.tickets = [⟨0, 1, 1⟩] ∧
      ∃ past, Course openingForTwo past takenInAgain ∧ IsAccountedFor past takenInAgain := by
  have unused (id : OperationId) : openingForTwo.unfired id = [] := by
    match id with
    | 0 => rfl
    | _ + 1 => rfl
  have takesIn (desk : Desk Unit) (room : desk.slots.isFull = false)
      (isHeld : desk.board.Holds 0) : Step desk (desk.takeIn ⟨0, .int, ()⟩) :=
    .takesIn ⟨0, .int, ()⟩ room isHeld
  have opens : Course openingForTwo [] openingForTwo := .begins
  have twice : Course openingForTwo [openingForTwo, openingForTwo.takeIn ⟨0, .int, ()⟩]
      takenInTwice :=
    (opens.goesOn (takesIn _ rfl Nat.zero_lt_one)).goesOn (takesIn _ rfl Nat.zero_lt_one)
  have records := twice.goesOn (.moves (.record 0 (.ok (.int 7)) : Move Unit) trivial)
  have calls := records.goesOn (.moves (.call 0 0 : Move Unit) trivial)
  have handsOut : Step halfCalled (halfCalled.handOut (halfCalled.slots.vacate 0) []) :=
    .handsOut rfl
  have course := (calls.goesOn handsOut).goesOn (takesIn _ rfl Nat.zero_lt_one)
  exact ⟨unused, rfl, rfl, _, course, Course.isAccountedFor unused course⟩

end Desk
end Scheduler
end ScriptHost
