import ScriptHost.Scheduler
import ScriptHost.Proofs.Board
import Mathlib.Data.List.Nodup

/-!
# The slot table

A slot table is read by index: what stands in an entry, and under which sequence. An
operation is put into an entry that is empty, and an entry is emptied when its
operation is handed out. The free list names each empty entry once, so that taking an
index from it never overwrites an operation that is outstanding. A new entry is made only if
none is empty, so that the table holds as many entries as are free or filled.
-/

namespace ScriptHost
namespace Scheduler

variable {κ : Type}

/-- What a slot was taken in with. -/
def Slot.admission (slot : Slot κ) : Admission κ :=
  ⟨slot.operation, slot.type, slot.callback⟩

namespace Slots

/-- The outstanding operation in an entry. -/
def slotAt?
    (slots : Slots κ)
    (index : Nat) : Option (Slot κ) :=
  slots.entries[index]?.join

/-- The sequence of the outstanding operation in an entry. -/
def sequenceAt?
    (slots : Slots κ)
    (index : Nat) : Option Nat :=
  (slots.slotAt? index).map Slot.sequence

/-- The entry that the next operation is put into. -/
def nextIndex (slots : Slots κ) : Nat :=
  slots.free.head?.getD slots.entries.size

/-- The slot of an operation that is taken in next. -/
def nextSlot
    (slots : Slots κ)
    (admission : Admission κ) : Slot κ :=
  ⟨admission.operation, admission.type, admission.callback, slots.nextSequence⟩

/-- The table after the operation in an entry is handed out. -/
def vacate
    (slots : Slots κ)
    (index : Nat) : Slots κ :=
  { slots with
    entries := slots.entries.set! index none
    free := index :: slots.free
    occupied := slots.occupied - 1 }

/-- The free list names each empty entry once and nothing else. -/
structure Tidy (slots : Slots κ) : Prop where
  mem_free_iff : ∀ index, index ∈ slots.free ↔ slots.entries[index]? = some none
  nodup_free : slots.free.Nodup

/-- Slots without entries are tidy. -/
theorem tidy_new
    (limit : Nat)
    (mailbox : MailboxId) :
    (new limit mailbox : Slots κ).Tidy where
  mem_free_iff index := by simp [new]
  nodup_free := List.nodup_nil

@[simp] theorem slotAt?_new
    (limit : Nat)
    (mailbox : MailboxId)
    (index : Nat) :
    (new limit mailbox : Slots κ).slotAt? index = none := by
  simp [new, slotAt?]

/-- A slot is filled if its entry holds it. -/
theorem slotAt?_eq_some_iff
    (slots : Slots κ)
    (index : Nat)
    (slot : Slot κ) :
    slots.slotAt? index = some slot ↔ slots.entries[index]? = some (some slot) := by
  rw [slotAt?, Option.join_eq_some_iff]

/-! ## Taking in -/

@[simp] theorem board_occupy
    (slots : Slots κ)
    (board : Board)
    (admission : Admission κ) :
    (slots.occupy board admission).2 =
      board.listen admission.operation ⟨slots.mailbox, slots.nextIndex⟩ := by
  unfold occupy nextIndex
  cases slots.free <;> rfl

@[simp] theorem mailbox_occupy
    (slots : Slots κ)
    (board : Board)
    (admission : Admission κ) :
    (slots.occupy board admission).1.mailbox = slots.mailbox := rfl

@[simp] theorem nextSequence_occupy
    (slots : Slots κ)
    (board : Board)
    (admission : Admission κ) :
    (slots.occupy board admission).1.nextSequence = slots.nextSequence + 1 := rfl

@[simp] theorem occupied_occupy
    (slots : Slots κ)
    (board : Board)
    (admission : Admission κ) :
    (slots.occupy board admission).1.occupied = slots.occupied + 1 := rfl

@[simp] theorem free_occupy
    (slots : Slots κ)
    (board : Board)
    (admission : Admission κ) :
    (slots.occupy board admission).1.free = slots.free.tail := by
  unfold occupy
  cases slots.free <;> rfl

/-- The entry that is used next is free. -/
theorem Tidy.slotAt?_nextIndex
    {slots : Slots κ}
    (tidy : slots.Tidy) :
    slots.slotAt? slots.nextIndex = none := by
  unfold nextIndex slotAt?
  cases free : slots.free with
  | nil => simp
  | cons index rest =>
      have empty := (tidy.mem_free_iff index).mp (free ▸ List.mem_cons_self)
      rw [List.head?_cons, Option.getD_some, empty]
      rfl

/-- The entry that is used next holds what is taken in, and the others hold what they held. -/
theorem Tidy.getElem?_occupy
    {slots : Slots κ}
    (tidy : slots.Tidy)
    (board : Board)
    (admission : Admission κ)
    (index : Nat) :
    (slots.occupy board admission).1.entries[index]? =
      if index = slots.nextIndex then some (some (slots.nextSlot admission))
      else slots.entries[index]? := by
  unfold occupy nextIndex
  cases free : slots.free with
  | nil =>
      simp only [List.head?_nil, Option.getD_none, Array.set!_eq_setIfInBounds,
        Array.getElem?_setIfInBounds, Array.size_push, Array.getElem?_push]
      by_cases same : index = slots.entries.size
      · simp [same, nextSlot]
      · simp [same, Ne.symm same]
  | cons first rest =>
      have empty := (tidy.mem_free_iff first).mp (free ▸ List.mem_cons_self)
      obtain ⟨inRange, -⟩ := Array.getElem?_eq_some_iff.mp empty
      simp only [List.head?_cons, Option.getD_some, Array.set!_eq_setIfInBounds,
        Array.getElem?_setIfInBounds]
      by_cases same : index = first
      · simp [same, inRange, nextSlot]
      · simp [same, Ne.symm same]

/-- The slot that is used next is filled with what is taken in, and all others are as before. -/
theorem Tidy.slotAt?_occupy
    {slots : Slots κ}
    (tidy : slots.Tidy)
    (board : Board)
    (admission : Admission κ)
    (index : Nat) :
    (slots.occupy board admission).1.slotAt? index =
      if index = slots.nextIndex then some (slots.nextSlot admission)
      else slots.slotAt? index := by
  unfold slotAt?
  rw [tidy.getElem?_occupy]
  by_cases same : index = slots.nextIndex
  · rw [if_pos same, if_pos same]
    rfl
  · rw [if_neg same, if_neg same]

/-- What is taken in stands in the next slot, and what stood in an entry is left there. -/
theorem Tidy.slotAt?_occupy_eq_some_iff
    {slots : Slots κ}
    {index : Nat}
    {slot : Slot κ}
    (tidy : slots.Tidy)
    (board : Board)
    (admission : Admission κ) :
    (slots.occupy board admission).1.slotAt? index = some slot ↔
      (index = slots.nextIndex ∧ slot = slots.nextSlot admission) ∨
        slots.slotAt? index = some slot := by
  rw [tidy.slotAt?_occupy]
  by_cases same : index = slots.nextIndex
  · simp [same, tidy.slotAt?_nextIndex, eq_comm]
  · simp [same]

/-- What is taken in has the next sequence, in the slot that is used next. -/
theorem Tidy.sequenceAt?_occupy
    {slots : Slots κ}
    (tidy : slots.Tidy)
    (board : Board)
    (admission : Admission κ)
    (index : Nat) :
    (slots.occupy board admission).1.sequenceAt? index =
      if index = slots.nextIndex then some slots.nextSequence else slots.sequenceAt? index := by
  rw [sequenceAt?, tidy.slotAt?_occupy, apply_ite (Option.map Slot.sequence)]
  rfl

/-- Tidy slots stay tidy when something is taken in. -/
theorem Tidy.occupy
    {slots : Slots κ}
    (tidy : slots.Tidy)
    (board : Board)
    (admission : Admission κ) :
    (slots.occupy board admission).1.Tidy where
  mem_free_iff index := by
    rw [tidy.getElem?_occupy, free_occupy]
    unfold nextIndex
    have mem_free_iff := tidy.mem_free_iff
    have nodup := tidy.nodup_free
    cases free : slots.free with
    | nil =>
        have notEmpty : ¬slots.entries[index]? = some none := by
          rw [← mem_free_iff index, free]
          exact List.not_mem_nil
        by_cases same : index = slots.entries.size <;> simp [same, notEmpty]
    | cons first rest =>
        rw [free] at mem_free_iff nodup
        obtain ⟨firstAbsent, -⟩ := List.nodup_cons.mp nodup
        by_cases same : index = first
        · simp [same, firstAbsent]
        · simp [same, ← mem_free_iff index]
  nodup_free := by
    rw [free_occupy]
    exact tidy.nodup_free.tail

/-! ## Handing out -/

@[simp] theorem mailbox_vacate
    (slots : Slots κ)
    (index : Nat) :
    (slots.vacate index).mailbox = slots.mailbox := rfl

/-- A slot that is vacated is empty, and all others are as before. -/
theorem slotAt?_vacate
    (slots : Slots κ)
    (index other : Nat) :
    (slots.vacate index).slotAt? other =
      if other = index then none else slots.slotAt? other := by
  unfold slotAt? vacate
  rw [Array.set!_eq_setIfInBounds, Array.getElem?_setIfInBounds]
  by_cases same : other = index
  · rw [if_pos same.symm, if_pos same]
    split <;> rfl
  · rw [if_neg (Ne.symm same), if_neg same]

/-- The slots that are filled still are those that are not vacated. -/
theorem slotAt?_vacate_eq_some_iff
    {slots : Slots κ}
    {index other : Nat}
    {slot : Slot κ} :
    (slots.vacate index).slotAt? other = some slot ↔
      other ≠ index ∧ slots.slotAt? other = some slot := by
  rw [slotAt?_vacate]
  by_cases same : other = index <;> simp [same]

theorem sequenceAt?_vacate
    (slots : Slots κ)
    (index other : Nat) :
    (slots.vacate index).sequenceAt? other =
      if other = index then none else slots.sequenceAt? other := by
  rw [sequenceAt?, slotAt?_vacate, apply_ite (Option.map Slot.sequence)]
  rfl

/-- Tidy slots stay tidy when something is handed out. -/
theorem Tidy.vacate
    {slots : Slots κ}
    {index : Nat}
    {slot : Slot κ}
    (tidy : slots.Tidy)
    (filled : slots.slotAt? index = some slot) :
    (slots.vacate index).Tidy where
  mem_free_iff other := by
    rw [slotAt?_eq_some_iff] at filled
    obtain ⟨inRange, -⟩ := Array.getElem?_eq_some_iff.mp filled
    simp only [Slots.vacate, List.mem_cons, Array.set!_eq_setIfInBounds,
      Array.getElem?_setIfInBounds, tidy.mem_free_iff other]
    by_cases same : other = index
    · simp [same, inRange]
    · simp [same, Ne.symm same]
  nodup_free := by
    refine List.nodup_cons.mpr ⟨?_, tidy.nodup_free⟩
    rw [tidy.mem_free_iff, (slotAt?_eq_some_iff ..).mp filled]
    exact fun absurdity => nomatch absurdity

/-- The oldest signal hands out the operation in the entry that it names, if that
operation is settled. -/
theorem complete?_cons
    {slots : Slots κ}
    {index : Nat}
    {slot : Slot κ}
    {outcome : Outcome}
    (board : Board)
    (signals : List Nat)
    (filled : slots.slotAt? index = some slot)
    (isSettled : board.outcome? slot.operation = some outcome) :
    slots.complete? board (index :: signals) =
      some (⟨slot.sequence, slot.callback, deliveryOf slot.type outcome⟩,
        slots.vacate index, signals) := by
  rw [slotAt?_eq_some_iff] at filled
  simp only [complete?, filled, isSettled]
  rfl

/-- What is handed out stood in an entry, which is empty afterwards, and its operation is
settled. -/
theorem exists_vacate_of_complete?
    {slots next : Slots κ}
    {board : Board}
    {signals rest : List Nat}
    {completion : Completion κ}
    (announced : slots.complete? board signals = some (completion, next, rest)) :
    ∃ index slot outcome, slots.slotAt? index = some slot ∧
      board.outcome? slot.operation = some outcome ∧
      completion = ⟨slot.sequence, slot.callback, deliveryOf slot.type outcome⟩ ∧
      next = slots.vacate index := by
  induction signals with
  | nil => cases announced
  | cons index signals inductionHypothesis =>
      rw [complete?] at announced
      split at announced
      next slot filled =>
        split at announced
        next => cases announced
        next outcome isSettled =>
          cases announced
          exact ⟨index, slot, outcome, (slotAt?_eq_some_iff ..).mpr filled, isSettled, rfl, rfl⟩
      -- A signal of an empty entry is skipped.
      next => exact inductionHypothesis announced

/-- Whatever is handed out, one operation less is outstanding. -/
theorem occupied_complete?
    {slots next : Slots κ}
    {board : Board}
    {signals rest : List Nat}
    {completion : Completion κ}
    (announced : slots.complete? board signals = some (completion, next, rest)) :
    next.occupied = slots.occupied - 1 := by
  obtain ⟨_, _, _, -, -, -, rfl⟩ := exists_vacate_of_complete? announced
  rfl

/-! ## The size of the table -/

/-- An entry is made only if none is free. -/
theorem size_occupy
    (slots : Slots κ)
    (board : Board)
    (admission : Admission κ) :
    (slots.occupy board admission).1.entries.size =
      if slots.free = [] then slots.entries.size + 1 else slots.entries.size := by
  unfold occupy
  cases slots.free <;> simp

/-- A new entry is made only if there is no free one. -/
theorem size_occupy_eq_max
    {slots : Slots κ}
    (sizeBefore : slots.entries.size = slots.free.length + slots.occupied)
    (board : Board)
    (admission : Admission κ) :
    (slots.occupy board admission).1.entries.size =
      max slots.entries.size (slots.occupied + 1) := by
  rw [size_occupy]
  cases free : slots.free with
  | nil =>
      rw [free, List.length_nil] at sizeBefore
      rw [if_pos rfl]
      omega
  | cons index rest =>
      rw [free, List.length_cons] at sizeBefore
      rw [if_neg (List.cons_ne_nil index rest)]
      omega

@[simp] theorem size_vacate
    (slots : Slots κ)
    (index : Nat) :
    (slots.vacate index).entries.size = slots.entries.size := by
  simp [vacate]

/-! ## Filled entries -/

/-- The entries that an operation stands in, in order. -/
def occupiedIndices (slots : Slots κ) : List Nat :=
  (List.range slots.entries.size).filter fun index => (slots.slotAt? index).isSome

/-- An index is occupied if its slot is filled. -/
theorem mem_occupiedIndices_iff
    (slots : Slots κ)
    (index : Nat) :
    index ∈ slots.occupiedIndices ↔ (slots.slotAt? index).isSome := by
  rw [occupiedIndices, List.mem_filter, List.mem_range, and_iff_right_iff_imp]
  intro isFilled
  obtain ⟨slot, filled⟩ := Option.isSome_iff_exists.mp isFilled
  exact (Array.getElem?_eq_some_iff.mp ((slotAt?_eq_some_iff ..).mp filled)).1

/-- Each entry is either free or filled. -/
theorem Tidy.free_perm
    {slots : Slots κ}
    (tidy : slots.Tidy) :
    (slots.free ++ slots.occupiedIndices).Perm (List.range slots.entries.size) := by
  have nodup : (slots.free ++ slots.occupiedIndices).Nodup := by
    refine tidy.nodup_free.append (List.nodup_range.filter _) fun index isFree isFilled => ?_
    rw [mem_occupiedIndices_iff, slotAt?, (tidy.mem_free_iff index).mp isFree] at isFilled
    cases isFilled
  refine (List.perm_ext_iff_of_nodup nodup List.nodup_range).mpr fun index => ?_
  rw [List.mem_append, tidy.mem_free_iff, mem_occupiedIndices_iff, slotAt?, List.mem_range]
  by_cases inRange : index < slots.entries.size
  · rw [Array.getElem?_eq_getElem inRange]
    cases slots.entries[index] <;> simp [inRange]
  · rw [Array.getElem?_eq_none (Nat.le_of_not_lt inRange)]
    simp [inRange]

/-! ## Sound tables -/

/-- A table that counts its entries rightly, stays within its limit, and tells the operations in
it apart by their sequences. -/
structure IsSound (slots : Slots κ) : Prop where
  tidy : slots.Tidy
  size_eq : slots.entries.size = slots.free.length + slots.occupied
  occupied_le : slots.occupied ≤ slots.limit
  sequence_lt : ∀ index sequence, slots.sequenceAt? index = some sequence →
    sequence < slots.nextSequence
  sequence_inj : ∀ index other sequence, slots.sequenceAt? index = some sequence →
    slots.sequenceAt? other = some sequence → index = other

/-- Slots without entries are sound. -/
theorem isSound_new
    (limit : Nat)
    (mailbox : MailboxId) :
    (new limit mailbox : Slots κ).IsSound where
  tidy := tidy_new ..
  size_eq := rfl
  occupied_le := Nat.zero_le _
  sequence_lt := by simp [sequenceAt?]
  sequence_inj := by simp [sequenceAt?]

namespace IsSound

variable {slots : Slots κ}

/-- The slots that are counted are those that are filled. -/
theorem occupied_eq (isSound : slots.IsSound) :
    slots.occupied = slots.occupiedIndices.length := by
  have counted := isSound.tidy.free_perm.length_eq
  have sizeBefore := isSound.size_eq
  rw [List.length_append, List.length_range] at counted
  omega

/-- A filled entry is counted. -/
theorem occupied_pos
    {index : Nat}
    (isSound : slots.IsSound)
    (isFilled : (slots.slotAt? index).isSome) :
    0 < slots.occupied := by
  rw [isSound.occupied_eq]
  exact List.length_pos_of_mem ((slots.mem_occupiedIndices_iff index).mpr isFilled)

/-- Sound slots stay sound when something is taken in and there is room. -/
theorem occupy
    (isSound : slots.IsSound)
    (room : slots.isFull = false)
    (board : Board)
    (admission : Admission κ) :
    (slots.occupy board admission).1.IsSound where
  tidy := isSound.tidy.occupy board admission
  size_eq := by
    have sizeBefore := isSound.size_eq
    rw [size_occupy_eq_max sizeBefore, free_occupy, occupied_occupy, List.length_tail]
    omega
  occupied_le := Nat.lt_of_not_le (of_decide_eq_false room)
  sequence_lt index sequence found := by
    rw [isSound.tidy.sequenceAt?_occupy] at found
    rw [nextSequence_occupy]
    by_cases same : index = slots.nextIndex
    · rw [if_pos same] at found
      cases found
      exact Nat.lt_succ_self _
    · rw [if_neg same] at found
      exact Nat.lt_succ_of_lt (isSound.sequence_lt index sequence found)
  sequence_inj index other sequence found foundOther := by
    -- No operation in the table has the sequence that is given out now.
    rw [isSound.tidy.sequenceAt?_occupy] at found foundOther
    by_cases isNext : index = slots.nextIndex <;> by_cases otherIsNext : other = slots.nextIndex
    · rw [isNext, otherIsNext]
    · rw [if_pos isNext] at found
      rw [if_neg otherIsNext, ← found] at foundOther
      exact absurd (isSound.sequence_lt other _ foundOther) (Nat.lt_irrefl _)
    · rw [if_pos otherIsNext] at foundOther
      rw [if_neg isNext, ← foundOther] at found
      exact absurd (isSound.sequence_lt index _ found) (Nat.lt_irrefl _)
    · rw [if_neg isNext] at found
      rw [if_neg otherIsNext] at foundOther
      exact isSound.sequence_inj index other sequence found foundOther

/-- Sound slots stay sound when something is handed out. -/
theorem vacate
    {index : Nat}
    {slot : Slot κ}
    (isSound : slots.IsSound)
    (filled : slots.slotAt? index = some slot) :
    (slots.vacate index).IsSound := by
  have sequenceBefore {other sequence : Nat}
      (found : (slots.vacate index).sequenceAt? other = some sequence) :
      slots.sequenceAt? other = some sequence := by
    rw [sequenceAt?_vacate] at found
    split at found
    · cases found
    · exact found
  have sizeBefore := isSound.size_eq
  have counted := isSound.occupied_pos (Option.isSome_iff_exists.mpr ⟨slot, filled⟩)
  exact {
    tidy := isSound.tidy.vacate filled
    size_eq := by
      change (slots.vacate index).entries.size = (index :: slots.free).length + (slots.occupied - 1)
      rw [size_vacate, List.length_cons]
      omega
    occupied_le := Nat.le_trans (Nat.sub_le ..) isSound.occupied_le
    sequence_lt := fun other sequence found =>
      isSound.sequence_lt other sequence (sequenceBefore found)
    sequence_inj := fun other another sequence found foundOther =>
      isSound.sequence_inj other another sequence (sequenceBefore found)
        (sequenceBefore foundOther) }

end IsSound

end Slots
end Scheduler
end ScriptHost
