import ScriptHost.Proofs.Scheduler.Desk

/-!
# A slot table in order

Whatever order operations settle in, each filled entry of a slot table is owed exactly one
signal: either it is queued already, or a listener of the operation in the entry has still to
fire. The table therefore finds a settled operation behind each signal that it takes.
-/

namespace ScriptHost
namespace Scheduler
namespace Desk

variable {α κ : Type}

/-- What a slot table keeps up, step by step. -/
structure IsInOrder (desk : Desk κ) : Prop where
  isOpen : desk.board.IsOpen desk.slots.mailbox
  table : desk.slots.IsSound
  nodup_owed : desk.owed.Nodup
  mem_owed_iff : ∀ index, index ∈ desk.owed ↔ (desk.slots.slotAt? index).isSome
  isSettled : ∀ index ∈ desk.signals, ∃ slot, desk.slots.slotAt? index = some slot ∧
    (desk.board.outcome? slot.operation).isSome
  isFor : ∀ ticket ∈ desk.tickets, ∃ slot, desk.slots.slotAt? ticket.index = some slot ∧
    slot.operation = ticket.operation ∧ slot.sequence = ticket.sequence
  unfired_eq : ∀ id, desk.unfired id = (desk.ticketsOf id).map Ticket.index
  due_isSettled : ∀ id, desk.board.dueSlots desk.slots.mailbox id ≠ [] →
    (desk.board.outcome? id).isSome

variable {desk next : Desk κ}

/-- A table without entries is in order, if nothing waits in the mailbox that it opens. -/
theorem isInOrder_opening
    {limit : Nat}
    {board : Board}
    (unused : ∀ id, (opening limit board : Desk κ).unfired id = []) :
    (opening limit board : Desk κ).IsInOrder := by
  have noSignals : (opening limit board : Desk κ).signals = [] := by
    change board.openMailbox.1.signals board.mailboxes.size = []
    rw [Board.signals_openMailbox]
    exact Board.signals_eq_nil (Nat.lt_irrefl _)
  have noSlots (index : Nat) : (opening limit board : Desk κ).slots.slotAt? index = none :=
    Slots.slotAt?_new ..
  have nothingOwed : (opening limit board : Desk κ).owed = [] := by
    rw [owed, noSignals]
    rfl
  exact {
    isOpen := (Board.isOpen_openMailbox ..).mpr (.inr rfl)
    table := Slots.isSound_new ..
    nodup_owed := by simp [nothingOwed]
    mem_owed_iff := by simp [nothingOwed, noSlots]
    isSettled := by simp [noSignals]
    isFor := fun _ member => absurd member List.not_mem_nil
    unfired_eq := unused
    due_isSettled := fun id isDue => absurd (List.append_eq_nil_iff.mp (unused id)).2 isDue }

namespace IsInOrder

/-! ## The table finds what it is told -/

/-- The oldest signal names an entry with a settled operation, which is handed out. -/
theorem exists_complete?
    {index : Nat}
    {rest : List Nat}
    (inOrder : desk.IsInOrder)
    (queued : desk.signals = index :: rest) :
    ∃ slot outcome, desk.slots.slotAt? index = some slot ∧
      desk.board.outcome? slot.operation = some outcome ∧
      desk.slots.complete? desk.board desk.signals =
        some (⟨slot.sequence, slot.callback, deliveryOf slot.type outcome⟩,
          desk.slots.vacate index, rest) := by
  obtain ⟨slot, filled, isSettled⟩ := inOrder.isSettled index (queued ▸ List.mem_cons_self)
  obtain ⟨outcome, settled⟩ := Option.isSome_iff_exists.mp isSettled
  refine ⟨slot, outcome, filled, settled, ?_⟩
  rw [queued]
  exact Slots.complete?_cons desk.board rest filled settled

/-! ## Moves -/

/-- A move that leaves the view of the table as it is leaves the table in order. -/
private theorem alike
    {move : Move α}
    (inOrder : desk.IsInOrder)
    (alike : LooksAlike desk.slots.mailbox desk.board (move.onBoard desk.board))
    (sameTickets : (desk.move move).tickets = desk.tickets) :
    (desk.move move).IsInOrder := by
  have sameSignals : (desk.move move).signals = desk.signals := alike.signals
  have sameOwed : (desk.move move).owed = desk.owed := by
    rw [owed, sameSignals, sameTickets, owed]
  exact {
    isOpen := alike.isOpen
    table := inOrder.table
    nodup_owed := sameOwed ▸ inOrder.nodup_owed
    mem_owed_iff := sameOwed ▸ inOrder.mem_owed_iff
    isSettled := fun index member => by
      rw [sameSignals] at member
      simp only [board_move, alike.outcome]
      exact inOrder.isSettled index member
    isFor := sameTickets ▸ inOrder.isFor
    unfired_eq := fun id => by
      rw [ticketsOf, sameTickets, ← ticketsOf, ← inOrder.unfired_eq id]
      exact congrArg₂ List.append (alike.waiting id) (alike.due id)
    due_isSettled := fun id isDue => by
      rw [board_move, slots_move, alike.due] at isDue
      rw [board_move, alike.outcome]
      exact inOrder.due_isSettled id isDue }

/-- While an operation is pending, nothing that the table has registered is due for it. -/
theorem dueSlots_eq_nil
    {id : OperationId}
    (inOrder : desk.IsInOrder)
    (pending : desk.board.IsPending id) :
    desk.board.dueSlots desk.slots.mailbox id = [] := by
  by_contra isDue
  exact Board.not_isPending_of_isSettled (inOrder.due_isSettled id isDue) pending

/-- What is settled stays settled when another outcome is recorded. -/
private theorem isSome_outcome?_record
    {other : OperationId}
    (id : OperationId)
    (outcome : Outcome)
    (isSettled : (desk.board.outcome? other).isSome) :
    ((desk.board.record id outcome).outcome? other).isSome := by
  obtain ⟨first, isRecorded⟩ := Option.isSome_iff_exists.mp isSettled
  exact Option.isSome_of_eq_some (Board.outcome?_record_of_isSettled isRecorded id outcome)

private theorem record
    (inOrder : desk.IsInOrder)
    (id : OperationId)
    (outcome : Outcome) :
    (desk.move (.record id outcome : Move α)).IsInOrder := by
  have sameSignals : (desk.move (.record id outcome : Move α)).signals = desk.signals := by
    change (desk.board.record id outcome).signals _ = _
    rw [Board.signals, Board.mailboxes_record]
    rfl
  have sameOwed : (desk.move (.record id outcome : Move α)).owed = desk.owed := by
    rw [owed, sameSignals, tickets_record, owed]
  exact {
    isOpen := by
      change (desk.board.record id outcome).IsOpen _
      rw [Board.IsOpen, Board.mailboxes_record]
      exact inOrder.isOpen
    table := inOrder.table
    nodup_owed := sameOwed ▸ inOrder.nodup_owed
    mem_owed_iff := sameOwed ▸ inOrder.mem_owed_iff
    isSettled := fun index member => by
      rw [sameSignals] at member
      obtain ⟨slot, filled, settled⟩ := inOrder.isSettled index member
      exact ⟨slot, filled, isSome_outcome?_record id outcome settled⟩
    isFor := inOrder.isFor
    unfired_eq := fun other =>
      (Board.unfired_record (fun _ => inOrder.dueSlots_eq_nil) id outcome other).trans
        (inOrder.unfired_eq other)
    due_isSettled := fun other isDue => by
      change (desk.board.record id outcome).dueSlots desk.slots.mailbox other ≠ [] at isDue
      change ((desk.board.record id outcome).outcome? other).isSome
      rw [Board.dueSlots_record] at isDue
      by_cases wasDue : desk.board.dueSlots desk.slots.mailbox other = []
      · rw [wasDue, List.nil_append] at isDue
        obtain ⟨same, waits⟩ := ite_ne_right_iff.mp isDue
        have pending : desk.board.IsPending id := by
          by_contra notPending
          exact waits (Board.waitingSlots_eq_nil _ notPending)
        rw [Board.outcome?_record, if_pos ⟨pending, same⟩]
        rfl
      · exact isSome_outcome?_record id outcome (inOrder.due_isSettled other wasDue) }

/-- The listener of the table that is called next for an operation has the first ticket of the
operation. -/
theorem ticketsOf_of_isDue
    {id : OperationId}
    {index : Nat}
    {rest : List Nat}
    (inOrder : desk.IsInOrder)
    (isDue : desk.board.dueSlots desk.slots.mailbox id = index :: rest) :
    ∃ first others, desk.ticketsOf id = first :: others ∧ first.index = index ∧
      others.map Ticket.index = rest := by
  have settled := inOrder.due_isSettled id (isDue ▸ List.cons_ne_nil index rest)
  have unfired := inOrder.unfired_eq id
  rw [unfired_of_isSettled settled, isDue] at unfired
  obtain ⟨first, others, found, sameIndex, sameRest⟩ := List.map_eq_cons_iff.mp unfired.symm
  exact ⟨first, others, found, sameIndex, sameRest⟩

/-- What a call of a listener of the table does: the first ticket of the operation turns into a
signal. -/
theorem exists_split_of_call
    {id : OperationId}
    {index : Nat}
    {rest : List Nat}
    (inOrder : desk.IsInOrder)
    (isDue : desk.board.dueSlots desk.slots.mailbox id = index :: rest) :
    ∃ before first after, desk.tickets = before ++ first :: after ∧
      (desk.move (.call id desk.slots.mailbox : Move α)).tickets = before ++ after ∧
      (desk.move (.call id desk.slots.mailbox : Move α)).signals =
        desk.signals ++ [first.index] ∧
      first.operation = id ∧ desk.ticketsOf id = first ::
        (desk.move (.call id desk.slots.mailbox : Move α)).ticketsOf id ∧
      ∀ other ≠ id, (desk.move (.call id desk.slots.mailbox : Move α)).ticketsOf other =
        desk.ticketsOf other := by
  obtain ⟨first, others, found, sameIndex, sameRest⟩ := inOrder.ticketsOf_of_isDue isDue
  obtain ⟨before, after, split, erased, isFirst, left⟩ := exists_split_of_ticketsOf found
  have newTickets : (desk.move (.call id desk.slots.mailbox : Move α)).tickets =
      before ++ after := by
    rw [tickets_call, if_pos ⟨rfl, isDue ▸ List.cons_ne_nil index rest⟩, erased]
  refine ⟨before, first, after, split, newTickets, ?_, isFirst, ?_, fun other isOther => ?_⟩
  · refine (Board.signals_call inOrder.isOpen id _).trans ?_
    rw [if_pos rfl, isDue, ← sameIndex]
    rfl
  · rw [found, ticketsOf, newTickets, left]
  · rw [ticketsOf, newTickets, ticketsOf, split, List.filter_append, List.filter_append,
      List.filter_cons, if_neg]
    simpa [isFirst] using isOther.symm

/-- A call of a listener of the table takes the first ticket of its operation, and no other. -/
private theorem unfired_eq_call
    {id : OperationId}
    {index : Nat}
    {rest : List Nat}
    (inOrder : desk.IsInOrder)
    (isDue : desk.board.dueSlots desk.slots.mailbox id = index :: rest)
    (other : OperationId) :
    (desk.move (.call id desk.slots.mailbox : Move α)).unfired other =
      ((desk.move (.call id desk.slots.mailbox : Move α)).ticketsOf other).map Ticket.index := by
  obtain ⟨_, first, _, -, -, -, -, found, others⟩ := inOrder.exists_split_of_call (α := α) isDue
  change (desk.board.call id desk.slots.mailbox).unfired desk.slots.mailbox other = _
  rw [Board.unfired, Board.waitingSlots_call, Board.dueSlots_call]
  by_cases same : other = id
  · subst same
    have settled := inOrder.due_isSettled other (isDue ▸ List.cons_ne_nil index rest)
    have unfired := inOrder.unfired_eq other
    rw [unfired_of_isSettled settled, found, List.map_cons] at unfired
    rw [if_pos ⟨rfl, rfl⟩, unfired,
      Board.waitingSlots_eq_nil _ (Board.not_isPending_of_isSettled settled)]
    rfl
  · rw [if_neg fun both => same both.1, others other same]
    exact inOrder.unfired_eq other

private theorem call
    {id : OperationId}
    {index : Nat}
    {rest : List Nat}
    (inOrder : desk.IsInOrder)
    (isDue : desk.board.dueSlots desk.slots.mailbox id = index :: rest) :
    (desk.move (.call id desk.slots.mailbox : Move α)).IsInOrder := by
  obtain ⟨before, first, after, split, newTickets, newSignals, isFirst, found, others⟩ :=
    inOrder.exists_split_of_call (α := α) isDue
  -- The entry of the ticket joins the queue, so that what is owed is only rearranged.
  have sameOwed : (desk.move (.call id desk.slots.mailbox : Move α)).owed.Perm desk.owed := by
    rw [owed, newSignals, newTickets, owed, split, List.append_assoc, List.singleton_append,
      List.map_append, List.map_append, List.map_cons]
    exact List.perm_middle.symm.append_left desk.signals
  have settled := inOrder.due_isSettled id (isDue ▸ List.cons_ne_nil index rest)
  have sameOutcome (other : OperationId) :
      (desk.board.call id desk.slots.mailbox).outcome? other = desk.board.outcome? other :=
    Board.outcome?_call ..
  exact {
    isOpen := (Board.isOpen_call ..).mpr inOrder.isOpen
    table := inOrder.table
    nodup_owed := sameOwed.nodup_iff.mpr inOrder.nodup_owed
    mem_owed_iff := fun other => sameOwed.mem_iff.trans (inOrder.mem_owed_iff other)
    isSettled := fun other member => by
      change ∃ slot, desk.slots.slotAt? other = some slot ∧
        ((desk.board.call id desk.slots.mailbox).outcome? slot.operation).isSome
      simp only [sameOutcome]
      rw [newSignals] at member
      rcases List.mem_append.mp member with queued | isNew
      · exact inOrder.isSettled other queued
      · obtain ⟨slot, filled, sameOperation, -⟩ := inOrder.isFor first (by simp [split])
        rw [List.mem_singleton.mp isNew]
        refine ⟨slot, filled, ?_⟩
        rwa [sameOperation, isFirst]
    isFor := fun ticket member => by
      rw [newTickets] at member
      refine inOrder.isFor ticket ?_
      rw [split]
      exact (List.sublist_cons_self first after).append_left before |>.subset member
    unfired_eq := inOrder.unfired_eq_call isDue
    due_isSettled := fun other isDue => by
      change (desk.board.call id desk.slots.mailbox).dueSlots desk.slots.mailbox other ≠ [] at isDue
      change ((desk.board.call id desk.slots.mailbox).outcome? other).isSome
      rw [sameOutcome]
      refine inOrder.due_isSettled other fun noneDue => isDue ?_
      rw [Board.dueSlots_call, noneDue]
      exact ite_self _ }

/-- Whatever others do, and however settlements go on meanwhile, the table stays in order. -/
theorem move
    {move : Move α}
    (inOrder : desk.IsInOrder)
    (spares : move.Spares desk.slots.mailbox) :
    (desk.move move).IsInOrder := by
  cases move with
  | record id outcome => exact inOrder.record id outcome
  | call id mailbox =>
      by_cases isOurs : mailbox = desk.slots.mailbox
      · subst isOurs
        cases isDue : desk.board.dueSlots desk.slots.mailbox id with
        | nil =>
            have same : desk.move (.call id desk.slots.mailbox : Move α) = desk := by
              rw [Desk.move, Move.onBoard, Board.call_of_dueSlots_eq_nil isDue]
              change ({ desk with
                tickets := (desk.move (.call id _ : Move α)).tickets } : Desk κ) = _
              rw [tickets_call, if_neg fun both => both.2 isDue]
            rwa [same]
        | cons index rest => exact inOrder.call isDue
      · refine inOrder.alike (looksAlike_onBoard inOrder.isOpen spares nofun ?_) ?_
        · rintro _ ⟨⟩
          exact isOurs rfl
        · rw [tickets_call, if_neg fun both => isOurs both.1]
  | _ => exact inOrder.alike (looksAlike_onBoard inOrder.isOpen spares nofun nofun) rfl

/-! ## Taking in -/

theorem slotAt?_takeIn
    (inOrder : desk.IsInOrder)
    (admission : Admission κ)
    (index : Nat) :
    (desk.takeIn admission).slots.slotAt? index =
      if index = desk.slots.nextIndex then some (desk.slots.nextSlot admission)
      else desk.slots.slotAt? index :=
  inOrder.table.tidy.slotAt?_occupy desk.board admission index

theorem slotAt?_takeIn_of_filled
    {index : Nat}
    {slot : Slot κ}
    (inOrder : desk.IsInOrder)
    (admission : Admission κ)
    (filled : desk.slots.slotAt? index = some slot) :
    (desk.takeIn admission).slots.slotAt? index = some slot :=
  (inOrder.table.tidy.slotAt?_occupy_eq_some_iff desk.board admission).mpr (.inr filled)

/-- What is taken in stands in the next entry. -/
theorem slotAt?_takeIn_next
    (inOrder : desk.IsInOrder)
    (admission : Admission κ) :
    (desk.takeIn admission).slots.slotAt? desk.slots.nextIndex =
      some (desk.slots.nextSlot admission) := by
  rw [inOrder.slotAt?_takeIn, if_pos rfl]

/-- The entry that is taken in is registered if its operation is pending, and has a ticket
then. -/
private theorem unfired_eq_takeIn
    (inOrder : desk.IsInOrder)
    (admission : Admission κ)
    (id : OperationId) :
    (desk.takeIn admission).unfired id =
      ((desk.takeIn admission).ticketsOf id).map Ticket.index := by
  rw [unfired_takeIn, ticketsOf, tickets_takeIn, List.filter_append, List.map_append,
    ← ticketsOf, ← inOrder.unfired_eq id, unfired, Board.unfired]
  by_cases registers : desk.board.IsPending admission.operation ∧ id = admission.operation
  · obtain ⟨pending, rfl⟩ := registers
    rw [inOrder.dueSlots_eq_nil pending, if_pos ⟨pending, rfl⟩, if_pos pending]
    simp
  · rw [if_neg registers]
    by_cases pending : desk.board.IsPending admission.operation
    · have isOther : ¬admission.operation = id := fun same => registers ⟨pending, same.symm⟩
      rw [if_pos pending]
      simp [isOther]
    · rw [if_neg pending]
      simp

theorem takeIn
    {admission : Admission κ}
    (inOrder : desk.IsInOrder)
    (room : desk.slots.isFull = false)
    (isHeld : desk.board.Holds admission.operation) :
    (desk.takeIn admission).IsInOrder := by
  have owed := owed_takeIn_perm inOrder.isOpen isHeld
  have isNew : desk.slots.nextIndex ∉ desk.owed := by
    rw [inOrder.mem_owed_iff, inOrder.table.tidy.slotAt?_nextIndex]
    exact Bool.false_ne_true
  exact {
    isOpen := by
      rw [board_takeIn, slots_takeIn, Slots.mailbox_occupy, Board.isOpen_listen]
      exact inOrder.isOpen
    table := inOrder.table.occupy room desk.board admission
    nodup_owed := owed.nodup_iff.mpr (List.nodup_cons.mpr ⟨isNew, inOrder.nodup_owed⟩)
    mem_owed_iff := fun index => by
      rw [owed.mem_iff, List.mem_cons, inOrder.mem_owed_iff, inOrder.slotAt?_takeIn]
      by_cases same : index = desk.slots.nextIndex <;> simp [same]
    isSettled := fun index member => by
      simp only [outcome?_takeIn]
      rw [signals_takeIn _ _ inOrder.isOpen isHeld] at member
      rcases List.mem_append.mp member with queued | isNext
      · obtain ⟨slot, filled, settled⟩ := inOrder.isSettled index queued
        exact ⟨slot, inOrder.slotAt?_takeIn_of_filled admission filled, settled⟩
      · by_cases pending : desk.board.IsPending admission.operation
        · rw [if_pos pending] at isNext
          cases isNext
        · rw [if_neg pending] at isNext
          obtain rfl := List.mem_singleton.mp isNext
          refine ⟨desk.slots.nextSlot admission, inOrder.slotAt?_takeIn_next admission, ?_⟩
          exact not_not.mp (isHeld.isPending_iff.not.mp pending)
    isFor := fun ticket member => by
      rw [tickets_takeIn] at member
      rcases List.mem_append.mp member with isOld | isNext
      · obtain ⟨slot, filled, sameOperation⟩ := inOrder.isFor ticket isOld
        exact ⟨slot, inOrder.slotAt?_takeIn_of_filled admission filled, sameOperation⟩
      · by_cases pending : desk.board.IsPending admission.operation
        · rw [if_pos pending] at isNext
          obtain rfl := List.mem_singleton.mp isNext
          exact ⟨desk.slots.nextSlot admission, inOrder.slotAt?_takeIn_next admission, rfl, rfl⟩
        · rw [if_neg pending] at isNext
          cases isNext
    unfired_eq := inOrder.unfired_eq_takeIn admission
    due_isSettled := fun id isDue => by
      rw [dueSlots_takeIn, slots_takeIn, Slots.mailbox_occupy] at isDue
      rw [outcome?_takeIn]
      exact inOrder.due_isSettled id isDue }

/-! ## Handing out -/

/-- The table hands out what its oldest signal names. -/
theorem exists_of_announced
    {completion : Completion κ}
    {slots : Slots κ}
    {queue : List Nat}
    (inOrder : desk.IsInOrder)
    (announced : desk.slots.complete? desk.board desk.signals =
      some (completion, slots, queue)) :
    ∃ index, desk.signals = index :: queue ∧ (desk.slots.slotAt? index).isSome ∧
      slots = desk.slots.vacate index := by
  cases queued : desk.signals with
  | nil =>
      rw [queued] at announced
      cases announced
  | cons index rest =>
      obtain ⟨slot, outcome, filled, -, complete⟩ := inOrder.exists_complete? queued
      rw [complete] at announced
      cases announced
      exact ⟨index, rfl, Option.isSome_iff_exists.mpr ⟨slot, filled⟩, rfl⟩

theorem handOut
    {index : Nat}
    {queue : List Nat}
    (inOrder : desk.IsInOrder)
    (queued : desk.signals = index :: queue)
    (isFilled : (desk.slots.slotAt? index).isSome) :
    (desk.handOut (desk.slots.vacate index) queue).IsInOrder := by
  have signalsAfter := signals_handOut inOrder.isOpen index queue
  -- The one signal that the entry was owed is taken, and no other entry loses one.
  have owedBefore :
      desk.owed = index :: (desk.handOut (desk.slots.vacate index) queue).owed := by
    rw [owed, queued, owed, signalsAfter]
    rfl
  have nodup := inOrder.nodup_owed
  rw [owedBefore, List.nodup_cons] at nodup
  obtain ⟨notOwed, nodup⟩ := nodup
  have isOther {other : Nat}
      (isOwed : other ∈ (desk.handOut (desk.slots.vacate index) queue).owed) : other ≠ index :=
    fun same => notOwed (same ▸ isOwed)
  have slotAt? {other : Nat}
      (isOwed : other ∈ (desk.handOut (desk.slots.vacate index) queue).owed) :
      (desk.slots.vacate index).slotAt? other = desk.slots.slotAt? other := by
    rw [Slots.slotAt?_vacate, if_neg (isOther isOwed)]
  obtain ⟨slot, filled⟩ := Option.isSome_iff_exists.mp isFilled
  exact {
    isOpen := (Board.isOpen_setSignals ..).mpr inOrder.isOpen
    table := inOrder.table.vacate filled
    nodup_owed := nodup
    mem_owed_iff := fun other => by
      change _ ↔ ((desk.slots.vacate index).slotAt? other).isSome
      have before := inOrder.mem_owed_iff other
      rw [owedBefore, List.mem_cons] at before
      rw [Slots.slotAt?_vacate]
      by_cases same : other = index
      · simp [same, notOwed]
      · rw [if_neg same, ← before]
        simp [same]
    isSettled := fun other member => by
      have isOwed := List.mem_append_left (desk.tickets.map Ticket.index) member
      rw [signalsAfter] at member
      obtain ⟨slot, filled, settled⟩ :=
        inOrder.isSettled other (queued ▸ List.mem_cons_of_mem index member)
      exact ⟨slot, (slotAt? isOwed).trans filled, settled⟩
    isFor := fun ticket member => by
      have isOwed := List.mem_append_right
        (desk.handOut (desk.slots.vacate index) queue).signals
        (List.mem_map_of_mem (f := Ticket.index) member)
      obtain ⟨slot, filled, sameOperation⟩ := inOrder.isFor ticket member
      exact ⟨slot, (slotAt? isOwed).trans filled, sameOperation⟩
    unfired_eq := inOrder.unfired_eq
    due_isSettled := inOrder.due_isSettled }

/-! ## Every step -/

theorem step
    (inOrder : desk.IsInOrder)
    (step : Step desk next) :
    next.IsInOrder := by
  cases step with
  | moves move spares => exact inOrder.move spares
  | takesIn admission room isHeld => exact inOrder.takeIn room isHeld
  | handsOut announced =>
      obtain ⟨index, queued, isFilled, rfl⟩ := inOrder.exists_of_announced announced
      exact inOrder.handOut queued isFilled

/-- The table grows only where it is fuller than ever. -/
theorem size_eq_max
    (inOrder : desk.IsInOrder)
    (step : Step desk next) :
    next.slots.entries.size = max desk.slots.entries.size next.slots.occupied := by
  have sizeBefore := inOrder.table.size_eq
  have unchanged : desk.slots.entries.size =
      max desk.slots.entries.size desk.slots.occupied := by omega
  cases step with
  | moves move spares => exact unchanged
  | takesIn admission room isHeld => exact Slots.size_occupy_eq_max sizeBefore desk.board admission
  | handsOut announced =>
      obtain ⟨index, -, -, rfl⟩ := inOrder.exists_of_announced announced
      change (desk.slots.vacate index).entries.size = max _ (desk.slots.occupied - 1)
      rw [Slots.size_vacate]
      omega

end IsInOrder

end Desk
end Scheduler
end ScriptHost
