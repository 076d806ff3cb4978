import ScriptHost.Proofs.Scheduler.Moment

/-!
# The ledger of a run

What the slots, the signals and the tickets of a run amount to at a moment is told from what
has happened until then. The signals that are left in the mailbox of the run stand, in order,
for the operations that are ready and not handed out; the tickets for an operation stand for
those that observe it and are not ready. No signal is stale: a slot is used again only after
its signal was taken.
-/

namespace ScriptHost
namespace Scheduler

variable {α κ ε : Type}

/-- What the table of a run amounts to after some events, in a run that opened its mailbox
on the board `start`. -/
structure Ledger
    (start : Board)
    (events : List (Event α κ ε))
    (desk : Desk κ) : Prop where
  inOrder : desk.IsInOrder
  mailbox : desk.slots.mailbox = start.mailboxes.size
  agrees : desk.board.Agrees (boardAfter start events)
  nextSequence : desk.slots.nextSequence = (admissions events).length
  occupied : desk.slots.occupied + (completions events).length = (admissions events).length
  filled : ∀ index slot, desk.slots.slotAt? index = some slot →
    (admissions events)[slot.sequence]? = some slot.admission
  untold : ∀ id, (desk.ticketsOf id).map Ticket.sequence =
    missing (admissions events) (completionOrder start events) id
  announced : ∃ sequences,
    completionOrder start events = (completions events).map Completion.sequence ++ sequences ∧
      desk.signals.map desk.slots.sequenceAt? = sequences.map some
  delivered : ∀ completion ∈ completions events,
    completionOf desk.board (admissions events) completion.sequence = some completion

/-- What others do on two boards that agree, they do alike. -/
theorem Move.agrees_onBoard
    {board other : Board}
    (move : Move α)
    (agrees : board.Agrees other) :
    (move.onBoard board).Agrees (move.onBoard other) := by
  cases move with
  | create => exact agrees.create
  | record id outcome => exact agrees.record id outcome
  | call id mailbox => exact agrees.call id mailbox
  | listen id listener => exact ((agrees.listen id listener).symm.listen id listener).symm
  | openMailbox | setSignals => exact ⟨agrees.size, agrees.outcome⟩
  | register | release | releaseAll => exact agrees

namespace Ledger

variable {start : Board} {events : List (Event α κ ε)} {desk later : Desk κ}

/-- A run begins with an empty ledger, provided that nothing waits in the mailbox that it
opens. -/
theorem begins
    (limit : Nat)
    (unused : ∀ id, start.unfired start.mailboxes.size id = []) :
    Ledger start ([] : List (Event α κ ε)) (.opening limit start : Desk κ) where
  inOrder := Desk.isInOrder_opening unused
  mailbox := rfl
  agrees := ⟨rfl, fun _ => rfl⟩
  nextSequence := rfl
  occupied := rfl
  filled index slot filled := by
    rw [Desk.opening, Slots.slotAt?_new] at filled
    cases filled
  untold _ := rfl
  announced := by
    refine ⟨[], rfl, ?_⟩
    change (start.openMailbox.1.signals start.mailboxes.size).map _ = _
    rw [Board.signals_openMailbox, Board.signals_eq_nil (Nat.lt_irrefl _)]
    rfl
  delivered _ member := nomatch member

/-- What is ready has an outcome to hand out. -/
theorem isSome_completionOf
    {sequence : Nat}
    (ledger : Ledger start events desk)
    (isReady : sequence ∈ completionOrder start events) :
    (completionOf desk.board (admissions events) sequence).isSome := by
  have isSome := isSome_completionOf_of_mem isReady
  simp only [completionOf, ← ledger.agrees.outcome] at isSome
  exact isSome

/-! ## Steps of the host -/

/-- An event that makes nothing ready and keeps every outcome that is recorded. -/
private theorem calm
    {event : Event α κ ε}
    (ledger : Ledger start events desk)
    (noAdmission : event.admission? = none)
    (noCompletion : event.completion? = none)
    (noneReady : readied start.mailboxes.size (boardAfter start events) (admissions events)
      (completionOrder start events) event = [])
    (inOrder : later.IsInOrder)
    (agrees : later.board.Agrees (event.onBoard (boardAfter start events)))
    (sameSlots : later.slots = desk.slots)
    (sameTickets : later.tickets = desk.tickets)
    (sameSignals : later.signals = desk.signals)
    (keeps : ∀ id outcome, desk.board.outcome? id = some outcome →
      later.board.outcome? id = some outcome) :
    Ledger start (events ++ [event]) later := by
  have sameAdmissions := admissions_concat_of_none events noAdmission
  have sameCompletions := completions_concat_of_none events noCompletion
  have sameOrder := completionOrder_concat_of_none noneReady
  exact {
    inOrder
    mailbox := sameSlots ▸ ledger.mailbox
    agrees := by
      rw [boardAfter_concat]
      exact agrees
    nextSequence := by
      rw [sameAdmissions, sameSlots]
      exact ledger.nextSequence
    occupied := by
      rw [sameAdmissions, sameCompletions, sameSlots]
      exact ledger.occupied
    filled := by
      rw [sameAdmissions, sameSlots]
      exact ledger.filled
    untold := by
      intro id
      rw [sameAdmissions, sameOrder, Desk.ticketsOf, sameTickets]
      exact ledger.untold id
    announced := by
      rw [sameOrder, sameCompletions, sameSignals, sameSlots]
      exact ledger.announced
    delivered := by
      intro completion member
      rw [sameCompletions] at member
      have stillReady := completionOf_mono [] keeps (ledger.delivered completion member)
      rw [List.append_nil] at stillReady
      rwa [sameAdmissions] }

/-- A settlement that calls a listener of the run makes the first of those ready that observe
the operation and are not ready yet. -/
private theorem calls
    {id : OperationId}
    {index : Nat}
    {rest : List Nat}
    (ledger : Ledger start events desk)
    (isDue : desk.board.dueSlots desk.slots.mailbox id = index :: rest) :
    Ledger start (events ++ [.moved (.call id desk.slots.mailbox)])
      (desk.move (.call id desk.slots.mailbox : Move α)) := by
  obtain ⟨before, first, after, split, newTickets, newSignals, isFirst, found, others⟩ :=
    ledger.inOrder.exists_split_of_call (α := α) isDue
  have settled := ledger.inOrder.due_isSettled id (isDue ▸ List.cons_ne_nil index rest)
  have sameAdmissions : admissions (events ++ [.moved (.call id desk.slots.mailbox)]) =
      admissions events := admissions_concat_of_none events rfl
  have sameCompletions : completions (events ++ [.moved (.call id desk.slots.mailbox)]) =
      completions events := completions_concat_of_none events rfl
  have sameOutcome (other : OperationId) :
      (desk.move (.call id desk.slots.mailbox : Move α)).board.outcome? other =
        desk.board.outcome? other :=
    Board.outcome?_call ..
  have sameResults (sequence : Nat) :
      completionOf (desk.move (.call id desk.slots.mailbox : Move α)).board (admissions events)
          sequence =
        completionOf desk.board (admissions events) sequence := by
    simp only [completionOf, sameOutcome]
  have isMissing : missing (admissions events) (completionOrder start events) id =
      first.sequence ::
        ((desk.move (.call id desk.slots.mailbox : Move α)).ticketsOf id).map
          Ticket.sequence := by
    rw [← ledger.untold, found, List.map_cons]
  obtain ⟨observes, -⟩ := mem_missing.mp (isMissing ▸ List.mem_cons_self)
  have nextOrder : completionOrder start (events ++ [.moved (.call id desk.slots.mailbox)]) =
      completionOrder start events ++ [first.sequence] := by
    rw [completionOrder_concat, readied, ← ledger.agrees.outcome, if_pos ⟨ledger.mailbox, settled⟩,
      isMissing]
    rfl
  exact {
    inOrder := ledger.inOrder.move trivial
    mailbox := ledger.mailbox
    agrees := by
      rw [boardAfter_concat]
      exact (Move.call id desk.slots.mailbox : Move α).agrees_onBoard ledger.agrees
    nextSequence := by
      rw [sameAdmissions]
      exact ledger.nextSequence
    occupied := by
      rw [sameAdmissions, sameCompletions]
      exact ledger.occupied
    filled := by
      rw [sameAdmissions]
      exact ledger.filled
    untold := by
      intro other
      rw [sameAdmissions, nextOrder]
      by_cases same : other = id
      · rw [same, missing_concat_first isMissing]
      · rw [others other same, ledger.untold, missing_concat_of_not_mem]
        exact fun member => same (eq_of_mem_observers observes (mem_missing.mp member).1)
    announced := by
      obtain ⟨sequences, isOrder, named⟩ := ledger.announced
      obtain ⟨slot, filled, -, sameSequence⟩ := ledger.inOrder.isFor first (by simp [split])
      refine ⟨sequences ++ [first.sequence], ?_, ?_⟩
      · rw [nextOrder, sameCompletions, isOrder, List.append_assoc]
      · rw [newSignals, Desk.slots_move, List.map_append, List.map_append, named,
          List.map_singleton, Slots.sequenceAt?, filled, Option.map_some, sameSequence]
        rfl
    delivered := by
      intro completion member
      rw [sameCompletions] at member
      rw [sameAdmissions, sameResults]
      exact ledger.delivered completion member }

/-- Nothing becomes ready if no listener of the run is due. -/
private theorem readied_call_eq_nil
    {id : OperationId}
    {mailbox : MailboxId}
    (ledger : Ledger start events desk)
    (noneDue : mailbox = desk.slots.mailbox → desk.board.dueSlots desk.slots.mailbox id = []) :
    readied start.mailboxes.size (boardAfter start events) (admissions events)
      (completionOrder start events) (.moved (.call id mailbox) : Event α κ ε) = [] := by
  rw [readied, ← ledger.agrees.outcome, ← ledger.mailbox]
  by_cases both : mailbox = desk.slots.mailbox ∧ (desk.board.outcome? id).isSome
  · have unfired := ledger.inOrder.unfired_eq id
    rw [Desk.unfired_of_isSettled both.2, noneDue both.1] at unfired
    rw [if_pos both, ← ledger.untold, List.map_eq_nil_iff.mp unfired.symm]
    rfl
  · rw [if_neg both]

/-- Whatever the host does on its own keeps the ledger. -/
theorem happens
    {event : Event α κ ε}
    (ledger : Ledger start events desk)
    (isQuiet : event.IsQuiet start.mailboxes.size) :
    Ledger start (events ++ [event]) (desk.see event) := by
  obtain ⟨spares, noAdmission, noCompletion⟩ := isQuiet
  rw [← ledger.mailbox] at spares
  cases event with
  | moved move =>
      have inOrder := ledger.inOrder.move spares
      have agrees := Move.agrees_onBoard move ledger.agrees
      -- What the table sees of a move that settles nothing is what it saw before.
      have alike (recordsNothing : ∀ id outcome, move ≠ .record id outcome)
          (callsNothing : ∀ id, move ≠ .call id desk.slots.mailbox) :
          Desk.LooksAlike desk.slots.mailbox desk.board (move.onBoard desk.board) :=
        Desk.looksAlike_onBoard ledger.inOrder.isOpen spares recordsNothing callsNothing
      cases move with
      | record id outcome =>
          refine ledger.calm rfl rfl rfl inOrder agrees rfl rfl ?_ ?_
          · change (desk.board.record id outcome).signals desk.slots.mailbox = _
            rw [Board.signals, Board.mailboxes_record]
            rfl
          · exact fun other first isSettled =>
              Board.outcome?_record_of_isSettled isSettled id outcome
      | call id mailbox =>
          by_cases isOurs : mailbox = desk.slots.mailbox
          · subst isOurs
            cases isDue : desk.board.dueSlots desk.slots.mailbox id with
            | nil =>
                refine ledger.calm rfl rfl (ledger.readied_call_eq_nil fun _ => isDue) inOrder
                  agrees rfl ?_ ?_ ?_
                · exact (Desk.tickets_call ..).trans (if_neg fun both => both.2 isDue)
                · change (desk.board.call id _).signals _ = _
                  rw [Board.call_of_dueSlots_eq_nil isDue]
                  rfl
                · exact fun other outcome => (Board.outcome?_call ..).trans
            | cons index rest => exact ledger.calls isDue
          · have alike := alike (fun _ _ same => by cases same)
              (fun _ same => isOurs (by cases same; rfl))
            exact ledger.calm rfl rfl (ledger.readied_call_eq_nil fun same => absurd same isOurs)
              inOrder agrees rfl ((Desk.tickets_call ..).trans (if_neg fun both => isOurs both.1))
              alike.signals fun other outcome => (alike.outcome other).trans
      | _ =>
          have alike := alike (fun _ _ same => by cases same) (fun _ same => by cases same)
          exact ledger.calm rfl rfl rfl inOrder agrees rfl rfl alike.signals
            fun other outcome => (alike.outcome other).trans
  | admitted admission => cases noAdmission
  | dispatched completion => cases noCompletion
  | _ =>
      exact ledger.calm rfl rfl rfl ledger.inOrder ledger.agrees rfl rfl rfl fun _ _ same => same

/-! ## Taking in -/

/-- What is taken in is ready at once if its outcome is recorded. -/
private theorem completionOrder_admitted
    (ledger : Ledger start events desk)
    (admission : Admission κ) :
    completionOrder start (events ++ [.admitted admission]) =
      completionOrder start events ++
        if (desk.board.outcome? admission.operation).isSome then [(admissions events).length]
        else [] := by
  rw [completionOrder_concat, readied, ledger.agrees.outcome]

/-- A ticket is noted for what is taken in and not ready. -/
private theorem untold_takeIn
    {admission : Admission κ}
    (ledger : Ledger start events desk)
    (isHeld : desk.board.Holds admission.operation)
    (id : OperationId) :
    ((desk.takeIn admission).ticketsOf id).map Ticket.sequence =
      missing (admissions (events ++ [.admitted admission]))
        (completionOrder start (events ++ [.admitted admission])) id := by
  have nextAdmissions : admissions (events ++ [Event.admitted admission]) =
      admissions events ++ [admission] := admissions_concat ..
  have isNew := length_not_mem_completionOrder start events
  rw [nextAdmissions, ledger.completionOrder_admitted, Desk.ticketsOf, Desk.tickets_takeIn,
    List.filter_append, List.map_append, ← Desk.ticketsOf, ledger.untold]
  by_cases isSettled : (desk.board.outcome? admission.operation).isSome
  · rw [if_neg (isHeld.isPending_iff.not.mpr (not_not_intro isSettled)), if_pos isSettled,
      missing_concat_both isNew]
    exact List.append_nil _
  · rw [if_pos (isHeld.isPending_iff.mpr isSettled), if_neg isSettled, List.append_nil,
      missing_concat_taken isNew]
    by_cases same : admission.operation = id <;> simp [same, ledger.nextSequence]

/-- What is taken in and ready is announced last. -/
private theorem announced_takeIn
    {admission : Admission κ}
    (ledger : Ledger start events desk)
    (isHeld : desk.board.Holds admission.operation) :
    ∃ sequences,
      completionOrder start (events ++ [.admitted admission]) =
        (completions events).map Completion.sequence ++ sequences ∧
      (desk.takeIn admission).signals.map (desk.takeIn admission).slots.sequenceAt? =
        sequences.map some := by
  obtain ⟨sequences, isOrder, named⟩ := ledger.announced
  have stillNamed : desk.signals.map (desk.takeIn admission).slots.sequenceAt? =
      sequences.map some := by
    rw [← named]
    refine List.map_congr_left fun index member => ?_
    obtain ⟨slot, filled, -⟩ := ledger.inOrder.isSettled index member
    rw [Slots.sequenceAt?, ledger.inOrder.slotAt?_takeIn_of_filled admission filled,
      Slots.sequenceAt?, filled]
  have isNext : (desk.takeIn admission).slots.sequenceAt? desk.slots.nextIndex =
      some (admissions events).length := by
    rw [Slots.sequenceAt?, ledger.inOrder.slotAt?_takeIn_next, ← ledger.nextSequence]
    rfl
  rw [ledger.completionOrder_admitted, isOrder, List.append_assoc]
  refine ⟨_, rfl, ?_⟩
  rw [Desk.signals_takeIn _ _ ledger.inOrder.isOpen isHeld, List.map_append, List.map_append,
    stillNamed]
  congr 1
  by_cases isSettled : (desk.board.outcome? admission.operation).isSome
  · rw [if_neg (isHeld.isPending_iff.not.mpr (not_not_intro isSettled)), if_pos isSettled,
      List.map_singleton, isNext]
    rfl
  · rw [if_pos (isHeld.isPending_iff.mpr isSettled), if_neg isSettled]
    rfl

/-- An operation is taken in under the next sequence. It is ready at once if its outcome is
recorded, and noted on a ticket if it is not. -/
theorem takesIn
    {admission : Admission κ}
    (ledger : Ledger start events desk)
    (room : desk.slots.isFull = false)
    (isHeld : desk.board.Holds admission.operation) :
    Ledger start (events ++ [.admitted admission]) (desk.takeIn admission) := by
  have nextAdmissions : admissions (events ++ [Event.admitted admission]) =
      admissions events ++ [admission] := admissions_concat ..
  have sameCompletions : completions (events ++ [Event.admitted admission]) =
      completions events := completions_concat_of_none events rfl
  have keeps : ∀ id outcome, desk.board.outcome? id = some outcome →
      (desk.takeIn admission).board.outcome? id = some outcome :=
    fun id outcome isSettled => (Desk.outcome?_takeIn ..).trans isSettled
  exact {
    inOrder := ledger.inOrder.takeIn room isHeld
    mailbox := ledger.mailbox
    agrees := by
      rw [boardAfter_concat, Desk.board_takeIn]
      exact ledger.agrees.listen admission.operation _
    nextSequence := by
      rw [nextAdmissions, Desk.slots_takeIn, Slots.nextSequence_occupy, ledger.nextSequence,
        List.length_append]
      rfl
    occupied := by
      rw [nextAdmissions, sameCompletions, Desk.slots_takeIn, Slots.occupied_occupy,
        List.length_append, ← ledger.occupied, Nat.add_right_comm]
      rfl
    filled := by
      intro index slot filled
      rw [nextAdmissions]
      rcases (ledger.inOrder.table.tidy.slotAt?_occupy_eq_some_iff desk.board admission).mp filled
        with ⟨-, rfl⟩ | filled
      · exact (congrArg _ ledger.nextSequence).trans List.getElem?_concat_length
      · have found := ledger.filled index slot filled
        obtain ⟨inRange, -⟩ := List.getElem?_eq_some_iff.mp found
        rw [List.getElem?_append_left inRange, found]
    untold := ledger.untold_takeIn isHeld
    announced := by
      rw [sameCompletions]
      exact ledger.announced_takeIn isHeld
    delivered := by
      intro completion member
      rw [sameCompletions] at member
      rw [nextAdmissions]
      exact completionOf_mono [admission] keeps (ledger.delivered completion member) }

/-! ## Handing out -/

/-- If nothing is handed out, then nothing is announced. -/
theorem signals_eq_nil
    (ledger : Ledger start events desk)
    (silent : desk.slots.complete? desk.board desk.signals = none) :
    desk.signals = [] := by
  cases waits : desk.signals with
  | nil => rfl
  | cons index signals =>
      obtain ⟨slot, outcome, -, -, announced⟩ := ledger.inOrder.exists_complete? waits
      rw [silent] at announced
      cases announced

/-- The oldest signal names a slot whose operation is next in the order. -/
private theorem next
    {index : Nat}
    {signals : List Nat}
    {slot : Slot κ}
    (ledger : Ledger start events desk)
    (isFirst : desk.signals = index :: signals)
    (filled : desk.slots.slotAt? index = some slot) :
    ∃ sequences,
      completionOrder start events =
        (completions events).map Completion.sequence ++ slot.sequence :: sequences ∧
      signals.map desk.slots.sequenceAt? = sequences.map some := by
  obtain ⟨sequences, isOrder, named⟩ := ledger.announced
  rw [isFirst] at named
  cases sequences with
  | nil => cases named
  | cons sequence sequences =>
      obtain ⟨isNamed, restNamed⟩ := List.cons.inj named
      rw [Slots.sequenceAt?, filled, Option.map_some] at isNamed
      cases isNamed
      exact ⟨sequences, isOrder, restNamed⟩

/-- The entry that is vacated is not announced again. -/
private theorem map_sequenceAt?_vacate
    {index : Nat}
    {signals : List Nat}
    (ledger : Ledger start events desk)
    (isFirst : desk.signals = index :: signals) :
    signals.map (desk.slots.vacate index).sequenceAt? = signals.map desk.slots.sequenceAt? := by
  have nodup := (List.nodup_append.mp ledger.inOrder.nodup_owed).1
  rw [isFirst, List.nodup_cons] at nodup
  refine List.map_congr_left fun other member => ?_
  have isOther : other ≠ index := fun same => nodup.1 (same ▸ member)
  rw [Slots.sequenceAt?, Slots.slotAt?_vacate, if_neg isOther, Slots.sequenceAt?]

/-- What is handed out is the first operation that is ready and not handed out yet. -/
theorem handsOut
    {completion : Completion κ}
    {vacated : Slots κ}
    {signals : List Nat}
    (ledger : Ledger start events desk)
    (announced : desk.slots.complete? desk.board desk.signals =
      some (completion, vacated, signals)) :
    Ledger start (events ++ [.dispatched completion]) (desk.handOut vacated signals) := by
  have inOrder := ledger.inOrder.step (.handsOut announced)
  obtain ⟨index, queued, -, rfl⟩ := ledger.inOrder.exists_of_announced announced
  obtain ⟨slot, outcome, filled, isSettled, complete⟩ := ledger.inOrder.exists_complete? queued
  obtain ⟨sequences, isOrder, named⟩ := ledger.next queued filled
  rw [announced, Option.some.injEq, Prod.mk.injEq] at complete
  obtain ⟨rfl, -⟩ := complete
  have sameAdmissions (completion : Completion κ) :
      admissions (events ++ [Event.dispatched completion]) = admissions events :=
    admissions_concat_of_none events rfl
  have nextCompletions (completion : Completion κ) :
      completions (events ++ [Event.dispatched completion]) = completions events ++ [completion] :=
    completions_concat ..
  have sameOrder (completion : Completion κ) :
      completionOrder start (events ++ [Event.dispatched completion]) =
        completionOrder start events :=
    completionOrder_concat_of_none rfl
  have sameTickets : (desk.handOut (desk.slots.vacate index) signals).tickets = desk.tickets := rfl
  exact {
    inOrder
    mailbox := ledger.mailbox
    agrees := by
      rw [boardAfter_concat]
      exact ⟨ledger.agrees.size, ledger.agrees.outcome⟩
    nextSequence := by
      rw [sameAdmissions]
      exact ledger.nextSequence
    occupied := by
      have counted := ledger.occupied
      have isBusy := ledger.inOrder.table.occupied_pos
        (Option.isSome_iff_exists.mpr ⟨slot, filled⟩)
      rw [sameAdmissions, nextCompletions, List.length_append, List.length_singleton]
      change desk.slots.occupied - 1 + _ = _
      omega
    filled := by
      intro other remaining filled
      rw [sameAdmissions]
      exact ledger.filled other remaining (Slots.slotAt?_vacate_eq_some_iff.mp filled).2
    untold := by
      intro id
      rw [sameAdmissions, sameOrder, Desk.ticketsOf, sameTickets]
      exact ledger.untold id
    announced := by
      refine ⟨sequences, ?_, ?_⟩
      · rw [sameOrder, nextCompletions, isOrder, List.map_append, List.append_assoc]
        rfl
      · rw [Desk.signals_handOut ledger.inOrder.isOpen, ← named]
        exact ledger.map_sequenceAt?_vacate queued
    delivered := by
      intro other member
      rw [nextCompletions, List.mem_append, List.mem_singleton] at member
      rw [sameAdmissions]
      rcases member with earlier | rfl
      · exact ledger.delivered other earlier
      · exact completionOf_eq_some_iff.mpr
          ⟨slot.admission, outcome, ledger.filled index slot filled, isSettled, rfl⟩ }

/-- The ledger holds at every moment of a run. -/
theorem ofMoment
    {limit : Nat}
    (unused : ∀ id, start.unfired start.mailboxes.size id = [])
    (moment : Moment start limit events desk) :
    Ledger start events desk := by
  induction moment with
  | begins => exact .begins limit unused
  | happens _ isQuiet inductionHypothesis => exact inductionHypothesis.happens isQuiet
  | takesIn _ room isHeld inductionHypothesis => exact inductionHypothesis.takesIn room isHeld
  | handsOut _ announced inductionHypothesis => exact inductionHypothesis.handsOut announced

end Ledger
end Scheduler
end ScriptHost
