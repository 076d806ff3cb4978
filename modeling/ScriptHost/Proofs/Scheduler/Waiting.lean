import ScriptHost.Proofs.Scheduler.Occupancy

/-!
# What a run waits for

A run waits while nothing is announced to it. That may not happen because an announcement
was lost: once an operation that was taken in has settled and its listeners were called, it
is announced or was handed out. So a run that waits with something outstanding waits for
settlements, each of which is still to come or has yet to call the run, and goes on as soon
as one of them is through.
-/

namespace ScriptHost
namespace Scheduler

variable {α κ ε : Type}

/-- An operation that was taken in, under its sequence, and not handed out. -/
structure Awaited
    (events : List (Event α κ ε))
    (sequence : Nat)
    (admission : Admission κ) : Prop where
  isTaken : (admissions events)[sequence]? = some admission
  notHandedOut : ∀ completion ∈ completions events, completion.sequence ≠ sequence

theorem Awaited.append
    {events more : List (Event α κ ε)}
    {sequence : Nat}
    {admission : Admission κ}
    (isAwaited : Awaited events sequence admission)
    (noAdmissions : admissions more = [])
    (noCompletions : completions more = []) :
    Awaited (events ++ more) sequence admission where
  isTaken := by
    rw [admissions_append, noAdmissions, List.append_nil]
    exact isAwaited.isTaken
  notHandedOut := by
    rw [completions_append, noCompletions, List.append_nil]
    exact isAwaited.notHandedOut

/-- Something is awaited, and no settlement of what is awaited is through: the operation is
pending, or its settlement has still to call a listener of the mailbox. -/
structure IsStalled
    (mailbox : MailboxId)
    (board : Board)
    (events : List (Event α κ ε)) : Prop where
  exists_awaited : ∃ sequence admission, Awaited events sequence admission
  isUnsettled : ∀ sequence admission, Awaited events sequence admission →
    board.IsPending admission.operation ∨ board.dueSlots mailbox admission.operation ≠ []

/-- A moment at which a run does nothing but wait. Nothing is announced to it, and it is
stalled: what it took in and did not hand out is pending, unless its settlement is just under
way and has not called the run yet. Whichever of these is settled and calls the run, there is
something to hand out. -/
structure Idle
    (events : List (Event α κ ε))
    (desk : Desk κ) : Prop where
  silent : desk.signals = []
  isStalled : IsStalled desk.slots.mailbox desk.board events
  isPending : (∀ id, desk.board.due id = []) →
    ∀ sequence admission, Awaited events sequence admission →
      desk.board.IsPending admission.operation
  goesOn : ∀ sequence admission, Awaited events sequence admission → ∀ outcome,
    let board := (desk.board.record admission.operation outcome).call admission.operation
      desk.slots.mailbox
    (desk.slots.complete? board (board.signals desk.slots.mailbox)).isSome = true

/-- When no settlement is under way, all that is awaited by a stalled run is pending. -/
theorem IsStalled.isPending
    {mailbox : MailboxId}
    {board : Board}
    {events : List (Event α κ ε)}
    {sequence : Nat}
    {admission : Admission κ}
    (isStalled : IsStalled mailbox board events)
    (noneDue : ∀ id, board.due id = [])
    (isAwaited : Awaited events sequence admission) :
    board.IsPending admission.operation :=
  (isStalled.isUnsettled sequence admission isAwaited).resolve_right
    (not_not_intro (Board.dueSlots_eq_nil mailbox (noneDue admission.operation)))

/-- Whatever happens, an operation stays on its board. -/
theorem Event.holds_onBoard
    {board : Board}
    {id : OperationId}
    (event : Event α κ ε)
    (isHeld : board.Holds id) :
    (event.onBoard board).Holds id := by
  unfold Board.Holds at isHeld ⊢
  cases event with
  | moved move =>
      cases move with
      | create => exact (Board.size_create board).symm ▸ Nat.lt_succ_of_lt isHeld
      | record other outcome => exact (Board.size_record board other outcome).symm ▸ isHeld
      | call other mailbox => exact (Board.operations_call board other mailbox).symm ▸ isHeld
      | listen other listener => exact (Board.size_listen board other listener).symm ▸ isHeld
      | _ => exact isHeld
  | _ => exact isHeld

namespace Moment

variable {start : Board} {limit : Nat} {events : List (Event α κ ε)} {desk : Desk κ}

/-- What is taken in is on the board. -/
theorem holds_admission
    (moment : Moment start limit events desk) :
    ∀ admission ∈ admissions events, desk.board.Holds admission.operation := by
  induction moment with
  | begins => exact fun _ member => nomatch member
  | @happens events desk event moment isQuiet inductionHypothesis =>
      obtain ⟨tickets, seen⟩ := desk.exists_see event
      rw [seen, admissions_concat_of_none events isQuiet.2.1]
      exact fun admission member => event.holds_onBoard (inductionHypothesis admission member)
  | @takesIn events desk admission moment room isHeld inductionHypothesis =>
      rw [admissions_concat, Desk.board_takeIn]
      intro other member
      unfold Board.Holds
      rw [Board.size_listen]
      rcases List.mem_append.mp member with earlier | isLast
      · exact inductionHypothesis other earlier
      · rw [List.mem_singleton.mp isLast]
        exact isHeld
  | @handsOut events desk next completion signals moment announced inductionHypothesis =>
      rw [admissions_concat_of_none events rfl]
      exact inductionHypothesis

end Moment

namespace Ledger

variable {start : Board} {events : List (Event α κ ε)} {desk : Desk κ}
variable {sequence : Nat} {admission : Admission κ}

/-- What is taken in is ready once every listener that the run has at it has fired. -/
theorem mem_completionOrder
    (ledger : Ledger start events desk)
    (isTaken : (admissions events)[sequence]? = some admission)
    (allFired : desk.unfired admission.operation = []) :
    sequence ∈ completionOrder start events := by
  rw [ledger.inOrder.unfired_eq] at allFired
  have noneMissing : missing (admissions events) (completionOrder start events)
      admission.operation = [] := by
    rw [← ledger.untold, List.map_eq_nil_iff.mp allFired]
    rfl
  by_contra notReady
  have isMissing := mem_missing.mpr ⟨mem_observers.mpr ⟨admission, isTaken, rfl⟩, notReady⟩
  rw [noneMissing] at isMissing
  cases isMissing

/-- If every listener at something that is awaited has fired, there is something to hand
out. -/
theorem isSome_complete?
    (ledger : Ledger start events desk)
    (isAwaited : Awaited events sequence admission)
    (allFired : desk.unfired admission.operation = []) :
    (desk.slots.complete? desk.board desk.signals).isSome = true := by
  have isReady := ledger.mem_completionOrder isAwaited.isTaken allFired
  by_contra isSilent
  rw [Bool.not_eq_true, Option.isSome_eq_false_iff, Option.isNone_iff_eq_none] at isSilent
  obtain ⟨sequences, isOrder, named⟩ := ledger.announced
  rw [ledger.signals_eq_nil isSilent] at named
  obtain rfl := List.map_eq_nil_iff.mp named.symm
  rw [isOrder, List.append_nil, List.mem_map] at isReady
  obtain ⟨completion, isCompletion, same⟩ := isReady
  exact isAwaited.notHandedOut completion isCompletion same

/-- If something is outstanding, an operation is awaited. -/
theorem exists_awaited
    (ledger : Ledger start events desk)
    (isBusy : 0 < desk.slots.occupied) :
    ∃ sequence admission, Awaited events sequence admission := by
  have counted := ledger.occupied
  have tooFew : ¬List.range (admissions events).length ⊆
      (completions events).map Completion.sequence := by
    intro allHandedOut
    have bounded := (List.subperm_of_subset List.nodup_range allHandedOut).length_le
    rw [List.length_range, List.length_map] at bounded
    omega
  simp only [List.subset_def, not_forall, List.mem_range] at tooFew
  obtain ⟨sequence, inRange, notMember⟩ := tooFew
  refine ⟨sequence, (admissions events)[sequence], List.getElem?_eq_getElem inRange, ?_⟩
  intro completion isCompletion same
  exact notMember (same ▸ List.mem_map_of_mem isCompletion)

end Ledger

/-- A settlement that calls the table gives it something to hand out. -/
theorem Desk.IsInOrder.isSome_complete?_of_call
    {desk : Desk κ}
    {id : OperationId}
    (inOrder : desk.IsInOrder)
    (isDue : desk.board.dueSlots desk.slots.mailbox id ≠ []) :
    let board := desk.board.call id desk.slots.mailbox
    (desk.slots.complete? board (board.signals desk.slots.mailbox)).isSome = true := by
  intro board
  have called : (desk.move (.call id desk.slots.mailbox : Move Unit)).IsInOrder :=
    inOrder.move trivial
  obtain ⟨index, rest, isDue⟩ := List.exists_cons_of_ne_nil isDue
  have isQueued : board.signals desk.slots.mailbox = desk.signals ++ [index] := by
    refine (Board.signals_call inOrder.isOpen ..).trans ?_
    rw [if_pos rfl, isDue, Desk.signals]
    rfl
  obtain ⟨first, others, queued⟩ :=
    List.exists_cons_of_ne_nil (isQueued.trans_ne (List.concat_ne_nil index desk.signals))
  obtain ⟨slot, outcome, -, -, isComplete⟩ := called.exists_complete? queued
  exact Option.isSome_of_eq_some isComplete

namespace Moment

variable {start : Board} {limit : Nat} {events : List (Event α κ ε)} {desk : Desk κ}

/-- While nothing is announced, what is awaited has a listener of the run that has not
fired. -/
theorem unfired_ne_nil
    {sequence : Nat}
    {admission : Admission κ}
    (unused : ∀ id, start.unfired start.mailboxes.size id = [])
    (moment : Moment start limit events desk)
    (isSilent : desk.slots.complete? desk.board desk.signals = none)
    (isAwaited : Awaited events sequence admission) :
    desk.unfired admission.operation ≠ [] := by
  intro allFired
  have announced := (Ledger.ofMoment unused moment).isSome_complete? isAwaited allFired
  rw [isSilent] at announced
  cases announced

/-- A run that waits with something outstanding is stalled. -/
theorem isStalled
    (unused : ∀ id, start.unfired start.mailboxes.size id = [])
    (moment : Moment start limit events desk)
    (isBusy : 0 < desk.slots.occupied)
    (isSilent : desk.slots.complete? desk.board desk.signals = none) :
    IsStalled desk.slots.mailbox desk.board events where
  exists_awaited := (Ledger.ofMoment unused moment).exists_awaited isBusy
  isUnsettled sequence admission isAwaited := by
    have isHeld := moment.holds_admission admission (List.mem_of_getElem? isAwaited.isTaken)
    have notFired := moment.unfired_ne_nil unused isSilent isAwaited
    rw [Board.isPending_iff]
    cases settled : desk.board.outcome? admission.operation with
    | none => exact .inl ⟨isHeld, rfl⟩
    | some outcome =>
        rw [Desk.unfired_of_isSettled (Option.isSome_of_eq_some settled)] at notFired
        exact .inr notFired

/-- A run that is stalled goes on when something that it awaits settles and calls it. -/
theorem idle
    (unused : ∀ id, start.unfired start.mailboxes.size id = [])
    (moment : Moment start limit events desk)
    (isBusy : 0 < desk.slots.occupied)
    (isSilent : desk.slots.complete? desk.board desk.signals = none) :
    Idle events desk where
  silent := (Ledger.ofMoment unused moment).signals_eq_nil isSilent
  isStalled := moment.isStalled unused isBusy isSilent
  isPending noneDue _ _ := (moment.isStalled unused isBusy isSilent).isPending noneDue
  goesOn sequence admission isAwaited outcome := by
    have inOrder := moment.isInOrder unused
    have notFired := moment.unfired_ne_nil unused isSilent isAwaited
    -- Recording the outcome makes all of these listeners due.
    rw [Desk.unfired, ← Board.unfired_record (fun id => inOrder.dueSlots_eq_nil)
      admission.operation outcome, Board.unfired, Board.waitingSlots_record, if_pos rfl,
      List.nil_append] at notFired
    have recorded : (desk.move (.record admission.operation outcome : Move Unit)).IsInOrder :=
      inOrder.move trivial
    exact recorded.isSome_complete?_of_call notFired

end Moment
end Scheduler
end ScriptHost
