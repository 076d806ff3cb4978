import ScriptHost.Proofs.Scheduler.CompletionOrder

/-!
# Settlements that do not overlap

The outcome of an operation is recorded before its settlement tells the observers. If several
threads settle operations at the same time, the order in which operations become ready may
differ from the order in which outcomes were recorded. It differs only for settlements that
overlap: whenever everything that was settled has been told before something more settles,
the two orders are the same, but for what the last settlement has still to tell.
-/

namespace ScriptHost
namespace Scheduler

variable {α κ ε : Type}

/-- The sequences of which an event makes sure that they are taken in and that the outcome is
recorded, given the board and the operations taken in before it. -/
def settled
    (board : Board)
    (taken : List (Admission κ)) : Event α κ ε → List Nat
  | .moved (.record id _) => if board.IsPending id then observers taken id else []
  | .admitted admission =>
      if (board.outcome? admission.operation).isSome then [taken.length] else []
  | _ => []

/-- The order in which outcomes are recorded from some moment on. -/
def settledFrom
    (board : Board)
    (taken : List (Admission κ)) : List (Event α κ ε) → List Nat
  | [] => []
  | event :: events =>
      settled board taken event ++
        settledFrom (event.onBoard board) (taken ++ event.admission?.toList) events

/-- The order in which the operations of a run are both taken in and have their outcomes
recorded. -/
def settlementOrder
    (start : Board)
    (events : List (Event α κ ε)) : List Nat :=
  settledFrom start [] events

/-- No settlement overlaps with another one, or with an operation that is taken in settled:
whenever a sequence joins the settlement order, all that are there have been told. -/
def AreApart
    (start : Board)
    (events : List (Event α κ ε)) : Prop :=
  ∀ past event rest, events = past ++ event :: rest →
    settled (boardAfter start past) (admissions past) event ≠ [] →
    ∀ sequence ∈ settlementOrder start past, sequence ∈ completionOrder start past

section Orders

variable {start : Board} {past events : List (Event α κ ε)} {event : Event α κ ε}

theorem settledFrom_append
    (board : Board)
    (taken : List (Admission κ))
    (past future : List (Event α κ ε)) :
    settledFrom board taken (past ++ future) =
      settledFrom board taken past ++
        settledFrom (boardAfter board past) (taken ++ admissions past) future := by
  induction past generalizing board taken with
  | nil =>
      change _ = settledFrom board (taken ++ []) future
      rw [List.append_nil]
      rfl
  | cons event past inductionHypothesis =>
      change settled board taken event ++ settledFrom _ _ (past ++ future) = _
      rw [inductionHypothesis, ← List.append_assoc]
      congr 2
      rw [List.append_assoc]
      cases event <;> rfl

theorem settlementOrder_concat
    (start : Board)
    (past : List (Event α κ ε))
    (event : Event α κ ε) :
    settlementOrder start (past ++ [event]) =
      settlementOrder start past ++ settled (boardAfter start past) (admissions past) event := by
  rw [settlementOrder, settledFrom_append, List.nil_append]
  exact congrArg _ (List.append_nil _)

/-! ## What settlements have still to tell -/

/-- What the settlement of an operation has still to tell. -/
def lag
    (start : Board)
    (events : List (Event α κ ε))
    (id : OperationId) : List Nat :=
  if ((boardAfter start events).outcome? id).isSome then
    missing (admissions events) (completionOrder start events) id
  else []

theorem lag_concat_eq
    {id : OperationId}
    (sameOutcome : (event.onBoard (boardAfter start past)).outcome? id =
      (boardAfter start past).outcome? id)
    (sameMissing : ((boardAfter start past).outcome? id).isSome →
      missing (admissions (past ++ [event])) (completionOrder start (past ++ [event])) id =
        missing (admissions past) (completionOrder start past) id) :
    lag start (past ++ [event]) id = lag start past id := by
  rw [lag, lag, boardAfter_concat, sameOutcome]
  by_cases isSettled : ((boardAfter start past).outcome? id).isSome
  · rw [if_pos isSettled, if_pos isSettled, sameMissing isSettled]
  · rw [if_neg isSettled, if_neg isSettled]

/-- All settlements but one have told all that they had to tell. -/
structure LagsAt
    (start : Board)
    (events : List (Event α κ ε))
    (id : OperationId) : Prop where
  order_eq : settlementOrder start events = completionOrder start events ++ lag start events id
  others : ∀ other, other ≠ id → lag start events other = []

namespace LagsAt

variable {id : OperationId}

/-- Once everything that was settled has been told, the orders are the same. -/
theorem catchUp
    (lags : LagsAt start past id)
    (told : ∀ sequence ∈ settlementOrder start past, sequence ∈ completionOrder start past) :
    settlementOrder start past = completionOrder start past ∧
      ∀ other, lag start past other = [] := by
  have noLag : lag start past id = [] := by
    rw [List.eq_nil_iff_forall_not_mem]
    intro sequence isLate
    have isReady := told sequence (lags.order_eq ▸ List.mem_append_right _ isLate)
    obtain ⟨-, isLate⟩ := List.mem_ite_nil_right.mp isLate
    exact (mem_missing.mp isLate).2 isReady
  refine ⟨by rw [lags.order_eq, noLag, List.append_nil], fun other => ?_⟩
  by_cases same : other = id
  · rw [same, noLag]
  · exact lags.others other same

/-- An event that neither settles nor tells anything. -/
private theorem calm
    (lags : LagsAt start past id)
    (noneSettled : settled (boardAfter start past) (admissions past) event = [])
    (noneReady : readied start.mailboxes.size (boardAfter start past) (admissions past)
      (completionOrder start past) event = [])
    (sameLag : ∀ other, lag start (past ++ [event]) other = lag start past other) :
    LagsAt start (past ++ [event]) id where
  order_eq := by
    rw [settlementOrder_concat, completionOrder_concat_of_none noneReady, noneSettled,
      List.append_nil, sameLag]
    exact lags.order_eq
  others other isOther := by
    rw [sameLag]
    exact lags.others other isOther

/-- So is an event that takes nothing in and leaves the outcomes as they are. -/
private theorem quietly
    (lags : LagsAt start past id)
    (noAdmission : event.admission? = none)
    (noneSettled : settled (boardAfter start past) (admissions past) event = [])
    (noneReady : readied start.mailboxes.size (boardAfter start past) (admissions past)
      (completionOrder start past) event = [])
    (sameOutcome : ∀ other, (event.onBoard (boardAfter start past)).outcome? other =
      (boardAfter start past).outcome? other) :
    LagsAt start (past ++ [event]) id := by
  refine lags.calm noneSettled noneReady fun other => lag_concat_eq (sameOutcome other) fun _ => ?_
  rw [admissions_concat_of_none past noAdmission, completionOrder_concat_of_none noneReady]

private theorem record
    {settling : OperationId}
    {outcome : Outcome}
    (lags : LagsAt start past id)
    (told : settled (boardAfter start past) (admissions past)
        (.moved (.record settling outcome) : Event α κ ε) ≠ [] →
      ∀ sequence ∈ settlementOrder start past, sequence ∈ completionOrder start past) :
    ∃ id, LagsAt start (past ++ [.moved (.record settling outcome)]) id := by
  have sameAdmissions : admissions (past ++ [.moved (.record settling outcome)]) =
      admissions past := admissions_concat_of_none past rfl
  have sameOrder : completionOrder start (past ++ [.moved (.record settling outcome)]) =
      completionOrder start past := completionOrder_concat_of_none rfl
  have sameLag {other : OperationId}
      (unchanged : ¬((boardAfter start past).IsPending settling ∧ other = settling)) :
      lag start (past ++ [.moved (.record settling outcome)]) other = lag start past other :=
    lag_concat_eq ((Board.outcome?_record ..).trans (if_neg unchanged))
      fun _ => by rw [sameAdmissions, sameOrder]
  by_cases pending : (boardAfter start past).IsPending settling
  · have noOutcome := ((Board.isPending_iff ..).mp pending).2
    have noneReady : missing (admissions past) (completionOrder start past) settling =
        observers (admissions past) settling := by
      refine List.filter_eq_self.mpr fun sequence observes => decide_eq_true fun isReady => ?_
      obtain ⟨completion, found⟩ := Option.isSome_iff_exists.mp (isSome_completionOf_of_mem isReady)
      obtain ⟨admission, outcome, taken, isRecorded, -⟩ := completionOf_eq_some_iff.mp found
      obtain ⟨observer, alsoTaken, rfl⟩ := mem_observers.mp observes
      rw [taken] at alsoTaken
      cases alsoTaken
      rw [noOutcome] at isRecorded
      cases isRecorded
    have lateNow : lag start (past ++ [.moved (.record settling outcome)]) settling =
        observers (admissions past) settling := by
      have isRecorded : ((boardAfter start (past ++ [(.moved (.record settling outcome) :
          Event α κ ε)])).outcome? settling).isSome := by
        rw [boardAfter_concat]
        exact Option.isSome_of_eq_some ((Board.outcome?_record ..).trans (if_pos ⟨pending, rfl⟩))
      rw [lag, if_pos isRecorded, sameAdmissions, sameOrder, noneReady]
    have settles : settled (boardAfter start past) (admissions past)
        (.moved (.record settling outcome) : Event α κ ε) = observers (admissions past) settling :=
      if_pos pending
    by_cases unobserved : observers (admissions past) settling = []
    · -- The settlement has nothing to tell.
      refine ⟨id, lags.calm (settles.trans unobserved) rfl fun other => ?_⟩
      by_cases same : other = settling
      · rw [same, lateNow, unobserved, lag, noOutcome]
        rfl
      · exact sameLag fun both => same both.2
    · rw [settles] at told
      obtain ⟨sameOrders, noLag⟩ := lags.catchUp (told unobserved)
      refine ⟨settling, ?_, fun other isOther => ?_⟩
      · rw [settlementOrder_concat, settles, sameOrder, sameOrders, lateNow]
      · rw [sameLag fun both => isOther both.2, noLag]
  · exact ⟨id, lags.calm (if_neg pending) rfl fun other => sameLag fun both => pending both.1⟩

private theorem call
    {called : OperationId}
    {mailbox : MailboxId}
    (lags : LagsAt start past id) :
    LagsAt start (past ++ [.moved (.call called mailbox)]) id := by
  have sameAdmissions : admissions (past ++ [.moved (.call called mailbox)]) = admissions past :=
    admissions_concat_of_none past rfl
  have sameOutcome (other : OperationId) :
      ((Event.moved (.call called mailbox) : Event α κ ε).onBoard
        (boardAfter start past)).outcome? other = (boardAfter start past).outcome? other :=
    Board.outcome?_call ..
  cases isReadied : readied start.mailboxes.size (boardAfter start past) (admissions past)
      (completionOrder start past) (.moved (.call called mailbox) : Event α κ ε) with
  | nil => exact lags.quietly rfl rfl isReadied sameOutcome
  | cons sequence rest =>
      obtain ⟨⟨-, isSettled⟩, member⟩ := List.mem_ite_nil_right.mp
        (isReadied ▸ List.mem_cons_self (a := sequence) (l := rest))
      obtain ⟨later, isMissing⟩ := List.head?_eq_some_iff.mp (Option.mem_toList.mp member)
      have isLate : lag start past called = sequence :: later := by
        rw [lag, if_pos isSettled, isMissing]
      -- Only the settlement that lags has something to tell.
      have isLagging : called = id := by
        by_contra isOther
        rw [lags.others called isOther] at isLate
        cases isLate
      have nextOrder : completionOrder start (past ++ [.moved (.call called mailbox)]) =
          completionOrder start past ++ [sequence] := by
        rw [completionOrder_concat, isReadied]
        rw [readied, if_pos (List.mem_ite_nil_right.mp (isReadied ▸ List.mem_cons_self)).1,
          isMissing] at isReadied
        rw [← isReadied]
        rfl
      have nextLag : lag start (past ++ [.moved (.call called mailbox)]) called = later := by
        rw [lag, boardAfter_concat, sameOutcome, if_pos isSettled, sameAdmissions, nextOrder,
          missing_concat_first isMissing]
      refine ⟨?_, fun other isOther => ?_⟩
      · have settlesNothing : settled (boardAfter start past) (admissions past)
            (.moved (.call called mailbox) : Event α κ ε) = [] := rfl
        rw [settlementOrder_concat, settlesNothing, List.append_nil, nextOrder, lags.order_eq,
          ← isLagging, isLate, nextLag, List.append_assoc, List.singleton_append]
      · have noLag := lags.others other isOther
        rw [← noLag]
        refine lag_concat_eq (sameOutcome other) fun isSettled => ?_
        rw [lag, if_pos isSettled] at noLag
        rw [sameAdmissions, nextOrder, missing_concat_of_not_mem (noLag ▸ List.not_mem_nil)]

private theorem admitted
    {admission : Admission κ}
    (lags : LagsAt start past id)
    (told : settled (boardAfter start past) (admissions past)
        (.admitted admission : Event α κ ε) ≠ [] →
      ∀ sequence ∈ settlementOrder start past, sequence ∈ completionOrder start past) :
    LagsAt start (past ++ [.admitted admission]) id := by
  have nextAdmissions : admissions (past ++ [Event.admitted admission]) =
      admissions past ++ [admission] := admissions_concat ..
  have isNew := length_not_mem_completionOrder start past
  by_cases isSettled : ((boardAfter start past).outcome? admission.operation).isSome
  · have settles : settled (boardAfter start past) (admissions past)
        (.admitted admission : Event α κ ε) = [(admissions past).length] := if_pos isSettled
    have nextOrder : completionOrder start (past ++ [Event.admitted admission]) =
        completionOrder start past ++ [(admissions past).length] := by
      rw [completionOrder_concat, readied, if_pos isSettled]
    have sameLag (other : OperationId) :
        lag start (past ++ [Event.admitted admission]) other = lag start past other :=
      lag_concat_eq rfl fun _ => by
        rw [nextAdmissions, nextOrder, missing_concat_both isNew]
    rw [settles] at told
    obtain ⟨sameOrders, noLag⟩ := lags.catchUp (told (List.cons_ne_nil _ _))
    refine ⟨?_, fun other _ => by rw [sameLag, noLag]⟩
    rw [settlementOrder_concat, settles, nextOrder, sameLag, noLag, sameOrders, List.append_nil]
  · have sameOrder : completionOrder start (past ++ [Event.admitted admission]) =
        completionOrder start past := completionOrder_concat_of_none (if_neg isSettled)
    refine lags.calm (if_neg isSettled) (if_neg isSettled) fun other =>
      lag_concat_eq rfl fun isOther => ?_
    rw [nextAdmissions, sameOrder, missing_concat_taken isNew, if_neg, List.append_nil]
    rintro rfl
    exact isSettled isOther

end LagsAt

end Orders

/-- Two operations, and a chronicle in which the settlement of the second one overtakes that
of the first, after both outcomes are recorded. -/
def overtaking : List (Event Unit Unit Unit) :=
  [.admitted ⟨0, .int, ()⟩, .admitted ⟨1, .int, ()⟩,
    .moved (.record 0 (.ok (.int 7))), .moved (.record 1 (.ok (.int 8))),
    .moved (.call 1 0), .moved (.call 0 0)]

example : settlementOrder Board.empty.create.1.create.1 overtaking = [0, 1] ∧
    completionOrder Board.empty.create.1.create.1 overtaking = [1, 0] := by
  decide

end Scheduler
end ScriptHost
