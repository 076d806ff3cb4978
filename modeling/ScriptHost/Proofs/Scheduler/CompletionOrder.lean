import ScriptHost.Proofs.Scheduler.Chronicle
import Mathlib.Data.List.Induction
import Mathlib.Data.List.Nodup
import Mathlib.Data.List.Perm.Subperm

/-!
# Completion order

An operation is ready for dispatch from the moment at which it is both taken in and
settled. The order of these moments is read off a chronicle, without a look at slots or
mailboxes: an operation that is taken in when its outcome is recorded already is ready at
once, and when an operation settles, all that observe it become ready in the order in which
they were taken in.

A settlement is no single moment: the outcome is recorded first, and then one observer after
the other is told. Settlements on several threads overlap, and then an operation whose
outcome was recorded first may be the last to tell. What an observer of an operation can see
of its completion is that it is told, and so an operation that was taken in is ready when its
settlement tells so. As long as settlements do not overlap, this is also the order in which
the outcomes were recorded.
-/

namespace ScriptHost
namespace Scheduler

variable {α κ ε : Type}

/-- The sequences under which an operation was taken in. -/
def observers
    (taken : List (Admission κ))
    (id : OperationId) : List Nat :=
  taken.findIdxs fun admission => admission.operation = id

/-- What an operation that was taken in hands out, once it is settled. -/
def completionOf
    (board : Board)
    (taken : List (Admission κ))
    (sequence : Nat) : Option (Completion κ) :=
  taken[sequence]?.bind fun admission =>
    (board.outcome? admission.operation).map fun outcome =>
      ⟨sequence, admission.callback, deliveryOf admission.type outcome⟩

/-- The sequences under which an operation was taken in, without those that are in an order. -/
def missing
    (taken : List (Admission κ))
    (order : List Nat)
    (id : OperationId) : List Nat :=
  (observers taken id).filter fun sequence => sequence ∉ order

/-- The sequences that an event makes ready, given the board, the operations taken in and the
order before it. Each call of a listener of the run tells the first that observes the
operation and is not ready. -/
def readied
    (mailbox : MailboxId)
    (board : Board)
    (taken : List (Admission κ))
    (order : List Nat) : Event α κ ε → List Nat
  | .moved (.call id called) =>
      if called = mailbox ∧ (board.outcome? id).isSome then (missing taken order id).head?.toList
      else []
  | .admitted admission =>
      if (board.outcome? admission.operation).isSome then [taken.length] else []
  | _ => []

/-- The order in which operations are ready after some events, given the order before them. -/
def readyFrom
    (mailbox : MailboxId)
    (board : Board)
    (taken : List (Admission κ))
    (order : List Nat) : List (Event α κ ε) → List Nat
  | [] => order
  | event :: events =>
      readyFrom mailbox (event.onBoard board) (taken ++ event.admission?.toList)
        (order ++ readied mailbox board taken order event) events

/-- The order in which the operations of a run become ready. Its mailbox is the one that the
board opens next. -/
def completionOrder
    (start : Board)
    (events : List (Event α κ ε)) : List Nat :=
  readyFrom start.mailboxes.size start [] [] events

/-! ## Observers -/

/-- The observers of an operation are the sequences under which it was taken in. -/
theorem mem_observers
    {taken : List (Admission κ)}
    {id : OperationId}
    {sequence : Nat} :
    sequence ∈ observers taken id ↔
      ∃ admission, taken[sequence]? = some admission ∧ admission.operation = id := by
  rw [observers, List.mem_findIdxs_iff_exists_getElem_pos]
  constructor
  · rintro ⟨inRange, same⟩
    exact ⟨taken[sequence], List.getElem?_eq_getElem inRange, of_decide_eq_true same⟩
  · rintro ⟨admission, found, same⟩
    obtain ⟨inRange, rfl⟩ := List.getElem?_eq_some_iff.mp found
    exact ⟨inRange, decide_eq_true same⟩

theorem nodup_observers
    (taken : List (Admission κ))
    (id : OperationId) :
    (observers taken id).Nodup :=
  List.nodup_findIdxs

/-- An operation that is taken in has one observer more. -/
theorem observers_concat
    (taken : List (Admission κ))
    (admission : Admission κ)
    (id : OperationId) :
    observers (taken ++ [admission]) id =
      observers taken id ++ if admission.operation = id then [taken.length] else [] := by
  rw [observers, List.findIdxs_append, List.findIdxs_singleton, Nat.zero_add]
  simp only [decide_eq_true_eq]
  rfl

/-- An observer that has become ready is missing no more. -/
theorem missing_concat_order
    (taken : List (Admission κ))
    (order : List Nat)
    (sequence : Nat)
    (id : OperationId) :
    missing taken (order ++ [sequence]) id =
      (missing taken order id).filter fun other => other ≠ sequence := by
  rw [missing, missing, List.filter_filter]
  refine List.filter_congr fun other _ => ?_
  simp [and_comm]

/-- Of those that are not in an order, one that was just taken in comes last. -/
theorem missing_concat_taken
    {taken : List (Admission κ)}
    {order : List Nat}
    (isNew : taken.length ∉ order)
    (admission : Admission κ)
    (id : OperationId) :
    missing (taken ++ [admission]) order id =
      missing taken order id ++ if admission.operation = id then [taken.length] else [] := by
  rw [missing, observers_concat, List.filter_append, missing]
  by_cases same : admission.operation = id <;> simp [same, isNew]

/-- An observer is missing if it is not in the order. -/
theorem mem_missing
    {taken : List (Admission κ)}
    {order : List Nat}
    {id : OperationId}
    {sequence : Nat} :
    sequence ∈ missing taken order id ↔ sequence ∈ observers taken id ∧ sequence ∉ order := by
  rw [missing, List.mem_filter, decide_eq_true_eq]

theorem nodup_missing
    (taken : List (Admission κ))
    (order : List Nat)
    (id : OperationId) :
    (missing taken order id).Nodup :=
  (nodup_observers taken id).filter _

/-- Those that observe an operation were taken in. -/
theorem lt_of_mem_observers
    {taken : List (Admission κ)}
    {id : OperationId}
    {sequence : Nat}
    (observes : sequence ∈ observers taken id) :
    sequence < taken.length := by
  obtain ⟨admission, found, -⟩ := mem_observers.mp observes
  exact (List.getElem?_eq_some_iff.mp found).1

/-- An entry of a table observes one operation only. -/
theorem eq_of_mem_observers
    {taken : List (Admission κ)}
    {id other : OperationId}
    {sequence : Nat}
    (observes : sequence ∈ observers taken id)
    (alsoObserves : sequence ∈ observers taken other) :
    other = id := by
  obtain ⟨admission, found, rfl⟩ := mem_observers.mp observes
  obtain ⟨same, alsoFound, rfl⟩ := mem_observers.mp alsoObserves
  rw [found] at alsoFound
  cases alsoFound
  rfl

/-- Once the first that is missing has become ready, the others are left. -/
theorem missing_concat_first
    {taken : List (Admission κ)}
    {order : List Nat}
    {id : OperationId}
    {sequence : Nat}
    {later : List Nat}
    (isMissing : missing taken order id = sequence :: later) :
    missing taken (order ++ [sequence]) id = later := by
  have nodup := nodup_missing taken order id
  rw [isMissing, List.nodup_cons] at nodup
  rw [missing_concat_order, isMissing, List.filter_cons_of_neg (by simp), List.filter_eq_self.mpr]
  exact fun other member => decide_eq_true fun same => nodup.1 (same ▸ member)

/-- What was not missing is not missed when it becomes ready. -/
theorem missing_concat_of_not_mem
    {taken : List (Admission κ)}
    {order : List Nat}
    {id : OperationId}
    {sequence : Nat}
    (notMissing : sequence ∉ missing taken order id) :
    missing taken (order ++ [sequence]) id = missing taken order id := by
  rw [missing_concat_order, List.filter_eq_self.mpr]
  exact fun other member => decide_eq_true fun same => notMissing (same ▸ member)

/-- What is taken in and joins the order at once is not missing. -/
theorem missing_concat_both
    {taken : List (Admission κ)}
    {order : List Nat}
    (isNew : taken.length ∉ order)
    (admission : Admission κ)
    (id : OperationId) :
    missing (taken ++ [admission]) (order ++ [taken.length]) id = missing taken order id := by
  have others : (missing taken order id).filter (fun other => other ≠ taken.length) =
      missing taken order id :=
    List.filter_eq_self.mpr fun sequence member =>
      decide_eq_true (Nat.ne_of_lt (lt_of_mem_observers (mem_missing.mp member).1))
  rw [missing_concat_order, missing_concat_taken isNew, List.filter_append, others]
  by_cases same : admission.operation = id <;> simp [same]

/-! ## What is handed out -/

/-- An operation that was taken in is completed by its outcome. -/
theorem completionOf_eq_some_iff
    {board : Board}
    {taken : List (Admission κ)}
    {sequence : Nat}
    {completion : Completion κ} :
    completionOf board taken sequence = some completion ↔
      ∃ admission outcome, taken[sequence]? = some admission ∧
        board.outcome? admission.operation = some outcome ∧
        completion = ⟨sequence, admission.callback, deliveryOf admission.type outcome⟩ := by
  simp only [completionOf, Option.bind_eq_some_iff, Option.map_eq_some_iff]
  constructor
  · rintro ⟨admission, found, outcome, isSettled, rfl⟩
    exact ⟨admission, outcome, found, isSettled, rfl⟩
  · rintro ⟨admission, outcome, found, isSettled, rfl⟩
    exact ⟨admission, found, outcome, isSettled, rfl⟩

/-- What is ready stays so, and hands out the same, while more is taken in and more
settles. -/
theorem completionOf_mono
    {board later : Board}
    {taken : List (Admission κ)}
    {sequence : Nat}
    {completion : Completion κ}
    (more : List (Admission κ))
    (keeps : ∀ id outcome, board.outcome? id = some outcome → later.outcome? id = some outcome)
    (isReady : completionOf board taken sequence = some completion) :
    completionOf later (taken ++ more) sequence = some completion := by
  obtain ⟨admission, outcome, found, isSettled, rfl⟩ := completionOf_eq_some_iff.mp isReady
  obtain ⟨inRange, -⟩ := List.getElem?_eq_some_iff.mp found
  refine completionOf_eq_some_iff.mpr ⟨admission, outcome, ?_, keeps _ _ isSettled, rfl⟩
  rw [List.getElem?_append_left inRange, found]

/-- What is complete stays so. -/
theorem isSome_completionOf_mono
    {board later : Board}
    {taken : List (Admission κ)}
    {sequence : Nat}
    (more : List (Admission κ))
    (keeps : ∀ id outcome, board.outcome? id = some outcome → later.outcome? id = some outcome)
    (isReady : (completionOf board taken sequence).isSome) :
    (completionOf later (taken ++ more) sequence).isSome := by
  obtain ⟨_, isReady⟩ := Option.isSome_iff_exists.mp isReady
  exact Option.isSome_of_eq_some (completionOf_mono more keeps isReady)

/-! ## The orders so far -/

/-- Events make observers ready one sequence of events after the other. -/
theorem readyFrom_append
    (mailbox : MailboxId)
    (board : Board)
    (taken : List (Admission κ))
    (order : List Nat)
    (past future : List (Event α κ ε)) :
    readyFrom mailbox board taken order (past ++ future) =
      readyFrom mailbox (boardAfter board past) (taken ++ admissions past)
        (readyFrom mailbox board taken order past) future := by
  induction past generalizing board taken order with
  | nil =>
      change _ = readyFrom mailbox board (taken ++ []) order future
      rw [List.append_nil]
      rfl
  | cons event past inductionHypothesis =>
      change readyFrom mailbox _ _ _ (past ++ future) = _
      rw [inductionHypothesis, List.append_assoc]
      cases event <;> rfl

/-- An event puts the observers that it makes ready at the end of the order. -/
theorem completionOrder_concat
    (start : Board)
    (past : List (Event α κ ε))
    (event : Event α κ ε) :
    completionOrder start (past ++ [event]) =
      completionOrder start past ++
        readied start.mailboxes.size (boardAfter start past) (admissions past)
          (completionOrder start past) event := by
  rw [completionOrder, readyFrom_append, List.nil_append]
  rfl

theorem completionOrder_concat_of_none
    {start : Board}
    {past : List (Event α κ ε)}
    {event : Event α κ ε}
    (noneReady : readied start.mailboxes.size (boardAfter start past) (admissions past)
      (completionOrder start past) event = []) :
    completionOrder start (past ++ [event]) = completionOrder start past := by
  rw [completionOrder_concat, noneReady, List.append_nil]

/-! ## What is ready -/

/-- Whatever happens, an outcome that is recorded stays. -/
theorem Event.outcome?_onBoard
    {board : Board}
    {id : OperationId}
    {outcome : Outcome}
    (event : Event α κ ε)
    (isRecorded : board.outcome? id = some outcome) :
    (event.onBoard board).outcome? id = some outcome := by
  cases event with
  | moved move =>
      cases move with
      | create => exact (Board.outcome?_create board id).trans isRecorded
      | record other later =>
          exact Board.outcome?_record_of_isSettled isRecorded other later
      | call other mailbox => exact (Board.outcome?_call ..).trans isRecorded
      | listen other listener => exact (Board.outcome?_listen ..).trans isRecorded
      | _ => exact isRecorded
  | _ => exact isRecorded

/-- What an event makes ready observes a settled operation and was not ready before, or was
just taken in settled. -/
theorem mem_readied
    {mailbox : MailboxId}
    {board : Board}
    {taken : List (Admission κ)}
    {order : List Nat}
    {event : Event α κ ε}
    {sequence : Nat}
    (isReadied : sequence ∈ readied mailbox board taken order event) :
    (∃ id, event = .moved (.call id mailbox) ∧ (board.outcome? id).isSome ∧
      (missing taken order id).head? = some sequence) ∨
    ∃ admission, event = .admitted admission ∧ (board.outcome? admission.operation).isSome ∧
      sequence = taken.length := by
  cases event with
  | moved move =>
      cases move with
      | call id called =>
          obtain ⟨⟨rfl, isSettled⟩, isFirst⟩ := List.mem_ite_nil_right.mp isReadied
          exact .inl ⟨id, rfl, isSettled, Option.mem_toList.mp isFirst⟩
      | _ => cases isReadied
  | admitted admission =>
      obtain ⟨isSettled, isLast⟩ := List.mem_ite_nil_right.mp isReadied
      exact .inr ⟨admission, rfl, isSettled, List.mem_singleton.mp isLast⟩
  | _ => cases isReadied

/-- Nothing is ready before it is taken in and the outcome of its operation is recorded. -/
theorem isSome_completionOf_of_mem
    {start : Board}
    {events : List (Event α κ ε)}
    {sequence : Nat}
    (isReady : sequence ∈ completionOrder start events) :
    (completionOf (boardAfter start events) (admissions events) sequence).isSome := by
  induction events using List.reverseRecOn with
  | nil => cases isReady
  | append_singleton past event inductionHypothesis =>
      rw [completionOrder_concat, List.mem_append] at isReady
      rw [boardAfter_concat, admissions_concat]
      rcases isReady with earlier | isReadied
      · exact isSome_completionOf_mono _ (fun _ _ => event.outcome?_onBoard)
          (inductionHypothesis earlier)
      · rcases mem_readied isReadied with
          ⟨id, rfl, isSettled, isFirst⟩ | ⟨admission, rfl, isSettled, rfl⟩
        · have isMissing := mem_missing.mp (List.mem_of_mem_head? isFirst)
          obtain ⟨admission, found, rfl⟩ := mem_observers.mp isMissing.1
          obtain ⟨outcome, isRecorded⟩ := Option.isSome_iff_exists.mp isSettled
          refine Option.isSome_of_eq_some (completionOf_eq_some_iff.mpr
            ⟨admission, outcome, ?_, Event.outcome?_onBoard _ isRecorded, rfl⟩)
          exact (List.append_nil _).symm ▸ found
        · obtain ⟨outcome, isRecorded⟩ := Option.isSome_iff_exists.mp isSettled
          exact Option.isSome_of_eq_some (completionOf_eq_some_iff.mpr
            ⟨admission, outcome, List.getElem?_concat_length, isRecorded, rfl⟩)

/-- Only what was taken in becomes ready. -/
theorem lt_of_mem_completionOrder
    {start : Board}
    {events : List (Event α κ ε)}
    {sequence : Nat}
    (isReady : sequence ∈ completionOrder start events) :
    sequence < (admissions events).length := by
  obtain ⟨completion, found⟩ := Option.isSome_iff_exists.mp (isSome_completionOf_of_mem isReady)
  obtain ⟨admission, outcome, found, -⟩ := completionOf_eq_some_iff.mp found
  exact (List.getElem?_eq_some_iff.mp found).1

/-- What is taken in next is not ready yet. -/
theorem length_not_mem_completionOrder
    (start : Board)
    (events : List (Event α κ ε)) :
    (admissions events).length ∉ completionOrder start events :=
  fun isReady => Nat.lt_irrefl _ (lt_of_mem_completionOrder isReady)

/-- An operation that is taken in becomes ready once. -/
theorem nodup_completionOrder
    (start : Board)
    (events : List (Event α κ ε)) :
    (completionOrder start events).Nodup := by
  induction events using List.reverseRecOn with
  | nil => exact List.nodup_nil
  | append_singleton past event inductionHypothesis =>
      rw [completionOrder_concat]
      refine inductionHypothesis.append ?_ fun sequence earlier isReadied => ?_
      · unfold readied
        split
        · split
          · exact Option.toList_nodup _
          · exact List.nodup_nil
        · split
          · exact List.nodup_singleton _
          · exact List.nodup_nil
        · exact List.nodup_nil
      · rcases mem_readied isReadied with ⟨id, -, -, isFirst⟩ | ⟨admission, -, -, rfl⟩
        · exact (mem_missing.mp (List.mem_of_mem_head? isFirst)).2 earlier
        · exact length_not_mem_completionOrder start past earlier

/-- Only operations that were taken in become ready, each once. -/
theorem completionOrder_subperm
    (start : Board)
    (events : List (Event α κ ε)) :
    (completionOrder start events).Subperm (List.range (admissions events).length) :=
  List.subperm_of_subset (nodup_completionOrder start events) fun _ isReady =>
    List.mem_range.mpr (lt_of_mem_completionOrder isReady)

/-- No more becomes ready than was taken in. -/
theorem length_completionOrder_le
    (start : Board)
    (events : List (Event α κ ε)) :
    (completionOrder start events).length ≤ (admissions events).length := by
  have counted := (completionOrder_subperm start events).length_le
  rwa [List.length_range] at counted

end Scheduler
end ScriptHost
