import ScriptHost.Board
import Mathlib.Data.List.Basic

/-!
# Views of a board

A board is read through three views: the recorded outcome of each operation, the
slots under which a mailbox waits for an operation, and the signals that a mailbox
holds. Each operation on a board is described by what it does to these views, so that
no later proof looks into the tables of a board.
-/

namespace ScriptHost
namespace Board

/-- An operation of that number is on the board. -/
def Holds
    (board : Board)
    (id : OperationId) : Prop :=
  id < board.operations.size

/-- A mailbox of that number is open. -/
def IsOpen
    (board : Board)
    (mailbox : MailboxId) : Prop :=
  mailbox < board.mailboxes.size

/-- The operation is on the board and has no outcome yet. -/
def IsPending
    (board : Board)
    (id : OperationId) : Prop :=
  board.status? id = some .pending

instance (board : Board) (id : OperationId) : Decidable (board.IsPending id) :=
  inferInstanceAs (Decidable (board.status? id = some .pending))

/-- The slots under which a mailbox waits for an operation, in order of registration. -/
def waitingSlots
    (board : Board)
    (mailbox : MailboxId)
    (id : OperationId) : List Nat :=
  ((board.operations[id]?.elim [] Operation.waiting).filter
    fun listener => listener.mailbox = mailbox).map Listener.slot

/-- The slots that the settlement of an operation has still to announce in a mailbox. -/
def dueSlots
    (board : Board)
    (mailbox : MailboxId)
    (id : OperationId) : List Nat :=
  ((board.due id).filter fun listener => listener.mailbox = mailbox).map Listener.slot

/-- The slots under which the listeners of a mailbox at an operation have not fired: those
that wait for it, and those that its settlement has still to announce. -/
def unfired
    (board : Board)
    (mailbox : MailboxId)
    (id : OperationId) : List Nat :=
  board.waitingSlots mailbox id ++ board.dueSlots mailbox id

/-- A settlement that has nobody left to call has nothing left to announce. -/
theorem dueSlots_eq_nil
    {board : Board}
    {id : OperationId}
    (mailbox : MailboxId)
    (noneDue : board.due id = []) :
    board.dueSlots mailbox id = [] := by
  rw [dueSlots, noneDue]
  rfl

/-- No signal waits in a mailbox that was never opened. -/
theorem signals_eq_nil
    {board : Board}
    {mailbox : MailboxId}
    (notOpen : ¬board.IsOpen mailbox) :
    board.signals mailbox = [] := by
  rw [signals, Array.getElem?_eq_none (Nat.le_of_not_lt notOpen)]
  rfl

/-! ## Pending and settled operations -/

/-- An operation is pending if it stands on the board with its listeners. -/
theorem isPending_iff_operations
    (board : Board)
    (id : OperationId) :
    board.IsPending id ↔ ∃ listeners, board.operations[id]? = some (.pending listeners) := by
  unfold IsPending status?
  rw [Option.map_eq_some_iff]
  constructor
  · rintro ⟨operation, found, pending⟩
    cases operation with
    | pending listeners => exact ⟨listeners, found⟩
    | settled outcome => cases outcome <;> cases pending
  · rintro ⟨listeners, found⟩
    exact ⟨.pending listeners, found, rfl⟩

/-- The operation that is created next has no outcome yet. -/
theorem outcome?_size (board : Board) : board.outcome? board.operations.size = none := by
  rw [outcome?, Array.getElem?_eq_none (Nat.le_refl _)]
  rfl

theorem outcome?_eq_some_iff_operations
    (board : Board)
    (id : OperationId)
    (outcome : Outcome) :
    board.outcome? id = some outcome ↔ board.operations[id]? = some (.settled outcome) := by
  unfold outcome?
  rw [Option.bind_eq_some_iff]
  constructor
  · rintro ⟨operation, found, isSettled⟩
    cases operation with
    | pending listeners => cases isSettled
    | settled first => cases isSettled; exact found
  · intro found
    exact ⟨.settled outcome, found, rfl⟩

/-- An operation is unknown, pending or settled. -/
theorem operations_cases
    (board : Board)
    (id : OperationId) :
    (¬board.Holds id ∧ board.operations[id]? = none) ∨
      (board.Holds id ∧ ∃ listeners, board.operations[id]? = some (.pending listeners)) ∨
      (board.Holds id ∧ ∃ outcome, board.operations[id]? = some (.settled outcome)) := by
  by_cases held : board.Holds id
  · right
    have found := Array.getElem?_eq_getElem held
    cases operation : board.operations[id] with
    | pending listeners => exact Or.inl ⟨held, listeners, operation ▸ found⟩
    | settled outcome => exact Or.inr ⟨held, outcome, operation ▸ found⟩
  · exact Or.inl ⟨held, Array.getElem?_eq_none (Nat.le_of_not_lt held)⟩

/-- Of the operations that a board holds, those are pending that have no outcome. -/
theorem isPending_iff
    (board : Board)
    (id : OperationId) :
    board.IsPending id ↔ board.Holds id ∧ board.outcome? id = none := by
  rw [isPending_iff_operations, outcome?]
  rcases board.operations_cases id with
    ⟨unknown, found⟩ | ⟨held, listeners, found⟩ | ⟨held, outcome, found⟩
  · simp [found, unknown]
  · simp [found, held, Operation.outcome?]
  · simp [found, Operation.outcome?]

/-- An operation on the board is either pending or settled. -/
theorem Holds.isPending_iff
    {board : Board}
    {id : OperationId}
    (held : board.Holds id) :
    board.IsPending id ↔ ¬(board.outcome? id).isSome := by
  rw [Board.isPending_iff, Bool.not_eq_true, Option.isSome_eq_false_iff, Option.isNone_iff_eq_none]
  exact and_iff_right held

theorem not_isPending_of_isSettled
    {board : Board}
    {id : OperationId}
    (isSettled : (board.outcome? id).isSome) :
    ¬board.IsPending id := by
  intro pending
  rw [((board.isPending_iff id).mp pending).2] at isSettled
  cases isSettled

/-- Nothing waits for an operation that is settled or unknown. -/
theorem waitingSlots_eq_nil
    {board : Board}
    {id : OperationId}
    (mailbox : MailboxId)
    (notPending : ¬board.IsPending id) :
    board.waitingSlots mailbox id = [] := by
  rw [isPending_iff_operations] at notPending
  unfold waitingSlots
  rcases board.operations_cases id with
    ⟨-, found⟩ | ⟨-, listeners, found⟩ | ⟨-, outcome, found⟩
  · rw [found]
    rfl
  · exact absurd ⟨listeners, found⟩ notPending
  · rw [found]
    rfl

/-- Putting an operation where it stands already changes nothing. -/
private theorem set_operations_self
    {board : Board}
    {id : OperationId}
    {operation : Operation Listener}
    (found : board.operations[id]? = some operation) :
    { board with operations := board.operations.set! id operation } = board := by
  obtain ⟨inRange, rfl⟩ := Array.getElem?_eq_some_iff.mp found
  rw [Array.set!_eq_setIfInBounds, Array.setIfInBounds_def, dif_pos inRange,
    Array.set_getElem_self]

/-- A change at one operation leaves the others as they are. -/
private theorem getElem?_set_operations
    {board : Board}
    {id : OperationId}
    (held : board.Holds id)
    (operation : Operation Listener)
    (other : OperationId) :
    (board.operations.set! id operation)[other]? =
      if other = id then some operation else board.operations[other]? := by
  rw [Array.set!_eq_setIfInBounds, Array.getElem?_setIfInBounds]
  by_cases same : other = id
  · rw [if_pos same.symm, if_pos (show id < board.operations.size from held), if_pos same]
  · rw [if_neg (Ne.symm same), if_neg same]

/-! ## Announcements -/

@[simp] theorem outcome?_post
    (board : Board)
    (listener : Listener)
    (id : OperationId) :
    (board.post listener).outcome? id = board.outcome? id := rfl

@[simp] theorem waitingSlots_post
    (board : Board)
    (listener : Listener)
    (mailbox : MailboxId)
    (id : OperationId) :
    (board.post listener).waitingSlots mailbox id = board.waitingSlots mailbox id := rfl

@[simp] theorem dueSlots_post
    (board : Board)
    (listener : Listener)
    (mailbox : MailboxId)
    (id : OperationId) :
    (board.post listener).dueSlots mailbox id = board.dueSlots mailbox id := rfl

@[simp] theorem isOpen_post
    (board : Board)
    (listener : Listener)
    (mailbox : MailboxId) :
    (board.post listener).IsOpen mailbox ↔ board.IsOpen mailbox := by
  simp [IsOpen, post]

/-- A posted signal goes to the end of the queue of its mailbox. -/
theorem signals_post
    {board : Board}
    {mailbox : MailboxId}
    (isOpen : board.IsOpen mailbox)
    (listener : Listener) :
    (board.post listener).signals mailbox =
      board.signals mailbox ++ if listener.mailbox = mailbox then [listener.slot] else [] := by
  unfold signals post
  rw [Array.getElem?_modify, Array.getElem?_eq_getElem isOpen]
  by_cases same : listener.mailbox = mailbox
  · simp [same]
  · simp [same]

private theorem operations_foldl_post
    (board : Board)
    (listeners : List Listener) :
    (listeners.foldl post board).operations = board.operations := by
  induction listeners generalizing board with
  | nil => rfl
  | cons listener listeners inductionHypothesis =>
      rw [List.foldl_cons, inductionHypothesis, operations_post]

private theorem due_foldl_post
    (board : Board)
    (listeners : List Listener) :
    (listeners.foldl post board).due = board.due := by
  induction listeners generalizing board with
  | nil => rfl
  | cons listener listeners inductionHypothesis =>
      rw [List.foldl_cons, inductionHypothesis]
      rfl

private theorem isOpen_foldl_post
    (board : Board)
    (listeners : List Listener)
    (mailbox : MailboxId) :
    (listeners.foldl post board).IsOpen mailbox ↔ board.IsOpen mailbox := by
  induction listeners generalizing board with
  | nil => rfl
  | cons listener listeners inductionHypothesis =>
      rw [List.foldl_cons, inductionHypothesis, isOpen_post]

/-- When several listeners are called, a mailbox receives the signals that are meant for it, in the
order of the listeners. -/
private theorem signals_foldl_post
    {board : Board}
    {mailbox : MailboxId}
    (isOpen : board.IsOpen mailbox)
    (listeners : List Listener) :
    (listeners.foldl post board).signals mailbox =
      board.signals mailbox ++
        (listeners.filter fun listener => listener.mailbox = mailbox).map Listener.slot := by
  induction listeners generalizing board with
  | nil => simp
  | cons listener listeners inductionHypothesis =>
      rw [List.foldl_cons, inductionHypothesis ((isOpen_post ..).mpr isOpen),
        signals_post isOpen, List.append_assoc]
      by_cases same : listener.mailbox = mailbox <;> simp [same]

/-! ## Settling -/

/-- Settling a pending operation announces it to those that waited for it. -/
private theorem settle_of_pending
    {board : Board}
    {id : OperationId}
    {listeners : List Listener}
    (outcome : Outcome)
    (found : board.operations[id]? = some (.pending listeners)) :
    board.settle id outcome = listeners.foldl post
      { board with operations := board.operations.set! id (.settled outcome) } := by
  rw [settle, found]
  rfl

/-- An operation that is settled or unknown cannot be settled. -/
theorem settle_of_not_isPending
    {board : Board}
    {id : OperationId}
    (outcome : Outcome)
    (notPending : ¬board.IsPending id) :
    board.settle id outcome = board := by
  rw [isPending_iff_operations] at notPending
  rcases board.operations_cases id with
    ⟨-, found⟩ | ⟨-, listeners, found⟩ | ⟨-, first, found⟩
  · rw [settle, found]
  · exact absurd ⟨listeners, found⟩ notPending
  · rw [settle, found]
    exact set_operations_self found

theorem size_settle
    (board : Board)
    (id : OperationId)
    (outcome : Outcome) :
    (board.settle id outcome).operations.size = board.operations.size := by
  by_cases pending : board.IsPending id
  · obtain ⟨listeners, found⟩ := (isPending_iff_operations ..).mp pending
    rw [settle_of_pending outcome found, operations_foldl_post, Array.size_set!]
  · rw [settle_of_not_isPending outcome pending]

theorem isOpen_settle
    (board : Board)
    (id : OperationId)
    (outcome : Outcome)
    (mailbox : MailboxId) :
    (board.settle id outcome).IsOpen mailbox ↔ board.IsOpen mailbox := by
  by_cases pending : board.IsPending id
  · obtain ⟨listeners, found⟩ := (isPending_iff_operations ..).mp pending
    rw [settle_of_pending outcome found, isOpen_foldl_post]
    rfl
  · rw [settle_of_not_isPending outcome pending]

/-- A settlement gives the operation its outcome if it is pending, and changes no other outcome. -/
theorem outcome?_settle
    (board : Board)
    (id : OperationId)
    (outcome : Outcome)
    (other : OperationId) :
    (board.settle id outcome).outcome? other =
      if board.IsPending id ∧ other = id then some outcome else board.outcome? other := by
  by_cases pending : board.IsPending id
  · obtain ⟨listeners, found⟩ := (isPending_iff_operations ..).mp pending
    have held := ((isPending_iff ..).mp pending).1
    rw [settle_of_pending outcome found, outcome?, operations_foldl_post,
      getElem?_set_operations held]
    by_cases same : other = id
    · rw [if_pos same, if_pos ⟨pending, same⟩]
      rfl
    · rw [if_neg same, if_neg fun both => same both.2]
      rfl
  · rw [settle_of_not_isPending outcome pending, if_neg fun both => pending both.1]

/-- After a settlement the operation is no longer pending, and all others are as before. -/
theorem isPending_settle
    (board : Board)
    (id : OperationId)
    (outcome : Outcome)
    (other : OperationId) :
    (board.settle id outcome).IsPending other ↔ board.IsPending other ∧ other ≠ id := by
  by_cases pending : board.IsPending id
  · rw [isPending_iff, isPending_iff, outcome?_settle, Holds, Holds, size_settle]
    by_cases same : other = id
    · simp [pending, same]
    · simp [same]
  · rw [settle_of_not_isPending outcome pending]
    refine ⟨fun isPending => ⟨isPending, ?_⟩, And.left⟩
    rintro rfl
    exact pending isPending

/-- Nobody waits any longer for an operation that has been settled. -/
theorem waitingSlots_settle
    (board : Board)
    (id : OperationId)
    (outcome : Outcome)
    (mailbox : MailboxId)
    (other : OperationId) :
    (board.settle id outcome).waitingSlots mailbox other =
      if other = id then [] else board.waitingSlots mailbox other := by
  by_cases pending : board.IsPending id
  · obtain ⟨listeners, found⟩ := (isPending_iff_operations ..).mp pending
    have held := ((isPending_iff ..).mp pending).1
    rw [settle_of_pending outcome found, waitingSlots, operations_foldl_post,
      getElem?_set_operations held]
    by_cases same : other = id
    · rw [if_pos same, if_pos same]
      rfl
    · rw [if_neg same, if_neg same]
      rfl
  · rw [settle_of_not_isPending outcome pending]
    by_cases same : other = id
    · rw [if_pos same, same, waitingSlots_eq_nil mailbox pending]
    · rw [if_neg same]

/-- Settling announces an operation in the order in which it was waited for. -/
theorem signals_settle
    {board : Board}
    {mailbox : MailboxId}
    (isOpen : board.IsOpen mailbox)
    (id : OperationId)
    (outcome : Outcome) :
    (board.settle id outcome).signals mailbox =
      board.signals mailbox ++ board.waitingSlots mailbox id := by
  by_cases pending : board.IsPending id
  · obtain ⟨listeners, found⟩ := (isPending_iff_operations ..).mp pending
    rw [settle_of_pending outcome found, signals_foldl_post (by exact isOpen), waitingSlots,
      found]
    rfl
  · rw [settle_of_not_isPending outcome pending, waitingSlots_eq_nil mailbox pending,
      List.append_nil]

/-! ## Recording -/

/-- The listeners of a pending operation are due once its outcome is recorded. -/
private theorem record_of_pending
    {board : Board}
    {id : OperationId}
    {listeners : List Listener}
    (outcome : Outcome)
    (found : board.operations[id]? = some (.pending listeners)) :
    board.record id outcome =
      { board with
        operations := board.operations.set! id (.settled outcome)
        due := fun other =>
          if other = id then board.due id ++ listeners else board.due other } := by
  rw [record, found]
  rfl

/-- An operation that is settled or unknown keeps what is recorded. -/
theorem record_of_not_isPending
    {board : Board}
    {id : OperationId}
    (outcome : Outcome)
    (notPending : ¬board.IsPending id) :
    board.record id outcome = board := by
  rw [isPending_iff_operations] at notPending
  rcases board.operations_cases id with
    ⟨-, found⟩ | ⟨-, listeners, found⟩ | ⟨-, first, found⟩
  · rw [record, found]
  · exact absurd ⟨listeners, found⟩ notPending
  · have sameDue : (fun other => if other = id then board.due id ++ [] else board.due other) =
        board.due := by
      funext other
      by_cases same : other = id <;> simp [same]
    rw [record, found]
    change ({ board with
      operations := board.operations.set! id (.settled first), due := _ }) = board
    rw [sameDue]
    exact set_operations_self found

/-- What an operation shows once it is settled, it shows as soon as its outcome is recorded. -/
private theorem operations_record
    (board : Board)
    (id : OperationId)
    (outcome : Outcome) :
    (board.record id outcome).operations = (board.settle id outcome).operations := by
  by_cases pending : board.IsPending id
  · obtain ⟨listeners, found⟩ := (isPending_iff_operations ..).mp pending
    rw [record_of_pending outcome found, settle_of_pending outcome found, operations_foldl_post]
  · rw [record_of_not_isPending outcome pending, settle_of_not_isPending outcome pending]

theorem size_record
    (board : Board)
    (id : OperationId)
    (outcome : Outcome) :
    (board.record id outcome).operations.size = board.operations.size := by
  rw [operations_record, size_settle]

/-- No mailbox is touched by the recording of an outcome. -/
@[simp] theorem mailboxes_record
    (board : Board)
    (id : OperationId)
    (outcome : Outcome) :
    (board.record id outcome).mailboxes = board.mailboxes := by
  rw [record]
  cases board.operations[id]? <;> rfl

/-- Recording gives the operation its outcome if it is pending, and changes no other outcome. -/
theorem outcome?_record
    (board : Board)
    (id : OperationId)
    (outcome : Outcome)
    (other : OperationId) :
    (board.record id outcome).outcome? other =
      if board.IsPending id ∧ other = id then some outcome else board.outcome? other := by
  rw [outcome?, operations_record, ← outcome?, outcome?_settle]

/-- Only the first outcome of an operation is recorded. -/
theorem outcome?_record_of_isSettled
    {board : Board}
    {id : OperationId}
    {first : Outcome}
    (isRecorded : board.outcome? id = some first)
    (other : OperationId)
    (later : Outcome) :
    (board.record other later).outcome? id = some first := by
  rw [outcome?_record, if_neg, isRecorded]
  rintro ⟨pending, rfl⟩
  exact not_isPending_of_isSettled (Option.isSome_of_eq_some isRecorded) pending

/-- The listeners that have waited for an operation wait no longer when its outcome is recorded. -/
theorem waitingSlots_record
    (board : Board)
    (id : OperationId)
    (outcome : Outcome)
    (mailbox : MailboxId)
    (other : OperationId) :
    (board.record id outcome).waitingSlots mailbox other =
      if other = id then [] else board.waitingSlots mailbox other := by
  rw [waitingSlots, operations_record, ← waitingSlots, waitingSlots_settle]

/-- Those that waited for an operation are due in the order in which they came. -/
theorem dueSlots_record
    (board : Board)
    (id : OperationId)
    (outcome : Outcome)
    (mailbox : MailboxId)
    (other : OperationId) :
    (board.record id outcome).dueSlots mailbox other =
      board.dueSlots mailbox other ++
        if other = id then board.waitingSlots mailbox id else [] := by
  by_cases pending : board.IsPending id
  · obtain ⟨listeners, found⟩ := (isPending_iff_operations ..).mp pending
    rw [record_of_pending outcome found, dueSlots, dueSlots]
    by_cases same : other = id
    · simp [same, waitingSlots, found, Operation.waiting]
    · simp [same]
  · rw [record_of_not_isPending outcome pending, waitingSlots_eq_nil mailbox pending, ite_self,
      List.append_nil]

/-- What the recording of an outcome makes due has waited before. -/
theorem unfired_record
    {board : Board}
    {mailbox : MailboxId}
    (isDone : ∀ id, board.IsPending id → board.dueSlots mailbox id = [])
    (id : OperationId)
    (outcome : Outcome)
    (other : OperationId) :
    (board.record id outcome).unfired mailbox other = board.unfired mailbox other := by
  rw [unfired, unfired, waitingSlots_record, dueSlots_record]
  by_cases same : other = id
  · subst same
    rw [if_pos rfl, if_pos rfl]
    -- Only one of the two lists is ever filled.
    by_cases pending : board.IsPending other
    · rw [isDone other pending, List.append_nil, List.nil_append, List.nil_append]
    · rw [waitingSlots_eq_nil mailbox pending, List.append_nil]
  · rw [if_neg same, if_neg same, List.append_nil]

/-! ## Calling -/

/-- Some listener of a mailbox is due if and only if one of its slots is. -/
theorem isSome_nextDue?_iff
    {board : Board}
    {id : OperationId}
    {mailbox : MailboxId} :
    (board.nextDue? id mailbox).isSome ↔ board.dueSlots mailbox id ≠ [] := by
  rw [nextDue?, List.find?_isSome, dueSlots, ne_eq, List.map_eq_nil_iff, List.filter_eq_nil_iff]
  push Not
  rfl

/-- Nothing is called where nothing is due. -/
theorem call_of_dueSlots_eq_nil
    {board : Board}
    {id : OperationId}
    {mailbox : MailboxId}
    (noneDue : board.dueSlots mailbox id = []) :
    board.call id mailbox = board := by
  have noNext : board.nextDue? id mailbox = none := by
    rw [← Option.not_isSome_iff_eq_none, isSome_nextDue?_iff]
    exact not_not_intro noneDue
  rw [call, noNext]

/-- The listener that is called leaves those that are due, and announces its operation. -/
private theorem call_of_isDue
    {board : Board}
    {id : OperationId}
    {mailbox : MailboxId}
    {slot : Nat}
    {slots : List Nat}
    (isDue : board.dueSlots mailbox id = slot :: slots) :
    board.call id mailbox =
      { board with
        due := fun other =>
          if other = id then (board.due id).eraseP fun listener => listener.mailbox = mailbox
          else board.due other }.post ⟨mailbox, slot⟩ := by
  obtain ⟨listener, found⟩ := Option.isSome_iff_exists.mp
    (isSome_nextDue?_iff.mpr (isDue ▸ List.cons_ne_nil slot slots))
  have isOurs := List.find?_some found
  have isFirst : listener.slot = slot := by
    have first := congrArg List.head? isDue
    rw [dueSlots, List.head?_map, List.head?_filter] at first
    rw [nextDue?] at found
    rw [found] at first
    exact Option.some.inj first
  rw [call, found, ← isFirst, ← of_decide_eq_true isOurs]

@[simp] theorem operations_call
    (board : Board)
    (id : OperationId)
    (mailbox : MailboxId) :
    (board.call id mailbox).operations = board.operations := by
  rw [call]
  cases board.nextDue? id mailbox <;> rfl

@[simp] theorem outcome?_call
    (board : Board)
    (id : OperationId)
    (mailbox : MailboxId)
    (other : OperationId) :
    (board.call id mailbox).outcome? other = board.outcome? other := by
  rw [outcome?, operations_call, outcome?]

@[simp] theorem waitingSlots_call
    (board : Board)
    (id : OperationId)
    (mailbox other : MailboxId)
    (otherId : OperationId) :
    (board.call id mailbox).waitingSlots other otherId = board.waitingSlots other otherId := by
  rw [waitingSlots, operations_call, waitingSlots]

@[simp] theorem isOpen_call
    (board : Board)
    (id : OperationId)
    (mailbox other : MailboxId) :
    (board.call id mailbox).IsOpen other ↔ board.IsOpen other := by
  rw [call]
  cases board.nextDue? id mailbox with
  | none => rfl
  | some listener => exact isOpen_post ..

/-- The next due listener of a mailbox that is called signals there, and nowhere else. -/
theorem signals_call
    {board : Board}
    {mailbox : MailboxId}
    (isOpen : board.IsOpen mailbox)
    (id : OperationId)
    (other : MailboxId) :
    (board.call id other).signals mailbox =
      board.signals mailbox ++
        if other = mailbox then (board.dueSlots mailbox id).head?.toList else [] := by
  cases isDue : board.dueSlots other id with
  | nil =>
      rw [call_of_dueSlots_eq_nil isDue]
      by_cases same : other = mailbox
      · subst same
        rw [if_pos rfl, isDue]
        exact (List.append_nil _).symm
      · rw [if_neg same, List.append_nil]
  | cons slot slots =>
      rw [call_of_isDue isDue, signals_post (by exact isOpen)]
      by_cases same : other = mailbox
      · subst same
        rw [if_pos rfl, if_pos rfl, isDue]
        rfl
      · rw [if_neg same, if_neg same]
        rfl

/-- Without its first listener, a mailbox has the rest of its listeners, in their order. -/
private theorem filter_eraseP
    (listeners : List Listener)
    (mailbox : MailboxId) :
    (listeners.eraseP fun listener => listener.mailbox = mailbox).filter
        (fun listener => listener.mailbox = mailbox) =
      (listeners.filter fun listener => listener.mailbox = mailbox).tail := by
  induction listeners with
  | nil => rfl
  | cons listener listeners inductionHypothesis =>
      by_cases isOurs : listener.mailbox = mailbox
      · simp [isOurs]
      · simp [isOurs, inductionHypothesis]

/-- When a listener of one mailbox goes, those of another one stay. -/
private theorem filter_eraseP_of_ne
    (listeners : List Listener)
    {mailbox other : MailboxId}
    (isOther : other ≠ mailbox) :
    (listeners.eraseP fun listener => listener.mailbox = mailbox).filter
        (fun listener => listener.mailbox = other) =
      listeners.filter fun listener => listener.mailbox = other := by
  induction listeners with
  | nil => rfl
  | cons listener listeners inductionHypothesis =>
      by_cases isCalled : listener.mailbox = mailbox
      · simp [isCalled, isOther.symm]
      · by_cases isOurs : listener.mailbox = other <;>
          simp [isCalled, isOurs, inductionHypothesis, isOther]

/-- A listener that is called is due no longer. -/
theorem due_call
    (board : Board)
    (id : OperationId)
    (mailbox : MailboxId)
    (other : OperationId) :
    (board.call id mailbox).due other =
      if other = id then (board.due id).eraseP fun listener => listener.mailbox = mailbox
      else board.due other := by
  rw [call]
  cases found : board.nextDue? id mailbox with
  | none =>
      rw [List.eraseP_of_forall_not (List.find?_eq_none.mp found)]
      exact (ite_eq_right_iff.mpr fun same => same ▸ rfl).symm
  | some listener => rfl

/-- Of the slots that are due, the first one goes when a listener of its mailbox is called. -/
theorem dueSlots_call
    (board : Board)
    (id : OperationId)
    (mailbox other : MailboxId)
    (otherId : OperationId) :
    (board.call id mailbox).dueSlots other otherId =
      if otherId = id ∧ other = mailbox then (board.dueSlots other otherId).tail
      else board.dueSlots other otherId := by
  rw [dueSlots, due_call]
  by_cases sameId : otherId = id
  · subst sameId
    rw [if_pos rfl]
    by_cases same : other = mailbox
    · subst same
      rw [if_pos ⟨rfl, rfl⟩, filter_eraseP, dueSlots, List.map_tail]
    · rw [if_neg fun both => same both.2, filter_eraseP_of_ne _ same, dueSlots]
  · rw [if_neg sameId, if_neg fun both => sameId both.1, dueSlots]

/-! ## A settlement without a break -/

/-- The listeners that are due for an operation, called one after the other. -/
private theorem foldl_call
    {board : Board}
    {id : OperationId}
    {listeners : List Listener}
    (isDue : board.due id = listeners) :
    listeners.foldl (fun board listener => board.call id listener.mailbox) board =
      listeners.foldl post
        { board with due := fun other => if other = id then [] else board.due other } := by
  induction listeners generalizing board with
  | nil =>
      have sameDue : (fun other => if other = id then [] else board.due other) = board.due := by
        funext other
        exact ite_eq_right_iff.mpr fun same => same ▸ isDue.symm
      rw [List.foldl_nil, List.foldl_nil, sameDue]
  | cons listener rest inductionHypothesis =>
      have isNext : board.nextDue? id listener.mailbox = some listener := by
        rw [nextDue?, isDue]
        exact List.find?_cons_of_pos (by simp)
      have isCalled : board.call id listener.mailbox =
          { board with due := fun other => if other = id then rest else board.due other }.post
            listener := by
        simp [call, isNext, isDue]
      rw [List.foldl_cons, isCalled, inductionHypothesis (if_pos rfl), List.foldl_cons]
      congr 1
      simp only [post, mk.injEq, true_and]
      funext other
      by_cases same : other = id <;> simp [same]

/-- To settle an operation is to record its outcome and to call its listeners in order. -/
theorem settle_eq_record
    {board : Board}
    {id : OperationId}
    (noneDue : board.due id = [])
    (outcome : Outcome) :
    board.settle id outcome =
      ((board.record id outcome).due id).foldl
        (fun board listener => board.call id listener.mailbox) (board.record id outcome) := by
  rw [foldl_call rfl]
  by_cases pending : board.IsPending id
  · obtain ⟨listeners, found⟩ := (isPending_iff_operations ..).mp pending
    have sameDue : (fun other => if other = id then [] else
        if other = id then board.due id ++ listeners else board.due other) = board.due := by
      funext other
      by_cases same : other = id <;> simp [same, noneDue]
    rw [settle_of_pending outcome found, record_of_pending outcome found]
    simp only [if_true, noneDue, List.nil_append]
    rw [noneDue, List.nil_append] at sameDue
    rw [sameDue]
  · have sameDue : (fun other => if other = id then [] else board.due other) = board.due := by
      funext other
      exact ite_eq_right_iff.mpr fun same => same ▸ noneDue.symm
    rw [settle_of_not_isPending outcome pending, record_of_not_isPending outcome pending, noneDue,
      sameDue]
    rfl

/-- A settlement without a break leaves nothing to call. -/
theorem due_settle
    (board : Board)
    (id : OperationId)
    (outcome : Outcome) :
    (board.settle id outcome).due = board.due := by
  by_cases pending : board.IsPending id
  · obtain ⟨listeners, found⟩ := (isPending_iff_operations ..).mp pending
    rw [settle_of_pending outcome found, due_foldl_post]
  · rw [settle_of_not_isPending outcome pending]

/-! ## Waiting -/

/-- Waiting for a pending operation puts the listener behind those that wait already. -/
private theorem listen_of_pending
    {board : Board}
    {id : OperationId}
    {listeners : List Listener}
    (listener : Listener)
    (found : board.operations[id]? = some (.pending listeners)) :
    board.listen id listener =
      { board with
        operations := board.operations.set! id (.pending (listeners ++ [listener])) } := by
  rw [listen, found]
  rfl

/-- A settled operation is announced to a new listener at once. -/
theorem listen_of_outcome
    {board : Board}
    {id : OperationId}
    {outcome : Outcome}
    (listener : Listener)
    (isSettled : board.outcome? id = some outcome) :
    board.listen id listener = board.post listener := by
  rw [outcome?_eq_some_iff_operations] at isSettled
  rw [listen, isSettled]
  exact congrArg (fun same => post same listener) (set_operations_self isSettled)

/-- Nobody can listen to an operation that the board does not hold. -/
theorem listen_of_not_holds
    {board : Board}
    {id : OperationId}
    (listener : Listener)
    (unknown : ¬board.Holds id) :
    board.listen id listener = board := by
  rw [listen, Array.getElem?_eq_none (Nat.le_of_not_lt unknown)]

theorem size_listen
    (board : Board)
    (id : OperationId)
    (listener : Listener) :
    (board.listen id listener).operations.size = board.operations.size := by
  rcases board.operations_cases id with
    ⟨unknown, -⟩ | ⟨-, listeners, found⟩ | ⟨-, outcome, found⟩
  · rw [listen_of_not_holds listener unknown]
  · rw [listen_of_pending listener found, Array.size_set!]
  · rw [listen_of_outcome listener ((outcome?_eq_some_iff_operations ..).mpr found),
      operations_post]

@[simp] theorem due_listen
    (board : Board)
    (id : OperationId)
    (listener : Listener) :
    (board.listen id listener).due = board.due := by
  rcases board.operations_cases id with
    ⟨unknown, -⟩ | ⟨-, listeners, found⟩ | ⟨-, outcome, found⟩
  · rw [listen_of_not_holds listener unknown]
  · rw [listen_of_pending listener found]
  · rw [listen_of_outcome listener ((outcome?_eq_some_iff_operations ..).mpr found)]
    rfl

@[simp] theorem dueSlots_listen
    (board : Board)
    (id : OperationId)
    (listener : Listener)
    (mailbox : MailboxId)
    (other : OperationId) :
    (board.listen id listener).dueSlots mailbox other = board.dueSlots mailbox other := by
  rw [dueSlots, due_listen, dueSlots]

theorem isOpen_listen
    (board : Board)
    (id : OperationId)
    (listener : Listener)
    (mailbox : MailboxId) :
    (board.listen id listener).IsOpen mailbox ↔ board.IsOpen mailbox := by
  rcases board.operations_cases id with
    ⟨unknown, -⟩ | ⟨-, listeners, found⟩ | ⟨-, outcome, found⟩
  · rw [listen_of_not_holds listener unknown]
  · rw [listen_of_pending listener found]
    rfl
  · rw [listen_of_outcome listener ((outcome?_eq_some_iff_operations ..).mpr found),
      isOpen_post]

theorem outcome?_listen
    (board : Board)
    (id : OperationId)
    (listener : Listener)
    (other : OperationId) :
    (board.listen id listener).outcome? other = board.outcome? other := by
  rcases board.operations_cases id with
    ⟨unknown, -⟩ | ⟨held, listeners, found⟩ | ⟨-, outcome, found⟩
  · rw [listen_of_not_holds listener unknown]
  · rw [listen_of_pending listener found, outcome?, getElem?_set_operations held]
    by_cases same : other = id
    · rw [if_pos same, outcome?, same, found]
      rfl
    · rw [if_neg same, outcome?]
  · rw [listen_of_outcome listener ((outcome?_eq_some_iff_operations ..).mpr found),
      outcome?_post]

/-- A listener waits if the operation is pending, behind those that wait already. -/
theorem waitingSlots_listen
    (board : Board)
    (id : OperationId)
    (listener : Listener)
    (mailbox : MailboxId)
    (other : OperationId) :
    (board.listen id listener).waitingSlots mailbox other =
      board.waitingSlots mailbox other ++
        if (board.IsPending id ∧ other = id) ∧ listener.mailbox = mailbox then [listener.slot]
        else [] := by
  rcases board.operations_cases id with
    ⟨unknown, found⟩ | ⟨held, listeners, found⟩ | ⟨-, outcome, found⟩
  · have notPending : ¬board.IsPending id := by
      rw [isPending_iff]
      exact fun both => unknown both.1
    simp [listen_of_not_holds listener unknown, notPending]
  · have pending : board.IsPending id := (isPending_iff_operations ..).mpr ⟨listeners, found⟩
    rw [listen_of_pending listener found, waitingSlots, getElem?_set_operations held]
    by_cases same : other = id
    · by_cases here : listener.mailbox = mailbox <;>
        simp [waitingSlots, Operation.waiting, same, found, pending, here]
    · simp [waitingSlots, same]
  · have isSettled := (outcome?_eq_some_iff_operations ..).mpr found
    have notPending : ¬board.IsPending id := by
      rw [isPending_iff, isSettled]
      exact fun both => nomatch both.2
    simp [listen_of_outcome listener isSettled, notPending]

/-- A listener that comes late is announced at once, behind what is announced already. -/
theorem signals_listen
    {board : Board}
    {mailbox : MailboxId}
    (isOpen : board.IsOpen mailbox)
    (id : OperationId)
    (listener : Listener) :
    (board.listen id listener).signals mailbox =
      board.signals mailbox ++
        if (board.outcome? id).isSome ∧ listener.mailbox = mailbox then [listener.slot]
        else [] := by
  rcases board.operations_cases id with
    ⟨unknown, found⟩ | ⟨-, listeners, found⟩ | ⟨-, outcome, found⟩
  · simp [listen_of_not_holds listener unknown, outcome?, found]
  · rw [listen_of_pending listener found]
    simp [outcome?, found, Operation.outcome?, signals]
  · have isSettled := (outcome?_eq_some_iff_operations ..).mpr found
    rw [listen_of_outcome listener isSettled, signals_post isOpen, isSettled]
    simp

/-! ## New operations and mailboxes -/

@[simp] theorem size_create (board : Board) :
    board.create.1.operations.size = board.operations.size + 1 :=
  Array.size_push ..

@[simp] theorem isOpen_create
    (board : Board)
    (mailbox : MailboxId) :
    board.create.1.IsOpen mailbox ↔ board.IsOpen mailbox := Iff.rfl

/-- An operation that is created is neither settled nor waited for. -/
private theorem getElem?_create_operations
    (board : Board)
    (id : OperationId) :
    board.create.1.operations[id]? =
      if id = board.operations.size then some .fresh else board.operations[id]? := by
  rw [create, Array.getElem?_push]

@[simp] theorem outcome?_create
    (board : Board)
    (id : OperationId) :
    board.create.1.outcome? id = board.outcome? id := by
  rw [outcome?, getElem?_create_operations, outcome?]
  by_cases isNew : id = board.operations.size
  · rw [if_pos isNew, isNew, Array.getElem?_eq_none (Nat.le_refl _)]
    rfl
  · rw [if_neg isNew]

@[simp] theorem waitingSlots_create
    (board : Board)
    (mailbox : MailboxId)
    (id : OperationId) :
    board.create.1.waitingSlots mailbox id = board.waitingSlots mailbox id := by
  rw [waitingSlots, getElem?_create_operations, waitingSlots]
  by_cases isNew : id = board.operations.size
  · rw [if_pos isNew, isNew, Array.getElem?_eq_none (Nat.le_refl _)]
    rfl
  · rw [if_neg isNew]

/-- Opening a mailbox adds one, which has the next number. -/
theorem isOpen_openMailbox
    (board : Board)
    (mailbox : MailboxId) :
    board.openMailbox.1.IsOpen mailbox ↔
      board.IsOpen mailbox ∨ mailbox = board.mailboxes.size := by
  simp only [IsOpen, openMailbox, Array.size_push]
  exact Nat.lt_succ_iff_lt_or_eq

theorem signals_openMailbox
    (board : Board)
    (mailbox : MailboxId) :
    board.openMailbox.1.signals mailbox = board.signals mailbox := by
  simp only [signals, openMailbox, Array.getElem?_push]
  by_cases isNew : mailbox = board.mailboxes.size
  · rw [if_pos isNew, isNew, Array.getElem?_eq_none (Nat.le_refl _)]
    rfl
  · rw [if_neg isNew]

/-! ## Taking signals -/

@[simp] theorem outcome?_setSignals
    (board : Board)
    (mailbox : MailboxId)
    (queue : List Nat)
    (id : OperationId) :
    (board.setSignals mailbox queue).outcome? id = board.outcome? id := rfl

@[simp] theorem isOpen_setSignals
    (board : Board)
    (mailbox : MailboxId)
    (queue : List Nat)
    (other : MailboxId) :
    (board.setSignals mailbox queue).IsOpen other ↔ board.IsOpen other := by
  simp [IsOpen, setSignals]

/-- The queue of one mailbox can be replaced without a change to the others. -/
theorem signals_setSignals
    {board : Board}
    {other : MailboxId}
    (isOpen : board.IsOpen other)
    (mailbox : MailboxId)
    (queue : List Nat) :
    (board.setSignals mailbox queue).signals other =
      if mailbox = other then queue else board.signals other := by
  unfold signals setSignals
  rw [Array.getElem?_modify, Array.getElem?_eq_getElem isOpen]
  by_cases same : mailbox = other
  · rw [if_pos same, if_pos same]
    rfl
  · rw [if_neg same, if_neg same]

/-! ## Agreement -/

/-- Two boards hold the same operations with the same outcomes. Who waits for them, and
what is announced where, may differ. -/
structure Agrees (board other : Board) : Prop where
  size : board.operations.size = other.operations.size
  outcome : ∀ id, board.outcome? id = other.outcome? id

namespace Agrees

variable {board other : Board}

theorem refl (board : Board) : board.Agrees board :=
  ⟨rfl, fun _ => rfl⟩

/-- Boards that agree have the same pending operations. -/
theorem isPending_iff
    (agrees : board.Agrees other)
    (id : OperationId) :
    board.IsPending id ↔ other.IsPending id := by
  rw [Board.isPending_iff, Board.isPending_iff, Holds, Holds, agrees.size, agrees.outcome]

/-- Boards that agree still do when an operation is created on both. -/
theorem create (agrees : board.Agrees other) : board.create.1.Agrees other.create.1 where
  size := by rw [size_create, size_create, agrees.size]
  outcome id := by rw [outcome?_create, outcome?_create, agrees.outcome]

/-- Boards that agree still do when an outcome is recorded on both. -/
theorem record
    (agrees : board.Agrees other)
    (id : OperationId)
    (outcome : Outcome) :
    (board.record id outcome).Agrees (other.record id outcome) where
  size := by rw [size_record, size_record, agrees.size]
  outcome id := by simp only [outcome?_record, agrees.isPending_iff, agrees.outcome]

/-- Boards that agree still do when a listener is called on both. -/
theorem call
    (agrees : board.Agrees other)
    (id : OperationId)
    (mailbox : MailboxId) :
    (board.call id mailbox).Agrees (other.call id mailbox) where
  size := by rw [operations_call, operations_call, agrees.size]
  outcome id := by rw [outcome?_call, outcome?_call, agrees.outcome]

/-- Who listens does not matter to whether boards agree. -/
theorem listen
    (agrees : board.Agrees other)
    (id : OperationId)
    (listener : Listener) :
    (board.listen id listener).Agrees other where
  size := by rw [size_listen, agrees.size]
  outcome id := by rw [outcome?_listen, agrees.outcome]

theorem symm (agrees : board.Agrees other) : other.Agrees board where
  size := agrees.size.symm
  outcome id := (agrees.outcome id).symm

end Agrees

/-- Two boards agree, and the settlements on them have the same listeners still to call. -/
structure Resembles (board other : Board) : Prop extends Agrees board other where
  due : board.due = other.due

theorem resembles_openMailbox (board : Board) : board.openMailbox.1.Resembles board :=
  ⟨⟨rfl, fun _ => rfl⟩, rfl⟩

theorem resembles_listen
    (board : Board)
    (id : OperationId)
    (listener : Listener) :
    (board.listen id listener).Resembles board :=
  ⟨(Agrees.refl board).listen id listener, due_listen ..⟩

theorem resembles_setSignals
    (board : Board)
    (mailbox : MailboxId)
    (queue : List Nat) :
    (board.setSignals mailbox queue).Resembles board :=
  ⟨⟨rfl, fun _ => rfl⟩, rfl⟩

end Board
end ScriptHost
