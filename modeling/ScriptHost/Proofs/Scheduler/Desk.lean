import ScriptHost.Proofs.Scheduler.Chronicle
import ScriptHost.Proofs.Scheduler.Slots

/-!
# A slot table at work

Operations settle while a slot table takes some of them in and hands them out. A settlement
records the outcome in one step, and calls the listeners afterwards, one at a time, so that the
table and other settlements go on while some listeners are still to be called. The steps say no
more of threads than this: every interleaving of threads is a sequence of steps.

A table registers a listener for each operation that it takes in while the operation is pending.
Each of these listeners is noted on a ticket until it fires, so that it can be told which
operation that was taken in has registered it. Nothing reads the tickets.
-/

namespace ScriptHost
namespace Scheduler

variable {α κ : Type}

/-- A listener of a table that has not fired: the operation that it waits for, the entry that it
announces, and the sequence under which the operation was taken in when it was registered. -/
structure Ticket where
  operation : OperationId
  index : Nat
  sequence : Nat
  deriving DecidableEq

/-- A slot table at work on a board. -/
structure Desk (κ : Type) where
  slots : Slots κ
  board : Board
  tickets : List Ticket

namespace Desk

/-- The signals that wait for the table, oldest first. -/
def signals (desk : Desk κ) : List Nat :=
  desk.board.signals desk.slots.mailbox

/-- The entries that the listeners of the table at an operation announce, if they have not fired:
those that wait for the operation, and those that its settlement has still to call. -/
def unfired
    (desk : Desk κ)
    (id : OperationId) : List Nat :=
  desk.board.unfired desk.slots.mailbox id

/-- The tickets of the listeners at an operation, in order of registration. -/
def ticketsOf
    (desk : Desk κ)
    (id : OperationId) : List Ticket :=
  desk.tickets.filter fun ticket => ticket.operation = id

/-- The entries that are announced, and those that unfired listeners are to announce. -/
def owed (desk : Desk κ) : List Nat :=
  desk.signals ++ desk.tickets.map Ticket.index

/-- A table without entries, which opens a mailbox on a board. -/
def opening
    (limit : Nat)
    (board : Board) : Desk κ :=
  ⟨.new limit board.mailboxes.size, board.openMailbox.1, []⟩

/-- The tickets after a move. When a listener of the table is called, the first ticket of the
operation goes. -/
def ticketsAfter (desk : Desk κ) : Move α → List Ticket
  | .call id mailbox =>
      if mailbox = desk.slots.mailbox ∧ (desk.board.nextDue? id mailbox).isSome then
        desk.tickets.eraseP fun ticket => ticket.operation = id
      else desk.tickets
  | _ => desk.tickets

/-- Others make a move, or a settlement does its next step. -/
def move
    (desk : Desk κ)
    (move : Move α) : Desk κ :=
  { desk with
    board := move.onBoard desk.board
    tickets := desk.ticketsAfter move }

/-- Take an operation in. Its listener is noted if it does not fire at once. -/
def takeIn
    (desk : Desk κ)
    (admission : Admission κ) : Desk κ :=
  let (slots, board) := desk.slots.occupy desk.board admission
  { desk with
    slots := slots
    board := board
    tickets := desk.tickets ++
      if desk.board.IsPending admission.operation then
        [⟨admission.operation, desk.slots.nextIndex, desk.slots.nextSequence⟩]
      else [] }

/-- Go on with the slots and the signals that are left when an operation is handed out. -/
def handOut
    (desk : Desk κ)
    (slots : Slots κ)
    (signals : List Nat) : Desk κ :=
  { desk with
    slots := slots
    board := desk.board.setSignals desk.slots.mailbox signals }

/-- One step of the table, of a settlement, or of others, who keep out of the mailbox of the
table. The table takes in only while it is not full, and hands out what it is told by its
signals. -/
inductive Step : Desk κ → Desk κ → Prop
  | moves
      {α : Type}
      {desk : Desk κ}
      (move : Move α)
      (spares : move.Spares desk.slots.mailbox) :
      Step desk (desk.move move)
  | takesIn
      {desk : Desk κ}
      (admission : Admission κ)
      (room : desk.slots.isFull = false)
      (isHeld : desk.board.Holds admission.operation) :
      Step desk (desk.takeIn admission)
  | handsOut
      {desk : Desk κ}
      {completion : Completion κ}
      {slots : Slots κ}
      {signals : List Nat}
      (announced : desk.slots.complete? desk.board desk.signals =
        some (completion, slots, signals)) :
      Step desk (desk.handOut slots signals)

/-- A table has come from its start to where it is, by way of what it was in the past. -/
inductive Course (start : Desk κ) : List (Desk κ) → Desk κ → Prop
  | begins : Course start [] start
  | goesOn
      {past : List (Desk κ)}
      {desk next : Desk κ}
      (course : Course start past desk)
      (step : Step desk next) :
      Course start (past ++ [desk]) next

/-! ## Moves -/

variable {desk : Desk κ}

@[simp] theorem slots_move
    (desk : Desk κ)
    (move : Move α) :
    (desk.move move).slots = desk.slots := rfl

@[simp] theorem board_move
    (desk : Desk κ)
    (move : Move α) :
    (desk.move move).board = move.onBoard desk.board := rfl

theorem tickets_record
    (desk : Desk κ)
    (id : OperationId)
    (outcome : Outcome) :
    (desk.move (.record id outcome : Move α)).tickets = desk.tickets := rfl

theorem tickets_call
    (desk : Desk κ)
    (id : OperationId)
    (mailbox : MailboxId) :
    (desk.move (.call id mailbox : Move α)).tickets =
      if mailbox = desk.slots.mailbox ∧ desk.board.dueSlots mailbox id ≠ [] then
        desk.tickets.eraseP fun ticket => ticket.operation = id
      else desk.tickets :=
  if_congr (and_congr_right' Board.isSome_nextDue?_iff) rfl rfl

/-- A later board looks to a mailbox and to those who ask for outcomes as it did. -/
structure LooksAlike
    (mailbox : MailboxId)
    (board later : Board) : Prop where
  isOpen : later.IsOpen mailbox
  outcome : ∀ id, later.outcome? id = board.outcome? id
  waiting : ∀ id, later.waitingSlots mailbox id = board.waitingSlots mailbox id
  due : ∀ id, later.dueSlots mailbox id = board.dueSlots mailbox id
  signals : later.signals mailbox = board.signals mailbox

/-- Only a settlement changes what a mailbox that is spared can see. -/
theorem looksAlike_onBoard
    {mailbox : MailboxId}
    {board : Board}
    {move : Move α}
    (isOpen : board.IsOpen mailbox)
    (spares : move.Spares mailbox)
    (recordsNothing : ∀ id outcome, move ≠ .record id outcome)
    (callsNothing : ∀ id, move ≠ .call id mailbox) :
    LooksAlike mailbox board (move.onBoard board) := by
  cases move with
  | create =>
      exact ⟨isOpen, board.outcome?_create, board.waitingSlots_create mailbox, fun _ => rfl, rfl⟩
  | record id outcome => exact absurd rfl (recordsNothing id outcome)
  | call id other =>
      have isOther : other ≠ mailbox := fun same => callsNothing id (same ▸ rfl)
      refine ⟨(Board.isOpen_call ..).mpr isOpen, fun _ => Board.outcome?_call ..,
        fun _ => Board.waitingSlots_call .., fun otherId => ?_, ?_⟩
      · exact (Board.dueSlots_call ..).trans (if_neg fun both => isOther both.2.symm)
      · exact (Board.signals_call isOpen ..).trans (by rw [if_neg isOther, List.append_nil])
  | openMailbox =>
      exact ⟨(Board.isOpen_openMailbox ..).mpr (.inl isOpen), fun _ => rfl, fun _ => rfl,
        fun _ => rfl, Board.signals_openMailbox ..⟩
  | listen id listener =>
      refine ⟨(Board.isOpen_listen ..).mpr isOpen, fun _ => Board.outcome?_listen ..,
        fun other => ?_, fun _ => Board.dueSlots_listen .., ?_⟩
      · refine (Board.waitingSlots_listen ..).trans ?_
        rw [if_neg fun both => spares both.2, List.append_nil]
      · refine (Board.signals_listen isOpen ..).trans ?_
        rw [if_neg fun both => spares both.2, List.append_nil]
  | setSignals other queue =>
      refine ⟨(Board.isOpen_setSignals ..).mpr isOpen, fun _ => rfl, fun _ => rfl, fun _ => rfl, ?_⟩
      exact (Board.signals_setSignals isOpen ..).trans (if_neg spares)
  | register | release | releaseAll =>
      exact ⟨isOpen, fun _ => rfl, fun _ => rfl, fun _ => rfl, rfl⟩

/-- What has not fired at a settled operation is due. -/
theorem unfired_of_isSettled
    {id : OperationId}
    (isSettled : (desk.board.outcome? id).isSome) :
    desk.unfired id = desk.board.dueSlots desk.slots.mailbox id := by
  have notPending : ¬desk.board.IsPending id := by
    rw [Board.isPending_iff]
    rintro ⟨-, pending⟩
    rw [pending] at isSettled
    cases isSettled
  rw [unfired, Board.unfired, Board.waitingSlots_eq_nil _ notPending, List.nil_append]

/-- Among the tickets of a table, the first one of an operation stands between others. -/
theorem exists_split_of_ticketsOf
    {id : OperationId}
    {first : Ticket}
    {others : List Ticket}
    (found : desk.ticketsOf id = first :: others) :
    ∃ before after, desk.tickets = before ++ first :: after ∧
      desk.tickets.eraseP (fun ticket => ticket.operation = id) = before ++ after ∧
      first.operation = id ∧
      (before ++ after).filter (fun ticket => ticket.operation = id) = others := by
  obtain ⟨before, after, split, absent, isFirst, rest⟩ := List.filter_eq_cons_iff.mp found
  refine ⟨before, after, split, ?_, of_decide_eq_true isFirst, ?_⟩
  · rw [split, List.eraseP_append_right _ absent, List.eraseP_cons, isFirst]
    rfl
  · rw [List.filter_append, List.filter_eq_nil_iff.mpr absent, rest, List.nil_append]

/-! ## Taking in -/

section TakingIn

variable (desk : Desk κ) (admission : Admission κ)

theorem slots_takeIn :
    (desk.takeIn admission).slots = (desk.slots.occupy desk.board admission).1 := rfl

theorem board_takeIn :
    (desk.takeIn admission).board =
      desk.board.listen admission.operation ⟨desk.slots.mailbox, desk.slots.nextIndex⟩ :=
  Slots.board_occupy ..

theorem outcome?_takeIn (id : OperationId) :
    (desk.takeIn admission).board.outcome? id = desk.board.outcome? id := by
  rw [board_takeIn, Board.outcome?_listen]

theorem signals_takeIn
    (isOpen : desk.board.IsOpen desk.slots.mailbox)
    (isHeld : desk.board.Holds admission.operation) :
    (desk.takeIn admission).signals = desk.signals ++
      if desk.board.IsPending admission.operation then [] else [desk.slots.nextIndex] := by
  rw [signals, slots_takeIn, Slots.mailbox_occupy, board_takeIn, Board.signals_listen isOpen]
  cases settled : desk.board.outcome? admission.operation <;>
    simp [signals, Board.isPending_iff, isHeld, settled]

theorem tickets_takeIn :
    (desk.takeIn admission).tickets = desk.tickets ++
      if desk.board.IsPending admission.operation then
        [⟨admission.operation, desk.slots.nextIndex, desk.slots.nextSequence⟩]
      else [] := rfl

theorem dueSlots_takeIn
    (mailbox : MailboxId)
    (id : OperationId) :
    (desk.takeIn admission).board.dueSlots mailbox id = desk.board.dueSlots mailbox id := by
  rw [board_takeIn, Board.dueSlots_listen]

theorem unfired_takeIn (id : OperationId) :
    (desk.takeIn admission).unfired id =
      desk.board.waitingSlots desk.slots.mailbox id ++
        (if desk.board.IsPending admission.operation ∧ id = admission.operation then
          [desk.slots.nextIndex] else []) ++
        desk.board.dueSlots desk.slots.mailbox id := by
  rw [unfired, Board.unfired, dueSlots_takeIn, slots_takeIn, Slots.mailbox_occupy, board_takeIn,
    Board.waitingSlots_listen]
  simp only [and_true]

end TakingIn

/-- An operation that is taken in is owed one signal, for the entry that it is put into. -/
theorem owed_takeIn_perm
    {admission : Admission κ}
    (isOpen : desk.board.IsOpen desk.slots.mailbox)
    (isHeld : desk.board.Holds admission.operation) :
    (desk.takeIn admission).owed.Perm (desk.slots.nextIndex :: desk.owed) := by
  rw [owed, signals_takeIn _ _ isOpen isHeld, tickets_takeIn, owed]
  by_cases pending : desk.board.IsPending admission.operation
  · simp only [if_pos pending, List.append_nil, List.map_append, List.map_cons, List.map_nil,
      ← List.append_assoc]
    exact List.perm_append_singleton ..
  · simp only [if_neg pending, List.append_nil, List.append_assoc, List.singleton_append]
    exact List.perm_middle

/-! ## Handing out -/

theorem signals_handOut
    (isOpen : desk.board.IsOpen desk.slots.mailbox)
    (index : Nat)
    (queue : List Nat) :
    (desk.handOut (desk.slots.vacate index) queue).signals = queue :=
  (Board.signals_setSignals isOpen ..).trans (if_pos rfl)

end Desk
end Scheduler
end ScriptHost
