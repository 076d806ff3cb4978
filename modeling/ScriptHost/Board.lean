import ScriptHost.Operation

/-!
# Board of operations

The board holds every operation of a host together with the mailboxes in which
completions are announced. A listener names a mailbox and a slot number; when its
operation settles, the slot number is put into that mailbox. Mailboxes are queues.

A settlement takes two steps: the outcome is recorded first, and then the listeners are
called, one at a time. Whatever else happens on the board may come in between.
-/

namespace ScriptHost

/-- The number of an operation on the board. -/
abbrev OperationId := Nat

/-- The number of a mailbox on the board. -/
abbrev MailboxId := Nat

/-- Where a completion is announced, and as what. -/
structure Listener where
  mailbox : MailboxId
  slot : Nat
  deriving DecidableEq

/-- Operations and mailboxes, each in order of creation. What the settlement of an
operation has still to call is `due`, in order. -/
structure Board where
  operations : Array (Operation Listener)
  mailboxes : Array (List Nat)
  due : OperationId → List Listener

namespace Board

/-- The board without operations or mailboxes. -/
def empty : Board :=
  ⟨#[], #[], fun _ => []⟩

instance : Inhabited Board :=
  ⟨empty⟩

/-- Put a pending operation on the board. -/
def create (board : Board) : Board × OperationId :=
  ({ board with operations := board.operations.push .fresh }, board.operations.size)

/-- Open an empty mailbox. -/
def openMailbox (board : Board) : Board × MailboxId :=
  ({ board with mailboxes := board.mailboxes.push [] }, board.mailboxes.size)

/-- The recorded outcome of an operation. -/
def outcome?
    (board : Board)
    (id : OperationId) : Option Outcome :=
  board.operations[id]?.bind Operation.outcome?

/-- The status of an operation that is on the board. -/
def status?
    (board : Board)
    (id : OperationId) : Option OperationStatus :=
  board.operations[id]?.map Operation.status

/-- The signals that wait in a mailbox, oldest first. -/
def signals
    (board : Board)
    (mailbox : MailboxId) : List Nat :=
  board.mailboxes[mailbox]?.getD []

/-- Announce a completion to a listener. -/
def post
    (board : Board)
    (listener : Listener) : Board :=
  { board with
    mailboxes := board.mailboxes.modify listener.mailbox fun queue => queue ++ [listener.slot] }

/-- Put the signals of a mailbox in place of those it holds. -/
def setSignals
    (board : Board)
    (mailbox : MailboxId)
    (queue : List Nat) : Board :=
  { board with mailboxes := board.mailboxes.modify mailbox fun _ => queue }

/-- Record the outcome of an operation. Its listeners are due from then on. An operation
that is settled already stays as it is. -/
def record
    (board : Board)
    (id : OperationId)
    (outcome : Outcome) : Board :=
  match board.operations[id]? with
  | none => board
  | some operation =>
      let (settled, listeners) := operation.settle outcome
      { board with
        operations := board.operations.set! id settled
        due := fun other => if other = id then board.due id ++ listeners else board.due other }

/-- The listener of a mailbox that is called next for an operation. -/
def nextDue?
    (board : Board)
    (id : OperationId)
    (mailbox : MailboxId) : Option Listener :=
  (board.due id).find? fun listener => listener.mailbox = mailbox

/-- Call the listener of a mailbox that is next for an operation, if any is due. Listeners
of one mailbox are called in order; how those of several mailboxes take turns is left
open. -/
def call
    (board : Board)
    (id : OperationId)
    (mailbox : MailboxId) : Board :=
  match board.nextDue? id mailbox with
  | none => board
  | some listener =>
      { board with
        due := fun other =>
          if other = id then (board.due id).eraseP fun listener => listener.mailbox = mailbox
          else board.due other }.post listener

/-- Record the outcome of an operation and announce it to its listeners in order, with
nothing else in between. An operation that is settled already stays as it is. -/
def settle
    (board : Board)
    (id : OperationId)
    (outcome : Outcome) : Board :=
  match board.operations[id]? with
  | none => board
  | some operation =>
      let (settled, fired) := operation.settle outcome
      fired.foldl post { board with operations := board.operations.set! id settled }

/-- Wait on an operation. A settled operation is announced at once. -/
def listen
    (board : Board)
    (id : OperationId)
    (listener : Listener) : Board :=
  match board.operations[id]? with
  | none => board
  | some operation =>
      let (listened, fires) := operation.listen listener
      let board := { board with operations := board.operations.set! id listened }
      if fires then board.post listener else board

@[simp] theorem operations_post
    (board : Board)
    (listener : Listener) :
    (board.post listener).operations = board.operations := rfl

end Board
end ScriptHost
