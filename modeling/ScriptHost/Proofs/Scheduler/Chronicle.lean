import ScriptHost.Registry
import ScriptHost.Scheduler
import ScriptHost.Proofs.Board
import ScriptHost.Proofs.Stateful

/-!
# Chronicles of a run

A run knows nothing of the host that it works in. Whenever the host has control, it may
settle operations in any order, make new ones, wait for operations in mailboxes of its
own, start and serve other runs, and use its registry in any way. It cannot reach the
mailbox of the run, and a callback that it is handed is its own: what the callback holds
is given up before the call returns.

Other threads settle operations as well. To record an outcome is one step and to call a
listener is another, and the steps of several settlements may take turns in any way. What a
thread does while the run itself is at work is told with what the host does next.

A chronicle lists all that happens, in the order of time: what the host does, when it is
asked for operations, what it answers, and what it is handed. The laws of a chronicle
say no more of a host than this. Where the states of a host keep a log of their own, the
chronicle is that log; where they do not, it is what an onlooker would write down.
-/

namespace ScriptHost
namespace Scheduler

/-- Something that a host or one of its threads does to its board or its registry. -/
inductive Move (α : Type)
  | create
  | record (operation : OperationId) (outcome : Outcome)
  | call (operation : OperationId) (mailbox : MailboxId)
  | openMailbox
  | listen (operation : OperationId) (listener : Listener)
  | setSignals (mailbox : MailboxId) (queue : List Nat)
  | register (callable : α)
  | release (key : HandleKey)
  | releaseAll

namespace Move

variable {α : Type}

/-- The board after a move. -/
def onBoard (board : Board) : Move α → Board
  | create => board.create.1
  | record operation outcome => board.record operation outcome
  | call operation mailbox => board.call operation mailbox
  | openMailbox => board.openMailbox.1
  | listen operation listener => board.listen operation listener
  | setSignals mailbox queue => board.setSignals mailbox queue
  | _ => board

/-- The registry after a move. -/
def onRegistry (registry : Registry α) : Move α → Registry α
  | register callable => (registry.register callable).1
  | release key => registry.release key
  | releaseAll => registry.releaseAll.2
  | _ => registry

/-- A move that does not reach into a mailbox. What settles may still be announced
there. -/
def Spares (mailbox : MailboxId) : Move α → Prop
  | listen _ listener => listener.mailbox ≠ mailbox
  | setSignals other _ => other ≠ mailbox
  | _ => True

/-- The moves of a settlement that nothing else interrupts. -/
def settling
    (board : Board)
    (operation : OperationId)
    (outcome : Outcome) : List (Move α) :=
  .record operation outcome ::
    ((board.record operation outcome).due operation).map fun listener =>
      .call operation listener.mailbox

/-- Recording an outcome and calling all listeners settles an operation as a whole, if nothing is
due there. -/
theorem foldl_settling
    {board : Board}
    {operation : OperationId}
    (noneDue : board.due operation = [])
    (outcome : Outcome) :
    (settling board operation outcome : List (Move α)).foldl onBoard board =
      board.settle operation outcome := by
  rw [Board.settle_eq_record noneDue, settling, List.foldl_cons, List.foldl_map]
  rfl

/-- A settlement does nothing to the callables. -/
theorem registry_settling
    (board : Board)
    (operation : OperationId)
    (outcome : Outcome)
    (registry : Registry α) :
    (settling board operation outcome).foldl onRegistry registry = registry := by
  rw [settling, List.foldl_cons, List.foldl_map]
  exact List.foldl_fixed' (fun _ => rfl) _

/-- A settlement spares every mailbox, since it only posts to it. -/
theorem spares_settling
    (board : Board)
    (operation : OperationId)
    (outcome : Outcome)
    (mailbox : MailboxId) :
    ∀ move ∈ (settling board operation outcome : List (Move α)), move.Spares mailbox := by
  refine List.forall_mem_cons.mpr ⟨trivial, fun move member => ?_⟩
  obtain ⟨listener, -, rfl⟩ := List.mem_map.mp member
  trivial

end Move

/-- Something that happens during a run. The host waits, is asked for an operation and
answers with one, with none or with an error, is handed a completion and returns from
that, or gives up a callback. -/
inductive Event (α κ ε : Type)
  | moved (move : Move α)
  | waited
  | asked
  | admitted (admission : Admission κ)
  | finished
  | refused (error : ε)
  | dispatched (completion : Completion κ)
  | returned (result : Except ε Unit)
  | discarded (callback : κ)

namespace Event

variable {α κ ε : Type}

/-- What the host has done to the board. -/
def onBoard (board : Board) : Event α κ ε → Board
  | moved move => move.onBoard board
  | _ => board

/-- What the host has done to the registry. -/
def onRegistry (registry : Registry α) : Event α κ ε → Registry α
  | moved move => move.onRegistry registry
  | _ => registry

/-- Nothing that the host does reaches into a mailbox. -/
def Spares (mailbox : MailboxId) : Event α κ ε → Prop
  | moved move => move.Spares mailbox
  | _ => True

/-- The operation that was taken in. -/
def admission? : Event α κ ε → Option (Admission κ)
  | admitted admission => some admission
  | _ => none

/-- The completion that was handed out. -/
def completion? : Event α κ ε → Option (Completion κ)
  | dispatched completion => some completion
  | _ => none

/-- The callback that was given up. -/
def discarded? : Event α κ ε → Option κ
  | discarded callback => some callback
  | _ => none

/-- The failure in an event: of the host when it is asked, or of a dispatch. -/
def failure? : Event α κ ε → Option ε
  | refused error => some error
  | returned (.error error) => some error
  | _ => none

/-- The failure of a dispatch. -/
def callbackFailure? : Event α κ ε → Option ε
  | returned (.error error) => some error
  | _ => none

/-- The host is asked for an operation. -/
def isAsked : Event α κ ε → Bool
  | asked => true
  | _ => false

/-- The answer of a producer. -/
def ofProduction : Production κ ε → Event α κ ε
  | .item admission => admitted admission
  | .finished => finished
  | .failed error => refused error

end Event

section Events

variable {α κ ε : Type}

/-- The operations taken in, in order. -/
def admissions (events : List (Event α κ ε)) : List (Admission κ) :=
  events.filterMap Event.admission?

/-- The completions handed out, in order. -/
def completions (events : List (Event α κ ε)) : List (Completion κ) :=
  events.filterMap Event.completion?

/-- The callbacks given up, in order. -/
def discards (events : List (Event α κ ε)) : List κ :=
  events.filterMap Event.discarded?

/-- What failed, in order. -/
def failures (events : List (Event α κ ε)) : List ε :=
  events.filterMap Event.failure?

/-- What failed in a dispatch, in order. -/
def callbackFailures (events : List (Event α κ ε)) : List ε :=
  events.filterMap Event.callbackFailure?

/-- How often the host was asked for an operation. -/
def asks (events : List (Event α κ ε)) : Nat :=
  events.countP Event.isAsked

/-- A board after all that the host has done to it. -/
def boardAfter
    (board : Board)
    (events : List (Event α κ ε)) : Board :=
  events.foldl Event.onBoard board

theorem boardAfter_concat
    (board : Board)
    (events : List (Event α κ ε))
    (event : Event α κ ε) :
    boardAfter board (events ++ [event]) = event.onBoard (boardAfter board events) :=
  List.foldl_concat ..

/-- A registry after all that the host has done to it. -/
def registryAfter
    (registry : Registry α)
    (events : List (Event α κ ε)) : Registry α :=
  events.foldl Event.onRegistry registry

theorem registryAfter_concat
    (registry : Registry α)
    (events : List (Event α κ ε))
    (event : Event α κ ε) :
    registryAfter registry (events ++ [event]) =
      event.onRegistry (registryAfter registry events) :=
  List.foldl_concat ..

/-- The moves of a host as events. -/
def moves (list : List (Move α)) : List (Event α κ ε) :=
  list.map .moved

@[simp] theorem admissions_append (first second : List (Event α κ ε)) :
    admissions (first ++ second) = admissions first ++ admissions second :=
  List.filterMap_append

@[simp] theorem completions_append (first second : List (Event α κ ε)) :
    completions (first ++ second) = completions first ++ completions second :=
  List.filterMap_append

theorem admissions_concat
    (events : List (Event α κ ε))
    (event : Event α κ ε) :
    admissions (events ++ [event]) = admissions events ++ event.admission?.toList := by
  rw [admissions_append]
  cases event <;> rfl

theorem completions_concat
    (events : List (Event α κ ε))
    (event : Event α κ ε) :
    completions (events ++ [event]) = completions events ++ event.completion?.toList := by
  rw [completions_append]
  cases event <;> rfl

theorem admissions_concat_of_none
    {event : Event α κ ε}
    (events : List (Event α κ ε))
    (noAdmission : event.admission? = none) :
    admissions (events ++ [event]) = admissions events := by
  rw [admissions_concat, noAdmission, Option.toList_none, List.append_nil]

theorem completions_concat_of_none
    {event : Event α κ ε}
    (events : List (Event α κ ε))
    (noCompletion : event.completion? = none) :
    completions (events ++ [event]) = completions events := by
  rw [completions_concat, noCompletion, Option.toList_none, List.append_nil]

@[simp] theorem discards_append (first second : List (Event α κ ε)) :
    discards (first ++ second) = discards first ++ discards second :=
  List.filterMap_append

@[simp] theorem failures_append (first second : List (Event α κ ε)) :
    failures (first ++ second) = failures first ++ failures second :=
  List.filterMap_append

@[simp] theorem callbackFailures_append (first second : List (Event α κ ε)) :
    callbackFailures (first ++ second) = callbackFailures first ++ callbackFailures second :=
  List.filterMap_append

/-- What fails in a dispatch fails. -/
theorem callbackFailures_eq_nil
    {events : List (Event α κ ε)}
    (noFailure : failures events = []) :
    callbackFailures events = [] := by
  rw [failures, List.filterMap_eq_nil_iff] at noFailure
  rw [callbackFailures, List.filterMap_eq_nil_iff]
  intro event member
  have spared := noFailure event member
  cases event with
  | returned result => cases result <;> exact spared
  | _ => rfl

@[simp] theorem asks_append (first second : List (Event α κ ε)) :
    asks (first ++ second) = asks first + asks second :=
  List.countP_append

/-- Whoever reads other events off a list passes over the moves of the host. -/
theorem filterMap_moves
    {β : Type}
    {read : Event α κ ε → Option β}
    (passesOver : ∀ move, read (.moved move) = none)
    (list : List (Move α)) :
    (moves list).filterMap read = [] := by
  rw [moves, List.filterMap_map, List.filterMap_eq_nil_iff]
  intro move _
  exact passesOver move

@[simp] theorem asks_moves (list : List (Move α)) :
    asks (moves list : List (Event α κ ε)) = 0 := by
  simp [asks, moves, List.countP_map, List.countP_eq_zero, Event.isAsked]

end Events

namespace Stretch

variable {α κ ε : Type}

/-- What happens while the host waits. -/
def waited (list : List (Move α)) : List (Event α κ ε) :=
  .waited :: moves list

/-- What happens from the time the host is asked for an operation until it answers. -/
def answered
    (list : List (Move α))
    (answer : Event α κ ε) : List (Event α κ ε) :=
  .asked :: (moves list ++ [answer])

/-- What happens from the time the host is handed a completion until it returns. -/
def dispatched
    (completion : Completion κ)
    (list : List (Move α))
    (result : Except ε Unit) : List (Event α κ ε) :=
  .dispatched completion :: (moves list ++ [.returned result])

/-- What happens while the host gives up a callback. -/
def discarded
    (callback : κ)
    (list : List (Move α)) : List (Event α κ ε) :=
  .discarded callback :: moves list

/-- When the host has answered, the board is as its moves and the answer have left it. -/
theorem boardAfter_answered
    (board : Board)
    (list : List (Move α))
    (answer : Event α κ ε) :
    boardAfter board (answered list answer) =
      answer.onBoard (boardAfter board (moves list : List (Event α κ ε))) :=
  boardAfter_concat board (.asked :: moves list) answer

/-- When a completion was dispatched, the board is as the moves of the dispatch have left it. -/
theorem boardAfter_dispatched
    (board : Board)
    (completion : Completion κ)
    (list : List (Move α))
    (result : Except ε Unit) :
    boardAfter board (dispatched completion list result) =
      boardAfter board (moves list : List (Event α κ ε)) :=
  boardAfter_concat board (.dispatched completion :: moves list) (.returned result)

theorem registryAfter_answered
    (registry : Registry α)
    (list : List (Move α))
    (answer : Event α κ ε) :
    registryAfter registry (answered list answer) =
      answer.onRegistry (registryAfter registry (moves list : List (Event α κ ε))) :=
  registryAfter_concat registry (.asked :: moves list) answer

theorem registryAfter_dispatched
    (registry : Registry α)
    (completion : Completion κ)
    (list : List (Move α))
    (result : Except ε Unit) :
    registryAfter registry (dispatched completion list result) =
      registryAfter registry (moves list : List (Event α κ ε)) :=
  registryAfter_concat registry (.dispatched completion :: moves list) (.returned result)

section Reading

variable {β : Type} {read : Event α κ ε → Option β}

/-- Whoever passes over moves sees of a waiting host only that it waits. -/
theorem filterMap_waited
    (passesOver : ∀ move, read (.moved move) = none)
    (list : List (Move α)) :
    (waited list).filterMap read = (read .waited).toList := by
  cases found : read .waited <;> simp [waited, found, filterMap_moves passesOver]

/-- Whoever passes over moves sees of an asked host that it is asked and what it answers. -/
theorem filterMap_answered
    (passesOver : ∀ move, read (.moved move) = none)
    (list : List (Move α))
    (answer : Event α κ ε) :
    (answered list answer).filterMap read = (read .asked).toList ++ (read answer).toList := by
  cases found : read .asked <;> cases isRead : read answer <;>
    simp [answered, found, isRead, filterMap_moves passesOver]

/-- Whoever passes over moves sees of a dispatch its completion and its result. -/
theorem filterMap_dispatched
    (passesOver : ∀ move, read (.moved move) = none)
    (completion : Completion κ)
    (list : List (Move α))
    (result : Except ε Unit) :
    (dispatched completion list result).filterMap read =
      (read (.dispatched completion)).toList ++ (read (.returned result)).toList := by
  cases found : read (.dispatched completion) <;> cases isRead : read (.returned result) <;>
    simp [dispatched, found, isRead, filterMap_moves passesOver]

/-- Whoever passes over moves sees of a discarded callback only that it is discarded. -/
theorem filterMap_discarded
    (passesOver : ∀ move, read (.moved move) = none)
    (callback : κ)
    (list : List (Move α)) :
    (discarded callback list).filterMap read = (read (.discarded callback)).toList := by
  cases found : read (.discarded callback) <;>
    simp [discarded, found, filterMap_moves passesOver]

end Reading

/-! Only an answer takes an operation in, only a dispatch hands one out, and only what is
never launched is given up. -/

@[simp] theorem admissions_waited (list : List (Move α)) :
    admissions (waited list : List (Event α κ ε)) = [] :=
  filterMap_waited (fun _ => rfl) list

@[simp] theorem admissions_answered
    (list : List (Move α))
    (answer : Event α κ ε) :
    admissions (answered list answer) = answer.admission?.toList :=
  filterMap_answered (fun _ => rfl) list answer

@[simp] theorem admissions_dispatched
    (completion : Completion κ)
    (list : List (Move α))
    (result : Except ε Unit) :
    admissions (dispatched completion list result) = [] :=
  filterMap_dispatched (fun _ => rfl) completion list result

@[simp] theorem admissions_discarded
    (callback : κ)
    (list : List (Move α)) :
    admissions (discarded callback list : List (Event α κ ε)) = [] :=
  filterMap_discarded (fun _ => rfl) callback list

@[simp] theorem completions_waited (list : List (Move α)) :
    completions (waited list : List (Event α κ ε)) = [] :=
  filterMap_waited (fun _ => rfl) list

@[simp] theorem completions_answered
    (list : List (Move α))
    (answer : Event α κ ε) :
    completions (answered list answer) = answer.completion?.toList :=
  filterMap_answered (fun _ => rfl) list answer

@[simp] theorem completions_dispatched
    (completion : Completion κ)
    (list : List (Move α))
    (result : Except ε Unit) :
    completions (dispatched completion list result) = [completion] :=
  filterMap_dispatched (fun _ => rfl) completion list result

@[simp] theorem completions_discarded
    (callback : κ)
    (list : List (Move α)) :
    completions (discarded callback list : List (Event α κ ε)) = [] :=
  filterMap_discarded (fun _ => rfl) callback list

@[simp] theorem discards_waited (list : List (Move α)) :
    discards (waited list : List (Event α κ ε)) = [] :=
  filterMap_waited (fun _ => rfl) list

@[simp] theorem discards_answered
    (list : List (Move α))
    (answer : Event α κ ε) :
    discards (answered list answer) = answer.discarded?.toList :=
  filterMap_answered (fun _ => rfl) list answer

@[simp] theorem discards_dispatched
    (completion : Completion κ)
    (list : List (Move α))
    (result : Except ε Unit) :
    discards (dispatched completion list result) = [] :=
  filterMap_dispatched (fun _ => rfl) completion list result

@[simp] theorem discards_discarded
    (callback : κ)
    (list : List (Move α)) :
    discards (discarded callback list : List (Event α κ ε)) = [callback] :=
  filterMap_discarded (fun _ => rfl) callback list

@[simp] theorem failures_waited (list : List (Move α)) :
    failures (waited list : List (Event α κ ε)) = [] :=
  filterMap_waited (fun _ => rfl) list

@[simp] theorem failures_answered
    (list : List (Move α))
    (answer : Event α κ ε) :
    failures (answered list answer) = answer.failure?.toList :=
  filterMap_answered (fun _ => rfl) list answer

@[simp] theorem failures_dispatched
    (completion : Completion κ)
    (list : List (Move α))
    (result : Except ε Unit) :
    failures (dispatched completion list result) =
      (Event.returned result : Event α κ ε).failure?.toList :=
  filterMap_dispatched (fun _ => rfl) completion list result

@[simp] theorem failures_discarded
    (callback : κ)
    (list : List (Move α)) :
    failures (discarded callback list : List (Event α κ ε)) = [] :=
  filterMap_discarded (fun _ => rfl) callback list

@[simp] theorem callbackFailures_waited (list : List (Move α)) :
    callbackFailures (waited list : List (Event α κ ε)) = [] :=
  filterMap_waited (fun _ => rfl) list

@[simp] theorem callbackFailures_answered
    (list : List (Move α))
    (answer : Event α κ ε) :
    callbackFailures (answered list answer) = answer.callbackFailure?.toList :=
  filterMap_answered (fun _ => rfl) list answer

@[simp] theorem callbackFailures_dispatched
    (completion : Completion κ)
    (list : List (Move α))
    (result : Except ε Unit) :
    callbackFailures (dispatched completion list result) =
      (Event.returned result : Event α κ ε).callbackFailure?.toList :=
  filterMap_dispatched (fun _ => rfl) completion list result

@[simp] theorem callbackFailures_discarded
    (callback : κ)
    (list : List (Move α)) :
    callbackFailures (discarded callback list : List (Event α κ ε)) = [] :=
  filterMap_discarded (fun _ => rfl) callback list

@[simp] theorem asks_waited (list : List (Move α)) :
    asks (waited list : List (Event α κ ε)) = 0 :=
  asks_moves list

@[simp] theorem asks_answered
    (list : List (Move α))
    (answer : Event α κ ε) :
    asks (answered list answer) = (if answer.isAsked then 1 else 0) + 1 := by
  change asks (.asked :: (moves list ++ [answer])) = _
  rw [asks, List.countP_cons_of_pos rfl, ← asks, asks_append, asks_moves, Nat.zero_add, asks,
    List.countP_singleton]

@[simp] theorem asks_dispatched
    (completion : Completion κ)
    (list : List (Move α))
    (result : Except ε Unit) :
    asks (dispatched completion list result) = 0 := by
  change asks (moves list ++ [.returned result]) = 0
  rw [asks_append, asks_moves]
  rfl

@[simp] theorem asks_discarded
    (callback : κ)
    (list : List (Move α)) :
    asks (discarded callback list : List (Event α κ ε)) = 0 :=
  asks_moves list

end Stretch

/-- What a state of a host shows: its board, its registry, and all that has happened. -/
structure World (α κ ε : Type) where
  board : Board
  registry : Registry α
  history : List (Event α κ ε)

namespace World

variable {α κ ε : Type}

/-- Something happens. -/
def note
    (world : World α κ ε)
    (event : Event α κ ε) : World α κ ε where
  board := event.onBoard world.board
  registry := event.onRegistry world.registry
  history := world.history ++ [event]

/-- Several things happen one after the other. -/
def noteAll
    (world : World α κ ε)
    (events : List (Event α κ ε)) : World α κ ε :=
  events.foldl note world

@[simp] theorem history_noteAll
    (world : World α κ ε)
    (events : List (Event α κ ε)) :
    (world.noteAll events).history = world.history ++ events := by
  induction events generalizing world with
  | nil => exact (List.append_nil _).symm
  | cons event events inductionHypothesis =>
      change ((world.note event).noteAll events).history = _
      rw [inductionHypothesis, note, List.append_assoc]
      rfl

@[simp] theorem board_noteAll
    (world : World α κ ε)
    (events : List (Event α κ ε)) :
    (world.noteAll events).board = boardAfter world.board events := by
  induction events generalizing world with
  | nil => rfl
  | cons event events inductionHypothesis => exact inductionHypothesis (world.note event)

@[simp] theorem registry_noteAll
    (world : World α κ ε)
    (events : List (Event α κ ε)) :
    (world.noteAll events).registry = registryAfter world.registry events := by
  induction events generalizing world with
  | nil => rfl
  | cons event events inductionHypothesis => exact inductionHypothesis (world.note event)

end World

/-- What a consumer asks of an operation: the result type and the callback. -/
def Admission.terms
    {κ : Type}
    (admission : Admission κ) : ResultType × κ :=
  (admission.type, admission.callback)

/-- What is asked of the operation that a job launches. -/
def Job.terms
    {m : Type → Type}
    {κ : Type}
    (job : Job m κ) : ResultType × κ :=
  (job.type, job.callback)

/-- Where a run takes its operations from. -/
inductive Source (m : Type → Type) (κ ε : Type)
  | producer (produce : m (Production κ ε))
  | jobs (list : List (Job m κ))

section Laws

variable {m : Type → Type} [Monad m] {σ : Type} [Stateful m σ] {α β κ ε : Type}

/-- Run what a source yields. -/
def Source.run
    (source : Source m κ ε)
    (env : Environment m κ ε)
    (limit fuel : Nat) : m (Option (Except ε Report)) :=
  match source with
  | .producer produce => runPull env limit produce fuel
  | .jobs list => runFanOut env limit list fuel

open Stateful (Returns)

/-- A callback that is handed over is used up: what it holds is given up by one of the
moves that follow. -/
def UsesUp
    (held : κ → Option HandleKey)
    (callback : κ)
    (list : List (Move α)) : Prop :=
  ∀ key, held callback = some key → .release key ∈ list

/-- The laws of a host. `shows` tells which worlds a state may show, `mailbox` is out of
reach of the host, and `held` tells the handle that a callback holds. -/
structure Chronicle
    (env : Environment m κ ε)
    (shows : σ → World α κ ε → Prop)
    (mailbox : MailboxId)
    (held : κ → Option HandleKey) : Prop where
  board : ∀ {before value after world}, Returns env.board before value after →
    shows before world → value = world.board ∧ shows after world
  setBoard : ∀ {board before value after world},
    Returns (env.setBoard board) before value after →
    shows before world → board.Resembles world.board → shows after { world with board := board }
  await : ∀ {before value after world}, Returns env.await before value after →
    shows before world →
    ∃ list : List (Move α), (∀ move ∈ list, move.Spares mailbox) ∧
      shows after (world.noteAll (Stretch.waited list))
  dispatch : ∀ {completion before result after world},
    Returns (env.dispatch completion) before result after → shows before world →
    ∃ list : List (Move α), (∀ move ∈ list, move.Spares mailbox) ∧
      UsesUp held completion.callback list ∧
      shows after (world.noteAll (Stretch.dispatched completion list result))
  discard : ∀ {callback before value after world},
    Returns (env.discard callback) before value after → shows before world →
    ∃ list : List (Move α), (∀ move ∈ list, move.Spares mailbox) ∧
      UsesUp held callback list ∧
      shows after (world.noteAll (Stretch.discarded callback list))

/-- A host that is asked for an operation answers in the end. An operation that it
answers with is on its board. -/
def Answers
    (shows : σ → World α κ ε → Prop)
    (mailbox : MailboxId)
    (ask : m β)
    (answer : β → Event α κ ε) : Prop :=
  ∀ ⦃before value after world⦄, Returns ask before value after → shows before world →
    ∃ list : List (Move α), (∀ move ∈ list, move.Spares mailbox) ∧
      shows after (world.noteAll (Stretch.answered list (answer value))) ∧
      ∀ admission, answer value = .admitted admission →
        (world.noteAll (Stretch.answered list (answer value))).board.Holds admission.operation

/-- The laws of a source: a producer answers with a production, and a job with the
operation that it launches, taken in for the callback of the job. -/
def Source.Chronicled
    (shows : σ → World α κ ε → Prop)
    (mailbox : MailboxId) : Source m κ ε → Prop
  | .producer produce => Answers shows mailbox produce .ofProduction
  | .jobs list => ∀ job ∈ list,
      Answers shows mailbox job.launch fun operation =>
        .admitted ⟨operation, job.type, job.callback⟩

/-- How a run uses its source up. A producer leaves nothing over. Of a list of jobs the
first ones are launched, each on its own terms, and the callbacks of the others are given
up. -/
def Source.Accounts
    (source : Source m κ ε)
    (events : List (Event α κ ε)) : Prop :=
  match source with
  | .producer _ => discards events = []
  | .jobs list =>
      ∃ launched rest, list = launched ++ rest ∧
        (admissions events).map Admission.terms = launched.map Job.terms ∧
        discards events = rest.map Job.callback

/-- Jobs are launched only to be taken in: each launch yields an operation that is. -/
def Source.LaunchesOnce
    (source : Source m κ ε)
    (events : List (Event α κ ε)) : Prop :=
  match source with
  | .producer _ => True
  | .jobs _ => asks events = (admissions events).length

end Laws

end Scheduler
end ScriptHost
