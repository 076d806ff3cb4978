import ScriptHost.Board

/-!
# Bounded scheduler

A scheduler takes operations in up to a limit, hands each one out when it
completes, and takes in more. What it takes in either comes from a producer that
is asked while there is room, or is launched from a list of jobs given beforehand.
The first failure, of the producer or of a dispatch, ends the taking in; whatever
was taken in is still handed out.

A run keeps the outstanding operations in slots. Completions are announced by slot
number in the mailbox of the run, and free slots are used again, last freed first.
-/

namespace ScriptHost
namespace Scheduler

/-- The limit of a scheduler that is told none. -/
def defaultConcurrency : Nat := 8

/-- The limit of a batch that is told none. -/
def defaultBatchConcurrency : Nat := 32

/-- What a consumer of type `κ` receives: the value asked for, if the operation
yielded it, or the reason of the failure. -/
abbrev Delivery := Except OperationError (Option OperationValue)

/-- Read an outcome as a result type asks. -/
def deliveryOf
    (type : ResultType)
    (outcome : Outcome) : Delivery :=
  outcome.map type.decode

/-- An operation to be taken in, with the result type asked for and the callback
that receives it. -/
structure Admission (κ : Type) where
  operation : OperationId
  type : ResultType
  callback : κ

/-- A completed operation. The sequence counts operations in the order in which
they were taken in. -/
structure Completion (κ : Type) where
  sequence : Nat
  callback : κ
  result : Delivery

/-- The counts of a finished run. -/
structure Report where
  admitted : Nat
  dispatched : Nat
  callbackFailures : Nat
  abandoned : Nat
  peakOutstanding : Nat
  deriving DecidableEq

namespace Report

/-- The counts of a run that has done nothing. -/
def zero : Report :=
  ⟨0, 0, 0, 0, 0⟩

end Report

/-- An outstanding operation. -/
structure Slot (κ : Type) where
  operation : OperationId
  type : ResultType
  callback : κ
  sequence : Nat

/-- The outstanding operations of a run. Entries are made on first use, so that a
large limit costs nothing. -/
structure Slots (κ : Type) where
  entries : Array (Option (Slot κ))
  free : List Nat
  limit : Nat
  occupied : Nat
  nextSequence : Nat
  mailbox : MailboxId

namespace Slots

variable {κ : Type}

/-- Slots without entries. -/
def new
    (limit : Nat)
    (mailbox : MailboxId) : Slots κ :=
  ⟨#[], [], limit, 0, 0, mailbox⟩

/-- As many operations are outstanding as the limit allows. -/
def isFull (slots : Slots κ) : Bool :=
  slots.limit ≤ slots.occupied

/-- No operation is outstanding. -/
def isEmpty (slots : Slots κ) : Bool :=
  slots.occupied == 0

/-- Take an operation in: into the slot freed last, or into a new one. -/
def occupy
    (slots : Slots κ)
    (board : Board)
    (admission : Admission κ) : Slots κ × Board :=
  let (entries, index, free) :=
    match slots.free with
    | index :: free => (slots.entries, index, free)
    | [] => (slots.entries.push none, slots.entries.size, [])
  let slot : Slot κ :=
    ⟨admission.operation, admission.type, admission.callback, slots.nextSequence⟩
  ({ slots with
      entries := entries.set! index (some slot)
      free := free
      occupied := slots.occupied + 1
      nextSequence := slots.nextSequence + 1 },
    board.listen admission.operation ⟨slots.mailbox, index⟩)

/-- Hand out the operation that the oldest usable signal announces, with the signals
left over. Signals of empty slots are skipped. -/
def complete?
    (slots : Slots κ)
    (board : Board) : List Nat → Option (Completion κ × Slots κ × List Nat)
  | [] => none
  | index :: signals =>
      match slots.entries[index]? with
      | some (some slot) =>
          match board.outcome? slot.operation with
          | none => none
          | some outcome =>
              some (⟨slot.sequence, slot.callback, deliveryOf slot.type outcome⟩,
                { slots with
                  entries := slots.entries.set! index none
                  free := index :: slots.free
                  occupied := slots.occupied - 1 },
                signals)
      | _ => complete? slots board signals

end Slots

/-- A run in progress: its slots, its counts, and its first failure. -/
structure Run (κ ε : Type) where
  slots : Slots κ
  report : Report
  failure? : Option ε

namespace Run

variable {κ ε : Type}

/-- A run that has done nothing. A limit of zero is treated as one. -/
def start
    (limit : Nat)
    (mailbox : MailboxId) : Run κ ε :=
  ⟨.new (max limit 1) mailbox, .zero, none⟩

/-- Take an operation in and count it. -/
def occupy
    (run : Run κ ε)
    (board : Board)
    (admission : Admission κ) : Run κ ε × Board :=
  let (slots, board) := run.slots.occupy board admission
  ({ run with
      slots := slots
      report := { run.report with
        admitted := run.report.admitted + 1
        peakOutstanding := max run.report.peakOutstanding slots.occupied } }, board)

/-- Hand out the next completed operation, if one is announced. -/
def complete?
    (run : Run κ ε)
    (board : Board) : Option (Completion κ × Run κ ε × Board) :=
  let mailbox := run.slots.mailbox
  match run.slots.complete? board (board.signals mailbox) with
  | none => none
  | some (completion, slots, signals) =>
      some (completion, { run with slots := slots }, board.setSignals mailbox signals)

/-- Remember a failure if it is the first. -/
def fail
    (run : Run κ ε)
    (error : ε) : Run κ ε :=
  { run with failure? := some (run.failure?.getD error) }

/-- Count a dispatch with its result. -/
def record
    (run : Run κ ε)
    (result : Except ε Unit) : Run κ ε :=
  let report := { run.report with dispatched := run.report.dispatched + 1 }
  match result with
  | .ok () => { run with report := report }
  | .error error =>
      { run with
        report := { report with callbackFailures := report.callbackFailures + 1 } }.fail error

/-- Count a job that is never launched. -/
def abandon (run : Run κ ε) : Run κ ε :=
  { run with report := { run.report with abandoned := run.report.abandoned + 1 } }

/-- The first failure, or the counts. -/
def result (run : Run κ ε) : Except ε Report :=
  match run.failure? with
  | some error => .error error
  | none => .ok run.report

end Run

/-- The answer of a producer that is asked for the next operation. -/
inductive Production (κ ε : Type)
  | item (admission : Admission κ)
  | finished
  | failed (error : ε)

/-- A unit of work that is launched when there is room for it. -/
structure Job (m : Type → Type) (κ : Type) where
  launch : m OperationId
  type : ResultType
  callback : κ

/-- What a run needs of the host that it works in. `await` lets time pass until
something settles and says whether anything did. `discard` gives up the callback of
a job that is never launched. -/
structure Environment (m : Type → Type) (κ ε : Type) where
  board : m Board
  setBoard : Board → m Unit
  await : m Bool
  dispatch : Completion κ → m (Except ε Unit)
  discard : κ → m Unit

section Loops

variable {m : Type → Type} [Monad m] {κ ε : Type}

/-- Wait until a completion is announced and hand it out. The answer is `none` if
nothing will ever be announced, or the fuel runs out. -/
def waitNext (env : Environment m κ ε) :
    Nat → Run κ ε → m (Option (Completion κ × Run κ ε))
  | 0, _ => pure none
  | fuel + 1, run => do
      match run.complete? (← env.board) with
      | some (completion, run, board) =>
          env.setBoard board
          pure (some (completion, run))
      | none =>
          if ← env.await then waitNext env fuel run else pure none

/-- Wait for a completion and dispatch it. -/
def deliverNext
    (env : Environment m κ ε)
    (fuel : Nat)
    (run : Run κ ε) : m (Option (Run κ ε)) := do
  match ← waitNext env fuel run with
  | none => pure none
  | some (completion, run) => pure (some (run.record (← env.dispatch completion)))

/-- Take an operation in on the board of the host. -/
def occupyNext
    (env : Environment m κ ε)
    (run : Run κ ε)
    (admission : Admission κ) : m (Run κ ε) := do
  let (run, board) := run.occupy (← env.board) admission
  env.setBoard board
  pure run

/-- Ask the producer for operations until it ends or something fails. It is asked
only while there is room, so that what it yields is taken in at once. -/
def pull
    (env : Environment m κ ε)
    (produce : m (Production κ ε)) : Nat → Run κ ε → m (Option (Run κ ε))
  | 0, _ => pure none
  | fuel + 1, run => do
      if run.failure?.isSome then pure (some run)
      else if run.slots.isFull then
        match ← deliverNext env fuel run with
        | none => pure none
        | some run => pull env produce fuel run
      else
        match ← produce with
        | .item admission => pull env produce fuel (← occupyNext env run admission)
        | .finished => pure (some run)
        | .failed error => pull env produce fuel (run.fail error)

/-- Launch jobs in order until they end or something fails. The second component
holds the jobs left over. -/
def launch (env : Environment m κ ε) :
    Nat → List (Job m κ) → Run κ ε → m (Option (Run κ ε × List (Job m κ)))
  | 0, _, _ => pure none
  | fuel + 1, jobs, run => do
      if run.failure?.isSome then pure (some (run, jobs))
      else if run.slots.isFull then
        match ← deliverNext env fuel run with
        | none => pure none
        | some run => launch env fuel jobs run
      else
        match jobs with
        | [] => pure (some (run, []))
        | job :: jobs => do
            let operation ← job.launch
            launch env fuel jobs (← occupyNext env run ⟨operation, job.type, job.callback⟩)

/-- Hand out everything that is outstanding. -/
def drain (env : Environment m κ ε) :
    Nat → Run κ ε → m (Option (Run κ ε))
  | 0, _ => pure none
  | fuel + 1, run => do
      if run.slots.isEmpty then pure (some run)
      else
        match ← deliverNext env fuel run with
        | none => pure none
        | some run => drain env fuel run

/-- Give up the callbacks of the jobs that are never launched, in order. -/
def abandonAll (env : Environment m κ ε) :
    List (Job m κ) → Run κ ε → m (Run κ ε)
  | [], run => pure run
  | job :: jobs, run => do
      env.discard job.callback
      abandonAll env jobs run.abandon

/-- A run in a mailbox of its own. -/
def begin
    (env : Environment m κ ε)
    (limit : Nat) : m (Run κ ε) := do
  let (board, mailbox) := (← env.board).openMailbox
  env.setBoard board
  pure (.start limit mailbox)

/-- Run what a producer yields. The answer is `none` if the run never ends within
the fuel. -/
def runPull
    (env : Environment m κ ε)
    (limit : Nat)
    (produce : m (Production κ ε))
    (fuel : Nat) : m (Option (Except ε Report)) := do
  match ← pull env produce fuel (← begin env limit) with
  | none => pure none
  | some run =>
      match ← drain env fuel run with
      | none => pure none
      | some run => pure (some run.result)

/-- Run a list of jobs. The answer is `none` if the run never ends within the fuel. -/
def runFanOut
    (env : Environment m κ ε)
    (limit : Nat)
    (jobs : List (Job m κ))
    (fuel : Nat) : m (Option (Except ε Report)) := do
  match ← launch env fuel jobs (← begin env limit) with
  | none => pure none
  | some (run, rest) =>
      match ← drain env fuel run with
      | none => pure none
      | some run => do
          let run ← abandonAll env rest run
          pure (some run.result)

end Loops

end Scheduler
end ScriptHost
