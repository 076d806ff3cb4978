import ScriptHost.Proofs.Batch.Plans
import ScriptHost.Proofs.Session.AtRest

/-!
# Courses of a batch

The course of a batch is what happens in the session while the batch is run: processes are
launched, time passes while the run waits, and processes that have ended are told of. Besides,
the run keeps its own books. Functions that are told of a process may do in the session what
scripts may do. But the batch itself is gone as soon as its run begins, so that nobody can run
it again or add to it.
-/

namespace ScriptHost

open Session

/-- What a process that has ended is reported with. One that could not be run counts as one
that wrote nothing. -/
def EndedProcess.outcome (process : EndedProcess) : ProcessOutcome :=
  ChildProcess.outcomeOf process.spec process.result

/-- The code of a process as a function is told of it. -/
def EndedProcess.codeValue (process : EndedProcess) : Value :=
  .int process.outcome.code

/-- The output of a process as a function is told of it. -/
def EndedProcess.outputValue (process : EndedProcess) : Value :=
  match process.outcome.output? with
  | some output => .string output
  | none => .undefined

/-- The report of a process that has ended: its place in the batch, from zero on, and what became
of it when the functions were told. -/
structure BatchReport where
  index : Nat
  process : EndedProcess
  result : Except String Unit

/-- The words in which a failure is reported. -/
def BatchReport.failure? (report : BatchReport) : Option String :=
  match report.result with
  | .ok () => none
  | .error message => some message

/-- The first failure in the order of reports. -/
def firstFailure? (reports : List BatchReport) : Option String :=
  reports.findSome? BatchReport.failure?

/-- What a run comes to after its reports: the first failure is thrown. -/
def verdict (reports : List BatchReport) : Except Interruption Value :=
  match firstFailure? reports with
  | none => .ok (.bool true)
  | some message => .error (.thrown (.error "Error" (.string message)))

/-- What a run does to the host for its own purposes: it looks after its mailbox and its places
for output, and releases functions of its batch. -/
structure Books
    (batch : Batch)
    (host later : Host) : Prop where
  rest_eq : ∃ keys ⊆ batch.keys, later =
    { host.releaseEach keys with board := later.board, outputs := later.outputs }
  agrees : later.board.Agrees host.board

theorem books_of_agrees
    {host : Host}
    {board : Board}
    (batch : Batch)
    (agrees : board.Agrees host.board)
    (outputs : Array (Option String)) :
    Books batch host { host with board := board, outputs := outputs } :=
  ⟨⟨[], List.nil_subset _, rfl⟩, agrees⟩

/-- Call a function if there is one. What it returns is of no use. -/
def Invoke.tell?
    (invoke : Invoke)
    (function? : Option Function)
    (arguments : List Value) : SessionM Unit :=
  match function? with
  | none => pure ()
  | some function => do
      let _ ← invoke function arguments

theorem exists_of_tell?_error
    {invoke : Invoke}
    {function? : Option Function}
    {arguments : List Value}
    {session later : Session}
    {interruption : Interruption}
    (told : (invoke.tell? function? arguments).run.run session = (.error interruption, later)) :
    ∃ function, function? = some function ∧
      (invoke function arguments).run.run session = (.error interruption, later) := by
  cases function? with
  | none => cases told
  | some function =>
      dsimp only [Invoke.tell?] at told
      rw [run_bind] at told
      split at told
      next => cases told
      next called =>
        cases told
        exact ⟨function, rfl, called⟩

/-- A function that is called breaks off everything, which it does not do by throwing. -/
def Invoke.Breaks
    (invoke : Invoke)
    (interruption : Interruption)
    (later : Session) : Prop :=
  (∀ value, interruption ≠ .thrown value) ∧
    ∃ function arguments session,
      (invoke function arguments).run.run session = (.error interruption, later)

namespace BatchPlan

/-- Tell of a process that has ended: its own function first, and then the function of the batch,
unless the first one throws. -/
def tell
    (plan : BatchPlan)
    (invoke : Invoke)
    (member : BatchMember)
    (index : Nat)
    (process : EndedProcess) : SessionM Unit := do
  invoke.tell? member.onExit? [process.codeValue, process.outputValue]
  invoke.tell? (some plan.function)
    [.ofHandle plan.handle, .ofCount (index + 1), process.codeValue, process.outputValue]

/-- The course of a batch from the session in which it is run to another one, with the operations
that were launched and the reports that were made meanwhile, both in this order. A report tells
what became of the process of its operation on the machine of the host. -/
inductive Course
    (plan : BatchPlan)
    (batch : Batch)
    (invoke : Invoke)
    (start : Session) : List OperationId → List BatchReport → Session → Prop
  | begins :
      Course plan batch invoke start [] []
        (start.withHost { start.host with batches := start.host.batches.erase plan.handle })
  | books {launched : List OperationId} {reports : List BatchReport} {session : Session}
      {later : Host}
      (course : Course plan batch invoke start launched reports session)
      (books : Books batch session.host later) :
      Course plan batch invoke start launched reports (session.withHost later)
  | waits {launched : List OperationId} {reports : List BatchReport} {session : Session}
      {later : Host}
      (course : Course plan batch invoke start launched reports session)
      (waited : session.host.await? = some later) :
      Course plan batch invoke start launched reports (session.withHost later)
  | launches {launched : List OperationId} {reports : List BatchReport} {session : Session}
      {member : BatchMember} {cell : OutputCell}
      (course : Course plan batch invoke start launched reports session)
      (noFailure : firstFailure? reports = none)
      (room : launched.length < reports.length + max plan.limit 1)
      (isNext : plan.members[launched.length]? = some member) :
      Course plan batch invoke start
        (launched ++ [(session.host.beginProcess member.spec (some cell)).1]) reports
        (session.withHost (session.host.beginProcess member.spec (some cell)).2)
  | tells {launched : List OperationId} {reports : List BatchReport} {session later : Session}
      {member : BatchMember} {index : Nat} {process : EndedProcess}
      {result : Except String Unit}
      (course : Course plan batch invoke start launched reports session)
      (isOwn : launched[index]? = some process.operation)
      (isMember : plan.members[index]? = some member)
      (spec_eq : process.spec = member.spec)
      (hasRun : process.HasRun start.host.machine)
      (hasEnded : process ∈ session.host.ended)
      (notTold : index ∉ reports.map BatchReport.index)
      (told : (reported (plan.tell invoke member index process)).run.run session =
        (.ok result, later)) :
      Course plan batch invoke start launched (reports ++ [⟨index, process, result⟩]) later

/-- Of every process that was launched there is one report, in the order in which they ended, and
all processes were launched unless something failed. -/
structure Completes
    (plan : BatchPlan)
    (launched : List OperationId)
    (reports : List BatchReport)
    (session : Session) : Prop where
  each : (reports.map BatchReport.index).Perm (List.range launched.length)
  inOrder : session.host.ended.filter (fun process => process.operation ∈ launched) =
    reports.map BatchReport.process
  all : firstFailure? reports = none → launched.length = plan.members.length

/-- What a run of a batch may come to: all its reports, or an interruption by a function that is
told. The course that leads to the reports is known as long as the keys last. -/
inductive Outcome
    (plan : BatchPlan)
    (batch : Batch)
    (invoke : Invoke)
    (start : Session) : Except Interruption Value → Session → Prop
  | completes {launched : List OperationId} {reports : List BatchReport} {later : Session}
      (completes : Completes plan launched reports later)
      (course : later.host.parkings < UInt64.size →
        Course plan batch invoke start launched reports later) :
      Outcome plan batch invoke start (verdict reports) later
  | breaks {interruption : Interruption} {later : Session}
      (breaks : invoke.Breaks interruption later) :
      Outcome plan batch invoke start (.error interruption) later

/-- A batch is gone for good from a session on. Whatever a script does then, the batch is neither
run nor added to, as long as the handles last. -/
def Gone
    (handle : ScriptHandle)
    (session : Session) : Prop :=
  ∀ {α : Type} (step : SessionM α), Permitted step → HasEnded (step.run.run session).1 →
    let later := (step.run.run session).2
    later.host.parkings + 1 < UInt32.size →
      (∀ invoke limit fuel, (Natives.runBatch invoke handle limit fuel).run.run later =
        (.ok (.bool false), later)) ∧
      ∀ request onExit?, (Natives.addBatchProcess handle request onExit?).run.run later =
        (.ok (.bool false), later)

variable {plan : BatchPlan} {invoke : Invoke} {start session later : Session}
variable {launched : List OperationId} {reports : List BatchReport}

/-! ## The batch is gone -/

section Gone

variable (calls : ∀ function arguments, Permitted (invoke function arguments))

include calls

theorem permitted_tell?
    (function? : Option Function)
    (arguments : List Value) :
    Permitted (invoke.tell? function? arguments) := by
  cases function? with
  | none => exact permitted_pure _
  | some function => exact (calls _ _).bind fun _ => permitted_pure _

theorem permitted_tell
    (plan : BatchPlan)
    (member : BatchMember)
    (index : Nat)
    (process : EndedProcess) :
    Permitted (plan.tell invoke member index process) :=
  (permitted_tell? calls _ _).bind fun _ => permitted_tell? calls _ _

/-- The handle of a batch is spent as soon as it is run. -/
theorem Course.spent
    {batch : Batch}
    (course : Course plan batch invoke start launched reports session)
    (inSequence : InSequence start.host)
    (stored : start.host.batches.get? plan.handle = some batch) :
    Spent plan.handle session.host := by
  induction course with
  | begins => exact spent_of_taken inSequence stored
  | books _ books inductionHypothesis =>
      obtain ⟨keys, -, rest_eq⟩ := books.rest_eq
      rw [rest_eq]
      unfold Spent at inductionHypothesis ⊢
      dsimp only [withHost] at inductionHypothesis ⊢
      rw [Host.batches_releaseEach, Host.parkings_releaseEach]
      exact inductionHypothesis
  | waits _ waited inductionHypothesis =>
      have keeps := Permitted.awaits.keeps (stable_spent plan.handle) 0
      exact keeps.ofReturned _ _ _ inductionHypothesis (run_await waited)
  | launches _ _ _ _ inductionHypothesis => exact inductionHypothesis
  | @tells _ _ _ _ member index process _ _ _ _ _ _ _ _ told inductionHypothesis =>
      have keeps := (permitted_tell calls plan member index process).reported.keeps
        (stable_spent plan.handle) 0
      exact keeps.ofReturned _ _ _ inductionHypothesis told

/-- All processes of a batch run on one machine. -/
theorem Course.machine_eq
    {batch : Batch}
    (course : Course plan batch invoke start launched reports session) :
    session.host.machine = start.host.machine := by
  have stable := stable_machine start.host.machine
  induction course with
  | begins => rfl
  | books _ books inductionHypothesis =>
      obtain ⟨keys, -, rest_eq⟩ := books.rest_eq
      rw [rest_eq]
      exact (Host.view_releaseEach (fun _ _ => rfl) _ keys).trans inductionHypothesis
  | waits _ waited inductionHypothesis =>
      exact (Permitted.awaits.keeps stable 0).ofReturned _ _ _ inductionHypothesis
        (run_await waited)
  | launches _ _ _ _ inductionHypothesis => exact inductionHypothesis
  | @tells _ _ _ _ member index process _ _ _ _ _ _ _ _ told inductionHypothesis =>
      exact ((permitted_tell calls plan member index process).reported.keeps stable 0).ofReturned
        _ _ _ inductionHypothesis told

end Gone

/-- A batch that is gone is not run. -/
theorem run_runBatch_of_spent
    {handle : ScriptHandle}
    (isSpent : Spent handle session.host)
    (handlesLeft : session.host.parkings + 1 < UInt32.size)
    (invoke : Invoke)
    (limit fuel : Nat) :
    (Natives.runBatch invoke handle limit fuel).run.run session = (.ok (.bool false), session) := by
  obtain ⟨-, -, isFree⟩ := isSpent handlesLeft
  rw [← HandleTable.get?_eq_none_iff] at isFree
  have claimed : (Natives.claimBatch handle).run.run session = (.ok none, session) := by
    change (Except.ok (session.host.batches.get? handle),
      session.withHost { session.host with batches := session.host.batches.erase handle }) = _
    rw [HandleTable.erase_of_get?_eq_none isFree, isFree]
    rfl
  rw [Natives.runBatch, run_bind, claimed]
  rfl

/-- Nothing is added to a batch that is gone. -/
theorem run_addBatchProcess_of_spent
    {handle : ScriptHandle}
    (isSpent : Spent handle session.host)
    (handlesLeft : session.host.parkings + 1 < UInt32.size)
    (request : Natives.ProcessRequest)
    (onExit? : Option Function) :
    (Natives.addBatchProcess handle request onExit?).run.run session =
      (.ok (.bool false), session) := by
  obtain ⟨-, -, isFree⟩ := isSpent handlesLeft
  rw [← HandleTable.get?_eq_none_iff] at isFree
  rw [Natives.addBatchProcess, run_bind, run_theHost]
  dsimp only
  rw [isFree]
  rfl

/-- A batch is gone as soon as its run begins, also for the functions that are told meanwhile. -/
theorem Course.gone
    {batch : Batch}
    (course : Course plan batch invoke start launched reports session)
    (calls : ∀ function arguments, Permitted (invoke function arguments))
    (inSequence : InSequence start.host)
    (stored : start.host.batches.get? plan.handle = some batch) :
    Gone plan.handle session := by
  intro α step isPermitted hasEnded later handlesLeft
  have isSpent : Spent plan.handle later.host :=
    (isPermitted.keeps (stable_spent plan.handle) 0).ofEnded
      (course.spent calls inSequence stored) hasEnded
  exact ⟨run_runBatch_of_spent isSpent handlesLeft,
    run_addBatchProcess_of_spent isSpent handlesLeft⟩

end BatchPlan
end ScriptHost
