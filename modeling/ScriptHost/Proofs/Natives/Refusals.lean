import ScriptHost.Proofs.Host.Records
import ScriptHost.Proofs.Natives.Deeds
import ScriptHost.Proofs.Natives.Uses

/-!
# Calls that refuse

A function of the host that refuses throws an error or answers null or false. If it has not called
back, has launched no work and has not waited for an operation before, the tables of the host are
what they were. So it is with what a run refuses to take in: the operation stays with the script,
and no function stays parked for it.
-/

namespace ScriptHost

/-- What a host keeps for its script: operations, batches and connections, and the functions that
it may call. -/
structure Tables where
  operations : HandleTable HeldOperation
  batches : HandleTable Batch
  connections : HandleTable Connection
  callables : Registry Function

/-- The tables of a host. -/
def Host.tables (host : Host) : Tables :=
  ⟨host.operations, host.batches, host.connections, host.callables⟩

/-- Whether the tables are the same depends on nothing but them. -/
theorem indifferent_tables (tables : Tables) :
    Indifferent fun host => host.tables = tables := by
  intro host later same sameBooks isSo
  have sameHoldings : later.holdings = host.holdings := congrArg Affairs.holdings same
  have sameOperations : later.operations = host.operations :=
    congrArg (fun books => books.2.1) sameBooks
  rw [← isSo, Host.tables, sameOperations]
  exact congrArg (fun holdings : Holdings =>
    (⟨host.operations, holdings.batches, holdings.connections, holdings.callables⟩ : Tables))
    sameHoldings

/-- Work in the background leaves the tables as they are. -/
theorem Host.tables_perform
    (host : Host)
    (work : Work) :
    (host.perform work).tables = host.tables :=
  Host.view_perform (fun _ _ _ _ _ _ _ => rfl) host work

/-- Time that passes leaves the tables as they are. -/
theorem Host.tables_passUntil
    (time fuel : Nat)
    (host : Host) :
    (Host.passUntil time fuel host).tables = host.tables := by
  induction fuel generalizing host with
  | zero => rfl
  | succ fuel inductionHypothesis =>
      unfold Host.passUntil
      split
      · rfl
      · exact (inductionHypothesis _).trans (Host.tables_perform _ _)

namespace Session

/-- Functions none of which comes to an end when it is called. -/
def silent : Invoke :=
  fun _ _ => throw .stuck

/-- A call throws an error, or answers null or false. -/
def Refused : Except Interruption Value → Prop
  | .error (.thrown _) | .ok .null | .ok (.bool false) => True
  | _ => False

/-- A call refuses what it is asked, and has not called back: it comes to the same if no function
would come to an end. It has launched no work, and nobody was handed what came of an operation. -/
structure Refuses
    (invoke : Invoke)
    (session : Session)
    (name : String)
    (arguments : List Value) : Prop where
  isRefused : Refused ((Natives.call invoke name arguments).run.run session).1
  unaided : (Natives.call silent name arguments).run.run session =
    (Natives.call invoke name arguments).run.run session
  launchesNothing :
    ((Natives.call invoke name arguments).run.run session).2.host.board.operations.size =
      session.host.board.operations.size
  awaitsNothing : ((Natives.call invoke name arguments).run.run session).2.host.dealings.handed =
    session.host.dealings.handed

end Session

namespace Natives

open Session

variable {α : Type}

/-- The tables are what they were, or work was launched meanwhile, or somebody was handed what came
of an operation. -/
def Spares (before later : Host) : Prop :=
  later.tables = before.tables ∨
    before.board.operations.size < later.board.operations.size ∨
      before.dealings.handed.length < later.dealings.handed.length

/-- A step that refuses spares the tables. -/
def Sparing (step : SessionM Value) : Prop :=
  ∀ before, Ensures (fun host => host = before) step
    (fun value host => Refused (.ok value) → Spares before host) (Spares before)

/-- A step that keeps whatever the tables are spares them. -/
theorem sparing_of_keeps
    {step : SessionM Value}
    (keeps : ∀ tables, Keeps (fun host => host.tables = tables) step) :
    Sparing step := fun before =>
  (keeps before.tables).weaken (fun _ same => congrArg Host.tables same)
    (fun _ _ same _ => .inl same) fun _ => .inl

/-- What is found out beforehand leaves the host as it is. -/
theorem Sparing.after
    {first : SessionM α}
    {next : α → SessionM Value}
    (keeps : ∀ before, Keeps (fun host => host = before) first)
    (sparing : ∀ value, Sparing (next value)) :
    Sparing (first >>= next) := fun before =>
  Ensures.bind (Ensures.weaken (keeps before) (fun _ => id) (fun _ _ => id)
    fun _ same => .inl (congrArg Host.tables same)) fun value => sparing value before

/-- A step never refuses. -/
def Answers (step : SessionM Value) : Prop :=
  Ensures (fun _ => True) step (fun value _ => ¬Refused (.ok value)) never

/-- A step that answers spares the tables. -/
theorem Answers.sparing
    {step : SessionM Value}
    (answers : Answers step) :
    Sparing step := fun _ =>
  answers.weaken (fun _ _ => trivial) (fun _ _ notRefused isRefused => (notRefused isRefused).elim)
    fun _ => False.elim

theorem answers_pure
    {value : Value}
    (notRefused : ¬Refused (.ok value)) :
    Answers (pure value) :=
  ensures_pure fun _ _ => notRefused

/-- What answers whatever it is told may ask the host first. -/
theorem Answers.afterAsking
    {request : Host → α × Host}
    {next : α → SessionM Value}
    (answers : ∀ answer, Answers (next answer)) :
    Answers (askHost request >>= next) :=
  Ensures.bind (ensures_askHost (fun _ _ => True) fun _ => id) answers

/-- What answers may change the host first. -/
theorem Answers.afterChanging
    {change : Host → Host}
    {next : Unit → SessionM Value}
    (answers : Answers (next ())) :
    Answers (changeHost change >>= next) :=
  Ensures.bind (ensures_changeHost (fun _ _ => True) fun _ => id) fun _ => answers

/-- A function of the host that refuses without a call back spares the tables. -/
def Abstains (native : Native) : Prop :=
  ∀ arguments, Sparing (native.body silent arguments)

/-- A native that reads its arguments abstains if its body spares the tables for every input. -/
theorem abstains_reading
    {required : Nat}
    {parameters : Parameters α}
    {body : Invoke → α → SessionM Value}
    (sparing : ∀ values, Sparing (body silent values)) :
    Abstains (.reading required parameters body) :=
  fun _ => .after (fun _ => keeps_converted _) fun read => sparing read.1

/-- A native that calls no callback abstains if its body spares the tables. -/
theorem abstains_plain
    {required : Nat}
    {parameters : Parameters α}
    {body : α → SessionM Value}
    (sparing : ∀ values, Sparing (body values)) :
    Abstains (.plain required parameters body) :=
  abstains_reading sparing

/-- A native that respects all tables abstains. -/
theorem abstains_of_respects
    {native : Native}
    (respects : ∀ tables, Respects (fun _ host => host.tables = tables) native) :
    Abstains native := fun arguments =>
  sparing_of_keeps fun tables => respects tables silent (fun _ _ _ => ensures_stuck) arguments 0

/-! ## Storage, surroundings and the web -/

/-- The natives for files and directories abstain. -/
theorem abstains_storage : ∀ entry ∈ storage, Abstains entry.2 :=
  fun entry member => abstains_of_respects fun tables =>
    respects_storage (fun _ => indifferent_tables tables) entry member

/-- The natives for the terminal and the process abstain. -/
theorem abstains_surroundings : ∀ entry ∈ surroundings, Abstains entry.2 :=
  fun entry member => abstains_of_respects fun tables =>
    respects_surroundings (fun _ => indifferent_tables tables) (fun _ _ _ => id) entry member

/-- An operation that is begun for the script is answered with its handle. -/
theorem sparing_holding
    (request : Host → OperationId × Host)
    (natural : ResultType) :
    Sparing (do
      let operation ← askHost request
      return Value.ofHandle (← askHost fun host => host.holdOperation operation natural)) :=
  (Answers.afterAsking fun _ => .afterAsking fun _ => answers_pure id).sparing

/-- The natives for the web abstain. -/
theorem abstains_web : ∀ entry ∈ web, Abstains entry.2 := by
  simp only [web, List.forall_mem_cons]
  refine ⟨?_, ?_, List.forall_mem_nil _⟩
  · exact abstains_plain fun _ => sparing_holding _ _
  · exact abstains_plain fun _ => sparing_of_keeps fun tables =>
      keeps_httpRequest (indifferent_tables tables) _

/-! ## Tasks -/

theorem sparing_taskDelay (milliseconds : Binary64) : Sparing (taskDelay milliseconds) := by
  unfold taskDelay
  split
  · exact sparing_of_keeps fun _ => keeps_raise _
  · exact sparing_of_keeps fun _ => ensures_crashed
  · exact sparing_holding _ _

/-- Asking for the status of an operation spares the tables. -/
theorem sparing_taskStatus (handle : ScriptHandle) : Sparing (taskStatus handle) := by
  refine sparing_of_keeps fun tables => keeps_theHost.bind fun host => ?_
  split
  · exact Keeps.bind (keeps_changeHost fun _ => id) fun _ => keeps_pure _
  · exact Keeps.bind (keeps_changeHost fun _ => id) fun _ => keeps_raise _

/-- What was dealt is never forgotten. -/
theorem lasting_dealings (earlier : Dealings) :
    Lasting fun _ host => earlier <+: host.dealings :=
  fun _ _ _ _ doing goesOn => goesOn.trans doing.dealings_prefix

/-- Whoever waits for an operation is handed what came of it before anything is answered. -/
theorem ensures_receive
    (earlier : Dealings)
    (handle : ScriptHandle)
    (type? : Option String)
    (held : HeldOperation) :
    Ensures (fun host => earlier <+: host.dealings) (receive handle type? held)
      (fun _ host => earlier.handed.length < host.dealings.handed.length)
      fun host => earlier.handed.length < host.dealings.handed.length := by
  refine Ensures.bind (@ensures_waitFor _ 0 _ (lasting_dealings earlier) _)
    fun outcome => Ensures.bind (ensures_changeHost
      (fun _ host => earlier.handed.length < host.dealings.handed.length)
      fun host holds => ?_) fun _ => ?_
  · have wasHanded := (holds.2.filterMap Dealing.handed?).length_le
    rw [Host.deal, Dealings.handed_concat, Dealing.handed?, Option.toList_some,
      List.length_append, List.length_singleton]
    exact Nat.lt_succ_of_le wasHanded
  · split
    · exact keeps_pure _
    · exact keeps_raise _

/-- Who claims an operation that is not there leaves the tables as they are. -/
theorem ensures_claim_eq
    (handle : ScriptHandle)
    (before : Host) :
    Ensures (fun host => host = before) (claim handle)
      (fun held? host => (held? = none → host.tables = before.tables) ∧
        before.dealings <+: host.dealings) never := by
  refine ensures_theHost.bind fun seen => ?_
  split
  next absent =>
    refine Ensures.bind (ensures_changeHost (fun _ host => host = before.deal (.missed handle)) ?_)
      fun _ => ensures_pure ?_
    · rintro _ ⟨-, rfl⟩
      rfl
    · rintro _ rfl
      exact ⟨fun _ => rfl, List.prefix_append _ _⟩
  next held later taken =>
    refine Ensures.bind (ensures_changeHost (fun _ host => before.dealings <+: host.dealings) ?_)
      fun _ => ensures_pure fun _ goesOn => ⟨nofun, goesOn⟩
    rintro _ ⟨rfl, rfl⟩
    obtain ⟨-, rfl⟩ := Host.takeOperation_eq_some taken
    exact List.prefix_append _ _

/-- A wait that refuses the type that it is given spares the tables. -/
theorem sparing_taskWait
    (handle : ScriptHandle)
    (type? : Option String) :
    Sparing (taskWait handle type?) := by
  refine fun before => Ensures.bind ((ensures_claim_eq handle before).ofNever fun _ _ => id)
    fun held? => ?_
  cases held? with
  | none =>
      have keeps (message : String) :
          Keeps (fun host => host.tables = before.tables) (raise message : SessionM Value) :=
        keeps_raise message
      exact (keeps _).weaken (fun _ claimed => claimed.1 rfl) (fun _ _ same _ => .inl same)
        fun _ => .inl
  | some held =>
      exact (ensures_receive before.dealings handle type? held).weaken (fun _ => And.right)
        (fun _ _ wasHanded _ => .inr (.inr wasHanded)) fun _ wasHanded => .inr (.inr wasHanded)

/-- A producer that does not come to an end produces nothing. -/
theorem ensures_produce_silent
    {before thrown : Host → Prop}
    (producer : Function) :
    Ensures before (produce silent producer) (fun _ => never) thrown where
  ofReturned _ _ _ _ ran := by cases ran
  ofThrown _ _ _ _ ran := by cases ran

/-- A run asks its producer before anything else. -/
theorem ensures_runPull_silent
    {dispatch : Scheduler.Completion Awaiter → SessionM (Except String Unit)}
    {discard : Awaiter → SessionM Unit}
    (producer : Function)
    (limit fuel : Nat) :
    Ensures (fun _ => True)
      (Scheduler.runPull (environment dispatch discard) limit (produce silent producer) fuel)
      (fun result? _ => result? = none) never := by
  have pulls (mailbox : MailboxId) :
      Ensures (fun _ => True)
        (Scheduler.pull (environment dispatch discard) (produce silent producer) fuel
          (.start limit mailbox))
        (fun run? _ => run? = none) never := by
    cases fuel with
    | zero => exact ensures_pure fun _ _ => rfl
    | succ fuel =>
        rw [Scheduler.pull, if_neg (Scheduler.goesOn_start _ _),
          if_neg (ne_true_of_eq_false (Scheduler.isFull_start ..))]
        exact Ensures.bind (ensures_produce_silent producer) fun _ => ensures_of_never
  refine Ensures.bind (Scheduler.ensures_begin (fun _ _ => True) (fun _ _ => trivial) limit)
    fun run => ensures_of_fact fun isStart => ?_
  rw [isStart]
  refine (pulls run.slots.mailbox).bind fun run? => ?_
  cases run? with
  | none => exact ensures_pure fun _ _ => rfl
  | some run => exact ensures_of_never.imp fun _ => Option.some_ne_none run

/-- A run of a producer that is refused spares the tables. -/
theorem sparing_taskRun
    (producer : Function)
    (limit? : Option Binary64) :
    Sparing (taskRun silent producer limit?) := by
  refine .after (fun _ => keeps_theHost) fun host => .after (fun _ => keeps_countOf _ _ _)
    fun limit => Answers.sparing ?_
  refine Ensures.bind (ensures_runPull_silent producer limit runFuel) fun result? => ?_
  cases result? with
  | none => exact Ensures.bind ensures_stuck fun _ => ensures_of_never
  | some result => exact ensures_of_never.imp fun _ => Option.some_ne_none result

/-- The natives for operations abstain. -/
theorem abstains_tasks : ∀ entry ∈ tasks, Abstains entry.2 := by
  simp only [tasks, List.forall_mem_cons]
  refine ⟨?_, ?_, ?_, ?_, List.forall_mem_nil _⟩
  · exact abstains_plain sparing_taskDelay
  · exact abstains_plain sparing_taskStatus
  · exact abstains_plain fun values => sparing_taskWait values.1 values.2
  · exact abstains_reading fun values => sparing_taskRun values.1 values.2

/-! ## Processes and batches -/

theorem sparing_startProcess (request : ProcessRequest) : Sparing (startProcess request) :=
  sparing_of_keeps fun _ => keeps_theHost.bind fun _ => Keeps.bind
    (keeps_changeHost fun _ same => (Host.tables_passUntil _ _ _).trans same) fun _ => keeps_pure _

theorem sparing_createBatchProcess (callback : Value) : Sparing (createBatchProcess callback) := by
  unfold createBatchProcess
  split
  next function =>
    exact (Answers.afterAsking fun _ => .afterAsking fun _ => answers_pure id).sparing
  next => exact sparing_of_keeps fun _ => keeps_pure _

theorem sparing_addBatchProcess
    (handle : ScriptHandle)
    (request : ProcessRequest)
    (onExit? : Option Function) :
    Sparing (addBatchProcess handle request onExit?) := by
  refine .after (fun _ => keeps_theHost) fun host => ?_
  split
  next => exact sparing_of_keeps fun _ => keeps_pure _
  next batch found =>
    exact (Answers.afterAsking fun _ => .afterChanging (answers_pure id)).sparing

/-- Who claims a batch that is not there leaves the tables as they are. -/
theorem ensures_claimBatch_eq
    (handle : ScriptHandle)
    (before : Host) :
    Ensures (fun host => host = before) (claimBatch handle)
      (fun batch? host => (batch? = none → host.tables = before.tables) ∧
        host.board = before.board) never := by
  refine ensures_askHost _ ?_
  rintro host rfl
  refine ⟨fun absent => ?_, rfl⟩
  exact congrArg (fun batches => ({ host.tables with batches := batches } : Tables))
    (HandleTable.erase_of_get?_eq_none absent)

/-- A board never loses an operation. -/
theorem lasting_size (count : Nat) :
    Lasting fun _ host => count ≤ host.board.operations.size := by
  have shifts : ∀ ⦃hand scene laterHand later⦄, Shift hand scene laterHand later →
      count ≤ scene.board.operations.size → count ≤ later.board.operations.size := by
    intro hand scene laterHand later shift holds
    cases shift with
    | begins => exact (Nat.le_succ_of_le holds).trans_eq (Board.size_create _).symm
    | ends => exact holds.trans_eq (Board.size_settle ..).symm
    | settles => exact holds.trans_eq (Board.size_settle ..).symm
    | listens => exact holds.trans_eq (Board.size_listen ..).symm
    | rests | advances | makesCell | takesOutput | opensMailbox | setsSignals => exact holds
  exact (stable_of_shift shifts).lasting

/-- A job of a batch puts an operation on the board. -/
theorem ensures_launch
    {entry : BatchEntry × Nat}
    {job : Scheduler.Job SessionM BatchSlot}
    (isJob : IsJobOf entry job)
    (count : Nat) :
    Ensures (fun host => count ≤ host.board.operations.size) job.launch
      (fun _ host => count < host.board.operations.size) never := by
  rw [isJob.launch_eq]
  exact ensures_askHost _ fun host holds =>
    (Nat.lt_succ_of_le holds).trans_eq (Board.size_create _).symm

/-- A run that launches nothing does not fail. -/
theorem ensures_runFanOut_nil
    {κ : Type}
    {dispatch : Scheduler.Completion κ → SessionM (Except String Unit)}
    {discard : κ → SessionM Unit}
    (limit fuel : Nat) :
    Ensures (fun _ => True) (Scheduler.runFanOut (environment dispatch discard) limit [] fuel)
      (fun result? _ => ∀ message, result? ≠ some (.error message)) never := by
  refine Ensures.bind (Scheduler.ensures_begin (fun _ _ => True) (fun _ _ => trivial) limit)
    fun run => ensures_of_fact fun isStart => ?_
  rw [isStart]
  cases fuel with
  | zero => exact ensures_pure fun _ _ message same => by cases same
  | succ fuel =>
      rw [Scheduler.launch, if_neg (Scheduler.goesOn_start _ _),
        if_neg (ne_true_of_eq_false (Scheduler.isFull_start ..))]
      exact ensures_pure fun _ _ _ same => by cases same

/-- What a run comes to is thrown only if the run failed. -/
theorem ensures_runResult_of_ne (result? : Option (Except String Scheduler.Report)) :
    Ensures (fun _ => ∀ message, result? ≠ some (.error message)) (runResult result?)
      (fun _ _ => True) never := by
  rcases result? with _ | message | report
  · exact ensures_stuck
  · exact ensures_of_never.imp fun _ notFailed => notFailed message rfl
  · exact ensures_pure fun _ _ => trivial

/-- A batch without processes is run without fail. -/
theorem answers_runNothing
    {κ : Type}
    {dispatch : Scheduler.Completion κ → SessionM (Except String Unit)}
    {discard : κ → SessionM Unit}
    (key : HandleKey)
    (limit fuel : Nat) :
    Answers (do
      let result? ← Scheduler.runFanOut (environment dispatch discard) limit [] fuel
      changeHost fun host => host.release key
      let _ ← runResult result?
      pure (.bool true)) := by
  refine (ensures_runFanOut_nil limit fuel).bind fun result? => ?_
  refine Ensures.bind (ensures_changeHost (fun _ _ => ∀ message,
    result? ≠ some (.error message)) fun _ => id) fun _ => ?_
  exact (ensures_runResult_of_ne result?).bind fun _ => answers_pure id

/-- A batch that is not there is refused, one without processes is not, and of any other the first
process is launched before anything can fail. -/
theorem sparing_runBatch
    (handle : ScriptHandle)
    (limit fuel : Nat) :
    Sparing (runBatch silent handle limit fuel) := by
  intro before
  refine Ensures.bind ((ensures_claimBatch_eq handle before).ofNever fun _ _ => id) fun batch? => ?_
  cases batch? with
  | none => exact ensures_pure fun _ claimed _ => .inl (claimed.1 rfl)
  | some batch =>
      have makesJobs := (@ensures_batchJobs _ 0 (lasting_size before.board.operations.size)
        batch.entries.zipIdx).imp fun host
          (same : (some batch = none → host.tables = before.tables) ∧ host.board = before.board) =>
            (congrArg (fun board => board.operations.size) same.2).ge
      refine Ensures.bind (makesJobs.ofNever fun _ _ => id) fun jobs =>
        ensures_of_fact fun areJobs => ?_
      generalize batch.entries.zipIdx = entries at areJobs
      -- Nothing fails before the first job is launched, and without jobs nothing fails at all.
      cases areJobs with
      | nil =>
          exact (answers_runNothing batch.callback limit fuel).weaken (fun _ _ => trivial)
            (fun _ _ notRefused isRefused => (notRefused isRefused).elim) fun _ => False.elim
      | cons isJob areJobs =>
          have custody := custody_batch (lasting_size (before.board.operations.size + 1))
            (fun _ _ _ => ensures_stuck) handle batch.callback
          have launches :=
            launches_of_jobs areJobs (lasting_size (before.board.operations.size + 1))
          have runs := custody.runFanOut_cons (fun _ => id) (ensures_launch isJob _)
            (fun job member => launches job member 0) limit fuel
          exact (ensures_concluded runs fun _ => id).weaken (fun _ => id)
            (fun _ _ grown _ => .inr (.inl grown)) fun _ grown => .inr (.inl grown)

/-- The natives for processes abstain. -/
theorem abstains_processes : ∀ entry ∈ processes, Abstains entry.2 := by
  simp only [processes, List.forall_mem_cons]
  refine ⟨?_, ?_, ?_, ?_, ?_, List.forall_mem_nil _⟩
  · exact abstains_plain sparing_startProcess
  · exact abstains_plain fun _ => sparing_holding _ _
  · exact abstains_plain sparing_createBatchProcess
  · exact abstains_plain fun values => sparing_addBatchProcess values.1 values.2.1 values.2.2
  · exact abstains_reading fun values => .after (fun _ => keeps_theHost) fun _ =>
      .after (fun _ => keeps_countOf _ _ _) fun limit => sparing_runBatch values.1 limit runFuel

/-! ## Connections -/

theorem answers_holdConnection
    (transport : TransportId)
    (isServer : Bool)
    (request : ConnectionRequest) :
    Answers (Natives.holdConnection transport isServer request) :=
  .afterAsking fun _ => .afterAsking fun _ => .afterAsking fun _ => .afterAsking fun _ =>
    answers_pure id

/-- A transport that cannot start holds no callbacks. -/
theorem sparing_startConnection
    (isServer : Bool)
    (config : Value) :
    Sparing (startConnection isServer config) := by
  refine .after (fun _ => keeps_converted _) fun request => .after (fun _ => keeps_theHost)
    fun host => .after (fun _ => keeps_countOf _ _ _) fun bufferSize =>
      .after (fun _ => keeps_theHost) fun host => ?_
  split
  all_goals
    dsimp only
    split
    · exact sparing_of_keeps fun _ => keeps_pure _
    · exact (Answers.afterChanging (answers_holdConnection ..)).sparing

theorem sparing_tcpDispose (handle : ScriptHandle) : Sparing (tcpDispose handle) := by
  refine .after (fun _ => keeps_theHost) fun host => ?_
  split
  next => exact sparing_of_keeps fun _ => keeps_pure _
  next => exact (Answers.afterChanging (answers_pure id)).sparing

/-- An event for which no callback is called leaves the tables as they are. -/
theorem keeps_tell_silent
    (tables : Tables)
    (handle : ScriptHandle)
    (connection : Connection)
    (listeners : Listeners)
    (client : ConnectionId)
    (event : ConnectionEvent) :
    Keeps (fun host => host.tables = tables)
      (tell silent handle connection listeners client event) := by
  unfold tell
  split
  · exact keeps_pure _
  · refine Keeps.bind (Keeps.bind (keeps_changeHost fun _ => id) fun _ => ?_) fun _ => keeps_pure _
    exact (Ensures.reported ensures_stuck).ofNever fun _ _ => id

/-- A pump that calls nobody leaves the tables as they are. -/
theorem sparing_tcpPumpEvents (handle : ScriptHandle) : Sparing (tcpPumpEvents silent handle) := by
  refine sparing_of_keeps fun tables => keeps_theHost.bind fun host => ?_
  split
  next => exact keeps_raise _
  next connection found =>
    refine Keeps.bind (keeps_changeHost fun _ => id) fun _ => Keeps.bind
      (ensures_dispatch ?_ ?_ ?_ ?_) fun report => Keeps.bind (keeps_changeHost fun _ => id)
        fun _ => keeps_theHost.bind fun host => ?_
    · exact keeps_theHost.bind fun _ => keeps_pure _
    · intro bridge
      change Keeps _ (changeHost fun host =>
        { host with network := host.network.setBridge connection.transport bridge })
      exact keeps_changeHost fun _ => id
    · exact keeps_tell_silent tables handle connection _
    · exact fun tracked => keeps_pure _
    · split
      · exact Keeps.bind (keeps_changeHost fun _ => id) fun _ => keeps_raise _
      · exact keeps_pure _

/-- The natives for connections abstain. -/
theorem abstains_connections : ∀ entry ∈ connections, Abstains entry.2 := by
  simp only [connections, List.forall_mem_cons]
  refine ⟨?_, ?_, ?_, ?_, ?_, ?_, ?_, List.forall_mem_nil _⟩
  · exact abstains_plain (sparing_startConnection false)
  · exact abstains_plain (sparing_startConnection true)
  · exact abstains_plain fun values => sparing_of_keeps fun tables =>
      keeps_sendPacket (indifferent_tables tables) values.1 none values.2.1 values.2.2
  · exact abstains_plain fun values => sparing_of_keeps fun tables =>
      keeps_sendPacket (indifferent_tables tables) values.1 (some values.2.1) values.2.2.1
        values.2.2.2
  · exact abstains_plain sparing_tcpDispose
  · exact abstains_reading sparing_tcpPumpEvents
  · exact abstains_plain fun handle => sparing_of_keeps fun _ => keeps_tcpServerEndpoint handle

/-! ## All functions of the host -/

/-- Every native abstains. -/
theorem abstains_all : ∀ entry ∈ all, Abstains entry.2 := by
  simp only [all, List.forall_mem_append]
  exact ⟨⟨⟨⟨⟨abstains_tasks, abstains_processes⟩, abstains_connections⟩, abstains_web⟩,
    abstains_surroundings⟩, abstains_storage⟩

/-- A call of a native that refuses without callbacks spares the tables. -/
theorem sparing_call
    (name : String)
    (arguments : List Value) :
    Sparing (Natives.call silent name arguments) := by
  unfold Natives.call
  split
  next native found =>
    unfold Native.call
    split
    · exact sparing_of_keeps fun _ => keeps_raiseType _
    · exact abstains_all _ (mem_of_lookup found) arguments
  next => exact sparing_of_keeps fun _ => keeps_raiseType _

/-- What is said of a step that refuses holds of the host that it leaves. -/
theorem ensures_of_refused
    {before after : Host → Prop}
    {step : SessionM Value}
    {session : Session}
    (ensures : Ensures before step (fun value host => Refused (.ok value) → after host) after)
    (holds : before session.host)
    (isRefused : Refused (step.run.run session).1) :
    after (step.run.run session).2.host := by
  generalize ran : step.run.run session = result at isRefused ⊢
  obtain ⟨interruption | value, later⟩ := result
  · cases interruption with
    | thrown value => exact ensures.ofThrown session value later holds ran
    | crashed | stuck => exact isRefused.elim
  · exact ensures.ofReturned session value later holds ran isRefused

/-- Whoever refuses what is asked of it leaves the tables as they were. -/
theorem tables_eq_of_refuses
    {invoke : Invoke}
    {session : Session}
    {name : String}
    {arguments : List Value}
    (refuses : session.Refuses invoke name arguments) :
    ((Natives.call invoke name arguments).run.run session).2.host.tables = session.host.tables := by
  obtain ⟨isRefused, unaided, launchesNothing, awaitsNothing⟩ := refuses
  -- The call comes to the same when nobody can be called back.
  rw [← unaided] at isRefused launchesNothing awaitsNothing ⊢
  obtain same | grown | wasHanded :=
    ensures_of_refused (sparing_call name arguments session.host) rfl isRefused
  · exact same
  · exact absurd launchesNothing grown.ne'
  · exact absurd (congrArg List.length awaitsNothing) wasHanded.ne'

end Natives
end ScriptHost
