import ScriptHost.Proofs.Batch.Courses
import ScriptHost.Proofs.Scheduler.Steering
import ScriptHost.Proofs.Session.Turns

/-!
# Stages of a run of a batch

At each stage of its course a run of a batch has launched the first of its processes and told of
some of them. The others stand in its slots, each with the place for its output and the key of
its function, and the jobs that are left are those of the processes that follow.
-/

namespace ScriptHost

open Session Scheduler Natives Attendance

/-- A batch that is run, from the session in which its run begins, in which others have
something in hand. The functions that it calls do what scripts may do. -/
structure BatchRun where
  plan : BatchPlan
  invoke : Invoke
  start : Session
  batch : Batch
  others : Multiset Possession
  calls : ∀ function arguments, Permitted (invoke function arguments)
  isStored : plan.IsStored start.host batch
  reached : Reached others start.host

namespace BatchRun

/-- The place for the output of the first process. -/
def base (run : BatchRun) : OutputCell :=
  run.start.host.outputs.size

/-- The job of the process at an index, whose place for output follows those of the processes
before it. -/
def jobOf
    (base : OutputCell)
    (entry : BatchEntry × Nat) : Job SessionM BatchSlot where
  launch := askHost fun host => host.beginProcess entry.1.spec (some (base + entry.2))
  type := .int
  callback := ⟨entry.2 + 1, entry.1.spec.capture, base + entry.2, entry.1.onExit?⟩

/-- The jobs of all processes. -/
def jobs (run : BatchRun) : List (Job SessionM BatchSlot) :=
  run.batch.entries.zipIdx.map (jobOf run.base)

/-- The processes as they are run. -/
def specs (run : BatchRun) : List ProcessSpec :=
  run.batch.entries.map BatchEntry.spec

/-- What is in hand when jobs are left over: the mailbox, what stands in the slots, what the jobs
consist of, and the key of the function of the batch. -/
def hand
    (run : BatchRun)
    (left : List (Job SessionM BatchSlot))
    (inner : Run BatchSlot String) : Multiset Possession :=
  inner.hand BatchSlot.possessions
    (.key run.batch.callback ::ₘ handOf BatchSlot.possessions left)

theorem mailbox_mem_hand
    (run : BatchRun)
    (left : List (Job SessionM BatchSlot))
    (inner : Run BatchSlot String) :
    .mailbox inner.slots.mailbox ∈ run.hand left inner :=
  Multiset.mem_cons_self _ _

/-- The processes are attended to with what is in hand, and the keys in hand stand for what they
stood for. -/
def Tends
    (run : BatchRun)
    (ours : Multiset Possession)
    (launched : List OperationId)
    (told : List EndedProcess)
    (slots : Slots BatchSlot)
    (others : Multiset Possession)
    (host : Host) : Prop :=
  (Reached (ours + others) host ∧
    ∃ queue, Attends (rooms ours) run.base run.specs launched told slots queue host.scene) ∧
    Guards ours run.start.host.callables.get? host

/-- A stage of a run. The course that leads to it is known as long as the keys last. -/
structure Stage
    (run : BatchRun)
    (launched : List OperationId)
    (reports : List BatchReport)
    (left : List (Job SessionM BatchSlot))
    (inner : Run BatchSlot String)
    (session : Session) : Prop where
  tends : run.Tends (run.hand left inner) launched (reports.map BatchReport.process) inner.slots
    run.others session.host
  roster : Roster (rooms (run.hand left inner)) run.base run.specs launched inner.slots
  counted : inner.slots.Counted
  limit_eq : inner.slots.limit = max run.plan.limit 1
  nextSequence_eq : inner.slots.nextSequence = launched.length
  left_eq : left = run.jobs.drop launched.length
  length_le : launched.length ≤ run.jobs.length
  job_eq : ∀ {index slot}, inner.slots.slotAt? index = some slot →
    ∃ job, run.jobs[slot.sequence]? = some job ∧ slot.callback = job.callback ∧ slot.type = .int
  count_eq : reports.length + inner.slots.occupied = launched.length
  lt : ∀ report ∈ reports, report.index < launched.length
  nodup : (reports.map BatchReport.index).Nodup
  notTold : ∀ {index slot}, inner.slots.slotAt? index = some slot →
    slot.sequence ∉ reports.map BatchReport.index
  failure?_eq : inner.failure? = firstFailure? reports
  course : session.host.parkings < UInt64.size →
    run.plan.Course run.batch run.invoke run.start launched reports session

variable {run : BatchRun} {launched : List OperationId} {reports : List BatchReport}
variable {left : List (Job SessionM BatchSlot)} {inner : Run BatchSlot String}
variable {session : Session}

/-! ## Jobs -/

theorem exists_member
    {index : Nat}
    {entry : BatchEntry}
    (isEntry : run.batch.entries[index]? = some entry) :
    ∃ member, run.plan.members[index]? = some member ∧
      entry.IsFor run.start.host.callables member := by
  obtain ⟨-, -, areFor⟩ := run.isStored
  obtain ⟨inRange, rfl⟩ := List.getElem?_eq_some_iff.mp isEntry
  have inRangeToo : index < run.plan.members.length := areFor.length_eq ▸ inRange
  exact ⟨run.plan.members[index], List.getElem?_eq_getElem inRangeToo,
    areFor.get inRange inRangeToo⟩

theorem exists_entry
    {index : Nat}
    {job : Job SessionM BatchSlot}
    (isJob : run.jobs[index]? = some job) :
    ∃ entry, run.batch.entries[index]? = some entry ∧ job = jobOf run.base (entry, index) := by
  rw [jobs, List.getElem?_map, List.getElem?_zipIdx, Option.map_map,
    Option.map_eq_some_iff] at isJob
  obtain ⟨entry, isEntry, rfl⟩ := isJob
  rw [Nat.zero_add]
  exact ⟨entry, isEntry, rfl⟩

theorem getElem?_specs
    {index : Nat}
    {entry : BatchEntry}
    (isEntry : run.batch.entries[index]? = some entry) :
    run.specs[index]? = some entry.spec := by
  rw [specs, List.getElem?_map, isEntry]
  rfl

/-- Whatever others do, the processes are attended to. -/
theorem stable_tends
    {ours : Multiset Possession}
    {told : List EndedProcess}
    {slots : Slots BatchSlot}
    (roster : Roster (rooms ours) run.base run.specs launched slots) :
    Stable (run.Tends ours launched told slots) := by
  rintro hand host laterHand later deed ⟨attending, guards⟩
  exact ⟨stable_attends roster deed attending, deed.guards attending.1.owns guards⟩

/-! ## Waiting -/

/-- If something is outstanding and nothing is announced, the run waits for what is on the
agenda. -/
theorem Stage.waits
    (stage : run.Stage launched reports left inner session)
    (notEmpty : inner.slots.isEmpty = false)
    (silent : inner.complete? session.host.board = none) :
    ∃ later, session.host.await? = some later ∧
      run.Stage launched reports left inner (session.withHost later) := by
  obtain ⟨⟨-, queue, attends⟩, -⟩ := stage.tends
  have noSignals : session.host.scene.board.signals inner.slots.mailbox = [] := by
    cases signals : session.host.scene.board.signals inner.slots.mailbox with
    | nil => rfl
    | cons index rest =>
        obtain ⟨_, _, slot, -, -, -, isComplete⟩ := attends.complete?_eq_some signals
        have announced := Run.complete?_eq_some_iff.mpr ⟨_, _, isComplete, rfl, rfl⟩
        cases silent.symm.trans announced
  have outstanding : inner.slots.callbacks ≠ 0 := by
    rw [← Multiset.card_pos, stage.counted.card_callbacks]
    exact Nat.pos_of_ne_zero (beq_eq_false_iff_ne.mp notEmpty)
  obtain ⟨index, slot, filled⟩ := Slots.exists_filled outstanding
  obtain ⟨work, agenda, isNext⟩ := Agenda.exists_next? (attends.works_ne_nil noSignals filled)
  have waited : session.host.await? =
      some (Host.perform { session.host with agenda := agenda } work) := by
    rw [Host.await?, show session.host.agenda.next? = _ from isNext]
  refine ⟨_, waited, { stage with
    tends := (stable_tends stage.roster).lasting.await? stage.tends waited
    course := fun keysLeft => ?_ }⟩
  refine .waits (stage.course ?_) waited
  have sameParkings := congrArg Holdings.parkings (Host.holdings_await? waited)
  exact sameParkings.symm.trans_lt keysLeft

/-! ## Launching -/

/-- What is taken in when a job is launched. -/
def admissionOf
    (job : Job SessionM BatchSlot)
    (operation : OperationId) : Admission BatchSlot :=
  ⟨operation, job.type, job.callback⟩

/-- What stands in a slot was in hand as a job. -/
theorem hand_occupy
    (tidy : inner.slots.Tidy)
    (board : Board)
    (job : Job SessionM BatchSlot)
    (operation : OperationId) :
    run.hand left (inner.occupy board (admissionOf job operation)).1 =
      run.hand (job :: left) inner := by
  have callbacks := tidy.callbacks_occupy board (admissionOf job operation)
  rw [hand, hand, Run.hand, Run.hand, handOf_cons]
  change Possession.mailbox inner.slots.mailbox ::ₘ
    (Multiset.bind (inner.slots.occupy board _).1.callbacks _ + _) = _
  rw [callbacks, Multiset.cons_bind]
  congr 1
  rw [← Multiset.add_cons, add_assoc, add_left_comm]
  rfl

/-- The first of the jobs that are left is the next one. -/
theorem Stage.next
    {job : Job SessionM BatchSlot}
    (stage : run.Stage launched reports (job :: left) inner session) :
    run.jobs[launched.length]? = some job ∧ left = run.jobs.drop (launched.length + 1) := by
  have isNext : run.jobs[launched.length]? = some job := by
    rw [← List.head?_drop, ← stage.left_eq]
    rfl
  refine ⟨isNext, ?_⟩
  rw [← List.tail_drop, ← stage.left_eq]
  rfl

/-- The host after a process is launched, whose slot waits for it. -/
def launchedIn
    (host : Host)
    (slots : Slots BatchSlot)
    (spec : ProcessSpec)
    (cell : OutputCell) : Host :=
  let begun := (host.beginProcess spec (some cell)).2
  { begun with
    board := begun.board.listen host.board.operations.size ⟨slots.mailbox, slots.nextIndex⟩ }

theorem reached_launchedIn
    {index : Nat}
    {entry : BatchEntry}
    {hand : Multiset Possession}
    {host : Host}
    (reached : Reached hand host)
    (mailbox_mem : .mailbox inner.slots.mailbox ∈ hand)
    (cell_mem : .cell (run.base + index) ∈ hand) :
    Reached hand (launchedIn host inner.slots entry.spec (run.base + index)) := by
  have begun : Reached hand (host.beginProcess entry.spec (some (run.base + index))).2 := by
    refine reached.deed (.begin _ _ (fun _ => rfl) ?_)
    rintro _ _ ⟨⟩
    exact cell_mem
  exact begun.deed (.listen _ _ mailbox_mem)

/-- What a session comes to when a process is launched and taken in. -/
theorem withBoard_launched
    {admission : Admission BatchSlot}
    (session : Session)
    (slots : Slots BatchSlot)
    (spec : ProcessSpec)
    (cell : OutputCell)
    (isNew : admission.operation = session.host.board.operations.size) :
    (session.withHost (session.host.beginProcess spec (some cell)).2).withBoard
        (slots.occupy (session.host.beginProcess spec (some cell)).2.board admission).2 =
      session.withHost (launchedIn session.host slots spec cell) := by
  rw [Slots.board_occupy, isNew]
  rfl

/-- The course goes on with the launch of the next process. -/
theorem Stage.course_launchedIn
    {member : BatchMember}
    {entry : BatchEntry}
    (stage : run.Stage launched reports left inner session)
    (noFailure : inner.failure? = none)
    (notFull : inner.slots.isFull = false)
    (isMember : run.plan.members[launched.length]? = some member)
    (isFor : entry.IsFor run.start.host.callables member)
    (keysLeft : session.host.parkings < UInt64.size)
    (cell : OutputCell) :
    run.plan.Course run.batch run.invoke run.start
      (launched ++ [session.host.board.operations.size]) reports
      (session.withHost (launchedIn session.host inner.slots entry.spec cell)) := by
  have notAll : inner.slots.occupied < inner.slots.limit := by
    simpa [Slots.isFull] using notFull
  have room : launched.length < reports.length + max run.plan.limit 1 := by
    rw [← stage.count_eq, ← stage.limit_eq]
    exact Nat.add_lt_add_left notAll _
  have begun : run.plan.Course run.batch run.invoke run.start
      (launched ++ [(session.host.beginProcess member.spec (some cell)).1]) reports
      (session.withHost (session.host.beginProcess member.spec (some cell)).2) :=
    .launches (stage.course keysLeft) (stage.failure?_eq.symm.trans noFailure) room isMember
  rw [← isFor.spec_eq] at begun
  have unchanged := Board.Agrees.refl (session.host.beginProcess entry.spec (some cell)).2.board
  have agrees := unchanged.listen
    session.host.board.operations.size ⟨inner.slots.mailbox, inner.slots.nextIndex⟩
  have booked :=
    BatchPlan.Course.books begun (books_of_agrees run.batch agrees session.host.outputs)
  exact booked

/-- A process that is launched is taken in as the next one. -/
theorem Stage.launchesNext
    {job : Job SessionM BatchSlot}
    {entry : BatchEntry}
    (stage : run.Stage launched reports (job :: left) inner session)
    (noFailure : inner.failure? = none)
    (notFull : inner.slots.isFull = false)
    (isEntry : run.batch.entries[launched.length]? = some entry)
    (isJob : job = jobOf run.base (entry, launched.length))
    (board : Board) :
    run.Stage (launched ++ [session.host.board.operations.size]) reports left
      (inner.occupy board (admissionOf job session.host.board.operations.size)).1
      (session.withHost
        (launchedIn session.host inner.slots entry.spec (run.base + launched.length))) := by
  obtain ⟨isNext, left_eq⟩ := stage.next
  obtain ⟨member, isMember, isFor⟩ := exists_member isEntry
  have isSpec := getElem?_specs isEntry
  have inRange : launched.length < run.specs.length := (List.getElem?_eq_some_iff.mp isSpec).1
  have tidy := stage.counted.tidy
  have sequence_eq := stage.nextSequence_eq
  obtain ⟨⟨reached, queue, attends⟩, guards⟩ := stage.tends
  have orderly := reached.orderly
  rw [rooms_add] at orderly
  have isOpen := stage.roster.isOpen orderly
  let admission := admissionOf job session.host.board.operations.size
  have isNew : admission.operation ∉ launched := fun isLaunched =>
    (attends.holds _ isLaunched).ne rfl
  have cell_eq : admission.callback.cell = run.base + launched.length := by
    change job.callback.cell = _
    rw [isJob]
    rfl
  have cases {index : Nat} {slot : Slot BatchSlot}
      (filled : (inner.slots.occupy board admission).1.slotAt? index = some slot) :
      slot = inner.slots.nextSlot admission ∨ inner.slots.slotAt? index = some slot :=
    ((tidy.slotAt?_occupy_eq_some_iff board admission).mp filled).imp_left And.right
  have cell_mem : .cell (run.base + launched.length) ∈ run.hand (job :: left) inner :=
    Multiset.mem_of_mem_filter (stage.roster.idle_mem le_rfl inRange)
  refine
    { tends := ?_
      roster := ?_
      counted := stage.counted.occupy board admission
      limit_eq := stage.limit_eq
      nextSequence_eq := ?_
      left_eq := ?_
      length_le := ?_
      job_eq := fun filled => ?_
      count_eq := ?_
      lt := fun report member => ?_
      nodup := stage.nodup
      notTold := fun filled => ?_
      failure?_eq := stage.failure?_eq
      course := fun keysLeft => ?_ }
  · rw [hand_occupy tidy]
    refine ⟨⟨reached_launchedIn reached (Multiset.mem_add.mpr (.inl (run.mailbox_mem_hand ..)))
      (Multiset.mem_add.mpr (.inl cell_mem)), queue, ?_⟩, guards⟩
    rw [← cell_eq]
    exact attends.launch stage.roster orderly isOpen tidy sequence_eq rfl cell_eq isSpec _
      session.host.files.current board
  · rw [hand_occupy tidy]
    exact stage.roster.launch tidy sequence_eq cell_eq inRange isNew board
  · change inner.slots.nextSequence + 1 = _
    rw [sequence_eq, List.length_append, List.length_singleton]
  · rw [List.length_append, List.length_singleton]
    exact left_eq
  · rw [List.length_append, List.length_singleton]
    exact (List.getElem?_eq_some_iff.mp isNext).1
  · rcases cases filled with rfl | filled
    · refine ⟨job, (congrArg (run.jobs[·]?) sequence_eq).trans isNext, rfl, ?_⟩
      change job.type = .int
      rw [isJob]
      rfl
    · exact stage.job_eq filled
  · change reports.length + (inner.slots.occupied + 1) = _
    rw [List.length_append, List.length_singleton, ← stage.count_eq, Nat.add_assoc]
  · rw [List.length_append]
    exact Nat.lt_add_right _ (stage.lt report member)
  · rcases cases filled with rfl | filled
    · intro isTold
      obtain ⟨report, member, isLast⟩ := List.mem_map.mp isTold
      exact (stage.lt report member).ne (isLast.trans sequence_eq)
    · exact stage.notTold filled
  · have keysLeft : session.host.parkings < UInt64.size := keysLeft
    exact stage.course_launchedIn noFailure notFull isMember isFor keysLeft _

/-- The next process is launched and taken in. -/
theorem Stage.launches
    {job : Job SessionM BatchSlot}
    (stage : run.Stage launched reports (job :: left) inner session)
    (noFailure : inner.failure? = none)
    (notFull : inner.slots.isFull = false) :
    ∃ operation later, job.launch.run.run session = (.ok operation, later) ∧
      run.Stage (launched ++ [operation]) reports left
        (inner.occupy later.host.board (admissionOf job operation)).1
        (later.withBoard (inner.occupy later.host.board (admissionOf job operation)).2) := by
  obtain ⟨entry, isEntry, isJob⟩ := exists_entry stage.next.1
  let launching (host : Host) := host.beginProcess entry.spec (some (run.base + launched.length))
  have ran : job.launch.run.run session =
      (.ok session.host.board.operations.size, session.withHost (launching session.host).2) := by
    rw [isJob]
    exact run_askHost launching session
  refine ⟨_, _, ran, ?_⟩
  have isNew : (admissionOf job session.host.board.operations.size).operation =
      session.host.board.operations.size := rfl
  have later := stage.launchesNext noFailure notFull isEntry isJob (launching session.host).2.board
  rw [← withBoard_launched session inner.slots entry.spec _ isNew] at later
  exact later

end BatchRun
end ScriptHost
