import ScriptHost.Proofs.Batch.Deliveries

/-!
# What a batch comes to

A run of a batch begins when the batch is taken from the script, makes a job of each process and
opens a mailbox. It ends when every process that was launched was told of, and gives up the
functions of those that were not launched. Enough fuel takes it to its end.
-/

namespace ScriptHost

open Session Scheduler Natives Attendance

namespace BatchRun

variable {run : BatchRun} {launched : List OperationId} {reports : List BatchReport}
variable {left : List (Job SessionM BatchSlot)} {inner : Run BatchSlot String}
variable {session later : Session}

/-! ## The jobs -/

/-- The host in which each process has a place for its output. -/
def withCells
    (host : Host)
    (count : Nat) : Host :=
  { host with outputs := host.outputs ++ Array.replicate count none }

/-- Cells can be made in two steps. -/
theorem withCells_withCells
    (host : Host)
    (first second : Nat) :
    withCells (withCells host first) second = withCells host (first + second) := by
  rw [withCells, withCells, withCells, Array.append_assoc, Array.replicate_append_replicate]

/-- The job of an entry gets the next cell. -/
theorem run_batchJob
    {base : OutputCell}
    {index : Nat}
    (entry : BatchEntry)
    (size_eq : session.host.outputs.size = base + index) :
    (batchJob entry index).run.run session =
      (.ok (jobOf base (entry, index)), session.withHost (withCells session.host 1)) := by
  rw [batchJob, run_bind, run_askHost]
  dsimp only [Host.makeCell, jobOf]
  rw [size_eq]
  rfl

/-- The jobs of entries get cells in their order. -/
theorem run_batchJobs
    {base : OutputCell}
    (entries : List BatchEntry)
    {index : Nat}
    (size_eq : session.host.outputs.size = base + index) :
    ((entries.zipIdx index).mapM fun entry => batchJob entry.1 entry.2).run.run session =
      (.ok ((entries.zipIdx index).map (jobOf base)),
        session.withHost (withCells session.host entries.length)) := by
  induction entries generalizing index session with
  | nil =>
      rw [withCells, List.length_nil, Array.replicate_zero, Array.append_empty]
      rfl
  | cons entry entries inductionHypothesis =>
      have size_eq_next : (session.withHost (withCells session.host 1)).host.outputs.size =
          base + (index + 1) := by
        change (session.host.outputs ++ Array.replicate 1 none).size = _
        rw [Array.size_append, Array.size_replicate, size_eq, Nat.add_assoc]
      have rest := inductionHypothesis size_eq_next
      change _ = (_, session.withHost (withCells (withCells session.host 1) entries.length)) at rest
      rw [withCells_withCells, Nat.add_comm 1] at rest
      rw [List.zipIdx_cons, List.mapM_cons, run_bind, run_batchJob entry size_eq]
      dsimp only
      rw [run_bind, rest]
      rfl

/-! ## The beginning -/

/-- The host when the batch is taken from the script. -/
def taken (run : BatchRun) : Host :=
  { run.start.host with batches := run.start.host.batches.erase run.plan.handle }

/-- The session in which the jobs are made. -/
def begun (run : BatchRun) : Session :=
  run.start.withHost (withCells run.taken run.batch.entries.length)

/-- A batch begins on a host that was reached. -/
theorem reached_begun (run : BatchRun) :
    Reached (handOf BatchSlot.possessions run.jobs + (.key run.batch.callback ::ₘ run.others))
      run.begun.host := by
  have taken := run.reached.deed (.takeBatch run.plan.handle)
  rw [run.isStored.1] at taken
  change Reached (keyHand run.batch.keys + run.others) _ at taken
  rw [keyHand_keys, Multiset.cons_add, ← Multiset.add_cons] at taken
  have size_eq : (run.start.withHost run.taken).host.outputs.size = run.base + 0 := rfl
  exact ((ensures_batchJobs stable_reached.lasting run.batch.entries.zipIdx).ofReturned
    (run.start.withHost run.taken) run.jobs run.begun taken
    (run_batchJobs run.batch.entries size_eq)).2

/-- At the beginning, a run has the callback of the batch and those of all jobs in hand. -/
theorem hand_start
    (run : BatchRun)
    (left : List (Job SessionM BatchSlot))
    (limit : Nat)
    (mailbox : MailboxId) :
    run.hand left (.start limit mailbox) =
      .mailbox mailbox ::ₘ .key run.batch.callback ::ₘ handOf BatchSlot.possessions left := by
  rw [hand, Run.hand]
  change _ ::ₘ (Multiset.bind 0 _ + _) = _
  rw [Multiset.zero_bind, Multiset.zero_add]
  rfl

/-- Every process has a place for its output in hand. -/
theorem cell_mem_jobs
    {index : Nat}
    (inRange : index < run.specs.length) :
    .cell (run.base + index) ∈ rooms (handOf BatchSlot.possessions run.jobs) := by
  have inEntries : index < run.batch.entries.length := by
    rw [specs, List.length_map] at inRange
    exact inRange
  have isJob : jobOf run.base (run.batch.entries[index], index) ∈ run.jobs :=
    List.mem_map_of_mem (List.mk_mem_zipIdx_iff_getElem?.mpr (List.getElem?_eq_getElem inEntries))
  exact mem_rooms_of_isRoom rfl (Multiset.mem_bind.mpr
    ⟨_, List.mem_map_of_mem isJob, Multiset.mem_cons_self _ _⟩)

/-- The places for output in hand are new. -/
theorem base_le_of_cell_mem
    {cell : OutputCell}
    (member : .cell cell ∈ handOf BatchSlot.possessions run.jobs) :
    run.base ≤ cell := by
  obtain ⟨slot, isSlot, isPossession⟩ := Multiset.mem_bind.mp member
  obtain ⟨job, isJob, rfl⟩ := List.mem_map.mp isSlot
  obtain ⟨entry, -, rfl⟩ := List.mem_map.mp isJob
  rcases Multiset.mem_cons.mp isPossession with same | isKey
  · rw [Possession.cell.inj same]
    exact Nat.le_add_right _ _
  · obtain ⟨key, -, isCell⟩ := List.mem_map.mp isKey
    cases isCell

/-- Nothing is launched when a run has opened its mailbox. -/
theorem stage_begun (run : BatchRun) :
    run.Stage [] [] run.jobs (.start run.plan.limit run.begun.host.board.mailboxes.size)
      (run.begun.withBoard run.begun.host.board.openMailbox.1) := by
  let mailbox := run.begun.host.board.mailboxes.size
  have hand_eq := run.hand_start run.jobs run.plan.limit mailbox
  have rooms_eq : rooms (run.hand run.jobs (.start run.plan.limit mailbox)) =
      .mailbox mailbox ::ₘ rooms (handOf BatchSlot.possessions run.jobs) := by
    rw [hand_eq, rooms_cons_mailbox, rooms_cons_key]
  have reached := run.reached_begun
  have orderly := reached.orderly
  rw [rooms_add, rooms_cons_key] at orderly
  have orderly := orderly.shift (.rests (Multiset.le_add_right _ _))
  have separate : ∀ work ∈ run.begun.host.scene.agenda.works, ∀ cell, work.cell? = some cell →
      .cell cell ∉ rooms (handOf BatchSlot.possessions run.jobs) := by
    intro work member cell leaves isOwn
    have isEarlier := (run.reached.orderly.works work member).cell_lt cell leaves
    exact Nat.lt_irrefl _
      (isEarlier.trans_le (base_le_of_cell_mem (Multiset.mem_of_mem_filter isOwn)))
  have idle : ∀ index < run.specs.length,
      run.begun.host.scene.outputs[run.base + index]? = some none := by
    intro index inRange
    rw [specs, List.length_map] at inRange
    change (run.start.host.outputs ++
      Array.replicate _ none)[run.start.host.outputs.size + index]? = some none
    rw [Array.getElem?_append_right (Nat.le_add_right _ _), Nat.add_sub_cancel_left,
      Array.getElem?_replicate, if_pos inRange]
  refine
    { tends := ⟨⟨?_, [], ?_⟩, fun _ _ _ => rfl⟩
      roster := ?_
      counted := Slots.counted_new _ _
      limit_eq := rfl
      nextSequence_eq := rfl
      left_eq := rfl
      length_le := Nat.zero_le _
      job_eq := fun filled => ?_
      count_eq := rfl
      lt := fun _ member => absurd member List.not_mem_nil
      nodup := List.nodup_nil
      notTold := fun _ => List.not_mem_nil
      failure?_eq := rfl
      course := fun _ => ?_ }
  · rw [hand_eq, Multiset.cons_add, Multiset.cons_add, ← Multiset.add_cons]
    exact reached.deed .openMailbox
  · rw [rooms_eq]
    exact attends_opened orderly _ separate idle
  · rw [rooms_eq]
    exact roster_opened _ _ fun index => cell_mem_jobs
  · rw [show (Run.start run.plan.limit _ : Run BatchSlot String).slots = .new _ _ from rfl,
      Slots.slotAt?_new] at filled
    cases filled
  · have agrees : run.begun.host.board.openMailbox.1.Agrees run.taken.board := ⟨rfl, fun _ => rfl⟩
    have course : run.plan.Course run.batch run.invoke run.start [] []
        (run.start.withHost run.taken) :=
      .begins
    have booked := course.books (books_of_agrees run.batch agrees run.begun.host.outputs)
    exact booked

/-! ## The end -/

/-- How the run of a batch reaches the host of its session. -/
def surroundings (run : BatchRun) : Environment SessionM BatchSlot String :=
  environment
    (fun completion =>
      reported (batchExited run.invoke run.plan.handle run.batch.callback completion))
    fun slot => changeHost fun host => host.release? slot.onExit?

/-- The functions of processes that are not launched are released. -/
theorem run_abandonAll
    (run : BatchRun)
    (left : List (Job SessionM BatchSlot))
    (inner : Run BatchSlot String)
    (session : Session) :
    ∃ last, (abandonAll run.surroundings left inner).run.run session =
        (.ok last, session.withHost
          (session.host.releaseEach (left.filterMap fun job => job.callback.onExit?))) ∧
      last.failure? = inner.failure? := by
  induction left generalizing inner session with
  | nil => exact ⟨inner, rfl, rfl⟩
  | cons job left inductionHypothesis =>
      obtain ⟨last, ran, failure?_eq⟩ := inductionHypothesis inner.abandon
        (session.withHost (session.host.release? job.callback.onExit?))
      refine ⟨last, ?_, failure?_eq⟩
      have discarded : (run.surroundings.discard job.callback).run.run session =
          (.ok (), session.withHost (session.host.release? job.callback.onExit?)) := rfl
      rw [abandonAll, run_bind, discarded]
      dsimp only
      rw [ran, List.filterMap_cons]
      cases job.callback.onExit? <;> rfl

/-- The functions of the jobs that are left are functions of the batch. -/
theorem Stage.keys_subset (stage : run.Stage launched reports left inner session) :
    (left.filterMap fun job => job.callback.onExit?) ⊆ run.batch.keys := by
  intro key isKey
  obtain ⟨job, isLeft, isOnExit⟩ := List.mem_filterMap.mp isKey
  have isJob : job ∈ run.jobs := List.mem_of_mem_drop (stage.left_eq ▸ isLeft)
  obtain ⟨index, isIndex⟩ := List.getElem?_of_mem isJob
  obtain ⟨entry, isEntry, rfl⟩ := exists_entry isIndex
  exact BatchPlan.mem_keys_of_onExit? (List.mem_of_getElem? isEntry) isOnExit

/-- When nothing is outstanding, all that was launched is reported. -/
theorem Stage.completes
    (stage : run.Stage launched reports left inner session)
    (isEmpty : inner.slots.isEmpty = true)
    (noneLeft : inner.failure? = none → left = [])
    (sameEnded : later.host.ended = session.host.ended) :
    run.plan.Completes launched reports later := by
  have notFilled {index : Nat} {slot : Slot BatchSlot} :
      inner.slots.slotAt? index ≠ some slot := by
    intro filled
    have isCallback := Slots.callback_mem filled
    rw [stage.counted.callbacks_eq_zero isEmpty] at isCallback
    exact Multiset.notMem_zero _ isCallback
  have noneOccupied : inner.slots.occupied = 0 := beq_iff_eq.mp isEmpty
  have length_eq : reports.length = launched.length := by
    rw [← stage.count_eq, noneOccupied, Nat.add_zero]
  obtain ⟨⟨-, queue, attends⟩, -⟩ := stage.tends
  refine ⟨?_, ?_, fun noFailure => ?_⟩
  · have isSubset : reports.map BatchReport.index ⊆ List.range launched.length := by
      intro index member
      obtain ⟨report, isReport, rfl⟩ := List.mem_map.mp member
      exact List.mem_range.mpr (stage.lt report isReport)
    refine (List.subperm_of_subset stage.nodup isSubset).perm_of_length_le ?_
    rw [List.length_range, List.length_map, length_eq]
  · have noQueue : queue = [] := by
      cases queue with
      | nil => rfl
      | cons process queue =>
          obtain ⟨index, rest, ⟨slot, filled, -⟩, -, -⟩ :=
            List.forall₂_cons_right_iff.mp attends.announced
          exact absurd filled notFilled
    rw [sameEnded, show session.host.ended.filter _ = _ from attends.ended, noQueue,
      List.append_nil]
  · have isLast := noneLeft (stage.failure?_eq.trans noFailure)
    rw [stage.left_eq, List.drop_eq_nil_iff] at isLast
    have sameLength : run.jobs.length = run.plan.members.length := by
      rw [jobs, List.length_map, List.length_zipIdx, run.isStored.2.2.length_eq]
    exact (le_antisymm stage.length_le isLast).trans sameLength

/-- A run of a batch is steered by its stages. -/
theorem steers (run : BatchRun) :
    Steers (fun completion =>
        reported (batchExited run.invoke run.plan.handle run.batch.callback completion))
      (fun left inner session => ∃ launched reports, run.Stage launched reports left inner session)
      run.invoke.Breaks where
  limit_pos := by
    rintro left inner session ⟨launched, reports, stage⟩
    rw [stage.limit_eq]
    exact Nat.le_max_right _ _
  waits := by
    rintro left inner session ⟨launched, reports, stage⟩ notEmpty silent
    obtain ⟨later, waited, stage⟩ := stage.waits notEmpty silent
    exact ⟨later, waited, launched, reports, stage⟩
  delivers := by
    rintro left inner session completion next board ⟨launched, reports, stage⟩ announced
    have delivers := stage.delivers announced
    split
    next result later ran =>
      rw [ran] at delivers
      exact ⟨launched, delivers⟩
    next interruption later ran =>
      rw [ran] at delivers
      exact delivers
  launches := by
    rintro job left inner session ⟨launched, reports, stage⟩ noFailure notFull
    obtain ⟨operation, later, ran, stage⟩ := stage.launches noFailure notFull
    exact ⟨operation, later, ran, _, reports, stage⟩

/-- What a run does when its jobs are made. -/
def finish
    (run : BatchRun)
    (result? : Option (Except String Report)) : SessionM Value := do
  changeHost fun host => host.release run.batch.callback
  let _ ← runResult result?
  pure (.bool true)

/-- A batch is taken, run and finished. -/
theorem run_runBatch
    (run : BatchRun)
    (fuel : Nat) :
    (runBatch run.invoke run.plan.handle run.plan.limit fuel).run.run run.start =
      (runFanOut run.surroundings run.plan.limit run.jobs fuel >>= run.finish).run.run
        run.begun := by
  have claimed : (claimBatch run.plan.handle).run.run run.start =
      (.ok (some run.batch), run.start.withHost run.taken) := by
    change (Except.ok (run.start.host.batches.get? run.plan.handle), _) = _
    rw [run.isStored.1]
    rfl
  have size_eq : (run.start.withHost run.taken).host.outputs.size = run.base + 0 := rfl
  have made : (run.batch.entries.zipIdx.mapM fun entry => batchJob entry.1 entry.2).run.run
      (run.start.withHost run.taken) = (.ok run.jobs, run.begun) :=
    run_batchJobs run.batch.entries size_eq
  rw [runBatch, run_bind, claimed]
  dsimp only
  rw [run_bind, made]
  rfl

/-- A batch that has run gives its verdict and releases its callback. -/
theorem run_finish
    {last : Run BatchSlot String}
    (failure?_eq : last.failure? = firstFailure? reports)
    (session : Session) :
    (run.finish (some last.result)).run.run session =
      (verdict reports, session.withHost (session.host.release run.batch.callback)) := by
  rw [finish, run_bind, run_changeHost, verdict, ← failure?_eq, Run.result]
  cases last.failure? <;> rfl

/-- Without enough fuel nothing comes of a run. -/
theorem stuck_of_gaveUp
    {step : SessionM (Option (Except String Report))}
    (gaveUp : (step.run.run session).1 = .ok none) :
    ((step >>= run.finish).run.run session).1 = .error .stuck := by
  rw [run_bind]
  rcases ran : step.run.run session with ⟨found, later⟩
  rw [ran] at gaveUp
  subst gaveUp
  rfl

/-- What a run knows of its reports when it has ended. -/
structure Ended
    (run : BatchRun)
    (last : Run BatchSlot String)
    (launched : List OperationId)
    (reports : List BatchReport)
    (session : Session) : Prop where
  failure?_eq : last.failure? = firstFailure? reports
  completes : run.plan.Completes launched reports session
  course : session.host.parkings < UInt64.size →
    run.plan.Course run.batch run.invoke run.start launched reports session

/-- What a batch has ended with does not change when its own callables are released. -/
theorem Ended.released
    {last : Run BatchSlot String}
    {keys : List HandleKey}
    (isEnded : run.Ended last launched reports session)
    (areOwn : keys ⊆ run.batch.keys) :
    run.Ended last launched reports (session.withHost (session.host.releaseEach keys)) := by
  have sameParkings := session.host.parkings_releaseEach keys
  have sameEnded : (session.host.releaseEach keys).ended = session.host.ended :=
    Host.view_releaseEach (fun _ _ => rfl) _ _
  have sameBoard : (session.host.releaseEach keys).board = session.host.board :=
    Host.view_releaseEach (fun _ _ => rfl) _ _
  exact
    { failure?_eq := isEnded.failure?_eq
      completes :=
        { each := isEnded.completes.each
          inOrder := (congrArg (List.filter _) sameEnded).trans isEnded.completes.inOrder
          all := isEnded.completes.all }
      course := fun keysLeft => by
        have course := isEnded.course (sameParkings.symm.trans_lt keysLeft)
        refine course.books ⟨⟨keys, areOwn, rfl⟩, ?_⟩
        rw [sameBoard]
        exact .refl _ }

/-- With enough fuel a run comes to its reports, unless a function breaks it off. -/
theorem reaches (run : BatchRun) :
    Reaches (fun fuel => runFanOut run.surroundings run.plan.limit run.jobs fuel) run.begun
      (fun result later => ∃ last, result = last.result ∧
        ∃ launched reports, run.Ended last launched reports later)
      run.invoke.Breaks := by
  refine run.steers.runFanOut run.plan.limit ⟨[], [], run.stage_begun⟩ ?_
  rintro left inner session ⟨launched, reports, stage⟩ isEmpty noneLeft
  obtain ⟨last, ran, failure?_eq⟩ := run.run_abandonAll left inner session
  have isEnded : run.Ended last launched reports session :=
    { failure?_eq := failure?_eq.trans stage.failure?_eq
      completes := stage.completes isEmpty noneLeft rfl
      course := stage.course }
  exact ⟨last, _, ran, launched, reports, isEnded.released stage.keys_subset⟩

/-- Every run of a batch has an outcome, unless it is given too little fuel. -/
theorem outcome (run : BatchRun) :
    ∃ result later, run.plan.Outcome run.batch run.invoke run.start result later ∧
      (∀ fuel, (runBatch run.invoke run.plan.handle run.plan.limit fuel).run.run run.start =
          (result, later) ∨
        ((runBatch run.invoke run.plan.handle run.plan.limit fuel).run.run run.start).1 =
          .error .stuck) ∧
      ∃ least, ∀ fuel, least ≤ fuel →
        (runBatch run.invoke run.plan.handle run.plan.limit fuel).run.run run.start =
          (result, later) := by
  simp only [run_runBatch]
  rcases run.reaches with
    ⟨_, later, ⟨comes, least, isEnough⟩, last, rfl, launched, reports, isEnded⟩ |
      ⟨interruption, later, ⟨comes, least, isEnough⟩, breaks⟩
  · have isOwn : [run.batch.callback] ⊆ run.batch.keys :=
      List.cons_subset_cons _ (List.nil_subset _)
    have released := isEnded.released isOwn
    have finishes {step : SessionM (Option (Except String Report))}
        (ran : step.run.run run.begun = (.ok (some last.result), later)) :
        (step >>= run.finish).run.run run.begun =
          (verdict reports, later.withHost (later.host.release run.batch.callback)) := by
      rw [run_bind, ran]
      exact run_finish isEnded.failure?_eq later
    exact ⟨_, _, .completes released.completes released.course,
      fun fuel => (comes fuel).imp finishes stuck_of_gaveUp,
      least, fun fuel isMore => finishes (isEnough fuel isMore)⟩
  · have breaksOff {step : SessionM (Option (Except String Report))}
        (ran : step.run.run run.begun = (.error interruption, later)) :
        (step >>= run.finish).run.run run.begun = (.error interruption, later) := by
      rw [run_bind, ran]
    exact ⟨_, _, .breaks breaks, fun fuel => (comes fuel).imp breaksOff stuck_of_gaveUp,
      least, fun fuel isMore => breaksOff (isEnough fuel isMore)⟩

end BatchRun

namespace BatchPlan

end BatchPlan

end ScriptHost
