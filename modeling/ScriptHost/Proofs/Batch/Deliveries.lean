import ScriptHost.Proofs.Batch.Stages

/-!
# Processes of a batch that are told of

A process that is told of left its code on the board and its output in the place of its slot,
whose key stands for its own function. So what the functions are told is what became of this
process, and the run goes on without it.
-/

namespace ScriptHost

open Session Scheduler Natives Attendance

/-! ## What is told -/

/-- The code of a process is the code of its operation. -/
theorem EndedProcess.exitCodeOf_outcome (process : EndedProcess) :
    exitCodeOf (deliveryOf .int (Host.processOutcome process.result)) = process.outcome.code := by
  unfold EndedProcess.outcome
  cases process.result <;> rfl

/-- A process cannot be run, or it ends with output if it was asked for. -/
theorem ChildProcess.conclude_cases
    (spec : ProcessSpec)
    (ending : Ending) :
    (∃ error, conclude spec ending = .error error) ∨
      ∃ code text, conclude spec ending =
        .ok ⟨code, if spec.capture then some text else none⟩ := by
  cases ending with
  | refused source | lost source => exact .inl ⟨_, rfl⟩
  | ended code? transmission => exact .inr ⟨_, _, rfl⟩

/-- The output of a process that has run is what was captured of it. -/
theorem EndedProcess.HasRun.outputValue_eq
    {machine : ChildProcess.Machine}
    {process : EndedProcess}
    (hasRun : process.HasRun machine) :
    Natives.outputValue process.spec.capture process.output? = process.outputValue := by
  obtain ⟨files, environment, result_eq⟩ := hasRun
  rw [ChildProcess.run] at result_eq
  unfold EndedProcess.outputValue EndedProcess.outcome EndedProcess.output? Natives.outputValue
  rw [result_eq]
  rcases ChildProcess.conclude_cases process.spec
      (machine process.operation files environment process.spec).ending with
    ⟨error, failed⟩ | ⟨code, text, ended⟩
  · rw [failed]
    unfold ChildProcess.outcomeOf
    cases process.spec.capture <;> rfl
  · rw [ended]
    unfold ChildProcess.outcomeOf
    cases process.spec.capture <;> rfl

/-- The host after the output of a process is taken from the place of its slot, and the function
of the slot is released. -/
def Host.handOver
    (host : Host)
    (slot : BatchSlot) : Host :=
  (host.takeOutput slot.cell).2.release? slot.onExit?

/-- Call the function that stands under a key by then. -/
def tellParked
    (invoke : Invoke)
    (key : HandleKey)
    (arguments : List Value) : SessionM Unit := do
  invoke.tell? ((← theHost).callables.get? key) arguments

/-- What is told of a process that is announced: its own function is called first, and then the
function of the batch. -/
theorem run_batchExited
    (invoke : Invoke)
    (handle : ScriptHandle)
    (callback : HandleKey)
    (completion : Completion BatchSlot)
    (session : Session) :
    let slot := completion.callback
    let code := Value.int (exitCodeOf completion.result)
    let output := outputValue slot.capture (session.host.takeOutput slot.cell).1
    (batchExited invoke handle callback completion).run.run session =
      (do
        invoke.tell? (session.host.parked? slot.onExit?) [code, output]
        tellParked invoke callback
          [.ofHandle handle, .ofCount slot.index, code, output]).run.run
        (session.withHost (session.host.handOver slot)) := by
  intro slot code output
  have sameParked : (session.withHost (session.host.takeOutput slot.cell).2).host.parked?
      slot.onExit? = session.host.parked? slot.onExit? := rfl
  rw [batchExited, run_bind, run_askHost]
  dsimp only
  rw [run_bind, run_theHost]
  dsimp only
  rw [run_bind, run_changeHost]
  dsimp only
  rw [sameParked]
  refine congrArg (fun step : SessionM Unit => step.run.run _) ?_
  cases session.host.parked? slot.onExit? with
  | none =>
      rw [Invoke.tell?, pure_bind]
      refine bind_congr fun host => ?_
      cases host.callables.get? callback <;> rfl
  | some function =>
      rw [Invoke.tell?, bind_assoc]
      refine bind_congr fun _ => ?_
      rw [pure_bind]
      refine bind_congr fun host => ?_
      cases host.callables.get? callback <;> rfl

/-- The place for the output of a slot is the only room that it has in hand. -/
theorem Natives.BatchSlot.rooms_possessions (slot : BatchSlot) :
    rooms slot.possessions = {.cell slot.cell} := by
  rw [BatchSlot.possessions, rooms_cons_cell, rooms_keyHand]
  rfl

/-- What breaks off the telling of a process breaks off a function that is told. -/
theorem breaks_of_batchExited
    {invoke : Invoke}
    {handle : ScriptHandle}
    {callback : HandleKey}
    {completion : Completion BatchSlot}
    {session later : Session}
    {interruption : Interruption}
    (ran : (reported (batchExited invoke handle callback completion)).run.run session =
      (.error interruption, later)) :
    invoke.Breaks interruption later := by
  have broken : (∀ value, interruption ≠ .thrown value) ∧
      (batchExited invoke handle callback completion).run.run session =
        (.error interruption, later) := by
    rw [run_reported] at ran
    rcases exited : (batchExited invoke handle callback completion).run.run session with
      ⟨(value | _ | _) | _, middle⟩
    all_goals rw [exited] at ran; cases ran
    all_goals exact ⟨nofun, rfl⟩
  obtain ⟨notThrown, exited⟩ := broken
  refine ⟨notThrown, ?_⟩
  rw [run_batchExited, run_bind] at exited
  split at exited
  next middle told =>
    rw [tellParked, run_bind, run_theHost] at exited
    obtain ⟨function, -, called⟩ := exists_of_tell?_error exited
    exact ⟨function, _, _, called⟩
  next told =>
    cases exited
    obtain ⟨function, -, called⟩ := exists_of_tell?_error told
    exact ⟨function, _, _, called⟩

namespace BatchRun

variable {run : BatchRun} {launched : List OperationId} {reports : List BatchReport}
variable {left : List (Job SessionM BatchSlot)} {inner next : Run BatchSlot String}
variable {session later : Session} {board : Board} {completion : Completion BatchSlot}
variable {index : Nat} {slot : Slot BatchSlot} {process : EndedProcess} {entry : BatchEntry}

/-! ## What is handed out -/

/-- A process that has ended is handed out, and the others are attended to. What its slot consists
of is in hand, to be used when the functions are told. -/
structure HandsOut
    (run : BatchRun)
    (launched : List OperationId)
    (reports : List BatchReport)
    (left : List (Job SessionM BatchSlot))
    (inner next : Run BatchSlot String)
    (session : Session)
    (board : Board)
    (completion : Completion BatchSlot)
    (index : Nat)
    (slot : Slot BatchSlot)
    (process : EndedProcess)
    (entry : BatchEntry) : Prop where
  filled : inner.slots.slotAt? index = some slot
  completion_eq : completion =
    ⟨slot.sequence, slot.callback, deliveryOf .int (Host.processOutcome process.result)⟩
  next_eq : next = { inner with slots := inner.slots.vacate index }
  agrees : board.Agrees session.host.board
  isEntry : run.batch.entries[slot.sequence]? = some entry
  callback_eq : slot.callback = (jobOf run.base (entry, slot.sequence)).callback
  isOver : Over run.specs slot process session.host.scene
  hasEnded : process ∈ session.host.ended
  hand_eq : run.hand left inner = slot.callback.possessions + run.hand left next
  counted : next.slots.Counted
  roster : Roster (rooms (run.hand left next)) run.base run.specs launched next.slots
  tends : run.Tends (run.hand left next) launched (reports.map BatchReport.process ++ [process])
    next.slots (slot.callback.possessions + run.others) { session.host with board := board }

/-- What is announced is handed out. -/
theorem Stage.handsOut
    (stage : run.Stage launched reports left inner session)
    (announced : inner.complete? session.host.board = some (completion, next, board)) :
    ∃ index slot process entry, HandsOut run launched reports left inner next session board
      completion index slot process entry := by
  obtain ⟨slots, signals, isComplete, rfl, rfl⟩ := Run.complete?_eq_some_iff.mp announced
  obtain ⟨⟨reached, queue, attends⟩, guards⟩ := stage.tends
  have orderly := reached.orderly
  rw [rooms_add] at orderly
  have isOpen := stage.roster.isOpen orderly
  cases signals_eq : session.host.board.signals inner.slots.mailbox with
  | nil =>
      rw [signals_eq] at isComplete
      cases isComplete
  | cons index rest =>
      obtain ⟨process, queue, slot, rfl, filled, isOver, completes⟩ :=
        attends.complete?_eq_some signals_eq
      obtain ⟨job, isJob, callback_eq, type_eq⟩ := stage.job_eq filled
      obtain ⟨entry, isEntry, rfl⟩ := exists_entry isJob
      obtain ⟨stood, -, counted⟩ := stage.counted.complete? isComplete
      cases isComplete.symm.trans completes
      have hand_eq : run.hand left inner = slot.callback.possessions +
          run.hand left { inner with slots := inner.slots.vacate index } := by
        rw [hand, hand, Run.hand, Run.hand, stood, Multiset.cons_bind, add_assoc,
          ← Multiset.add_cons]
        rfl
      have roster := stage.roster
      rw [hand_eq, rooms_add, BatchSlot.rooms_possessions, Multiset.singleton_add] at attends roster
      refine ⟨index, slot, process, entry,
        { filled := filled
          completion_eq := by rw [type_eq]
          next_eq := rfl
          agrees := ⟨rfl, fun _ => rfl⟩
          isEntry := isEntry
          callback_eq := callback_eq
          isOver := isOver
          hasEnded := ?_
          hand_eq := hand_eq
          counted := counted
          roster := roster.vacate filled
          tends := ⟨⟨?_, queue, attends.handOut isOpen signals_eq filled⟩, ?_⟩ }⟩
      · have isToldNext : process ∈ session.host.ended.filter
            fun process => process.operation ∈ launched := by
          rw [show session.host.ended.filter _ = _ from attends.ended]
          exact List.mem_append_cons_self
        exact (List.mem_filter.mp isToldNext).1
      · have deeds := reached.deed (.setSignals inner.slots.mailbox signals
          (Multiset.mem_add.mpr (.inl (run.mailbox_mem_hand ..))))
        rw [hand_eq, add_assoc, add_left_comm] at deeds
        exact deeds
      · intro keysLeft key isKey
        refine guards keysLeft key ?_
        rw [hand_eq, keysIn_add]
        exact Multiset.mem_add.mpr (.inr isKey)

/-! ## What is told -/

namespace HandsOut

variable {member : BatchMember}

/-- The session in which the functions are told of a process. -/
def telling
    (session : Session)
    (board : Board)
    (slot : Slot BatchSlot) : Session :=
  session.withHost ({ session.host with board := board }.handOver slot.callback)

variable
  (handsOut : HandsOut run launched reports left inner next session board completion index slot
    process entry)

include handsOut

/-- The process of a slot is that of its entry. -/
theorem spec_eq :
    process.spec = entry.spec := by
  have isSpec := getElem?_specs handsOut.isEntry
  rw [handsOut.isOver.spec_eq] at isSpec
  exact Option.some.inj isSpec

theorem onExit?_eq : slot.callback.onExit? = entry.onExit? :=
  congrArg BatchSlot.onExit? handsOut.callback_eq

/-- The function of a slot is that of its process. -/
theorem parked?_eq
    (guards : Guards (run.hand left inner) run.start.host.callables.get? session.host)
    (isFor : entry.IsFor run.start.host.callables member)
    (keysLeft : session.host.parkings < UInt64.size) :
    session.host.parked? slot.callback.onExit? = member.onExit? := by
  rw [← isFor.parked?_eq, ← handsOut.onExit?_eq, Host.parked?, Host.parked?]
  cases key : slot.callback.onExit? with
  | none => rfl
  | some key =>
      refine guards keysLeft _ ?_
      rw [handsOut.hand_eq, keysIn_add, BatchSlot.possessions, key, keysIn_cons_cell]
      exact Multiset.mem_add.mpr (.inl (Multiset.mem_singleton_self _))

/-- The output in the place of a slot is that of its process. -/
theorem outputValue_eq :
    outputValue slot.callback.capture (session.host.takeOutput slot.callback.cell).1 =
      process.outputValue := by
  have sameCapture : slot.callback.capture = process.spec.capture := by
    rw [handsOut.spec_eq]
    exact congrArg BatchSlot.capture handsOut.callback_eq
  have taken : (session.host.takeOutput slot.callback.cell).1 = process.output? := by
    change session.host.outputs[slot.callback.cell]?.join = _
    rw [show session.host.outputs[slot.callback.cell]? = _ from handsOut.isOver.output]
    rfl
  rw [sameCapture, taken, handsOut.isOver.hasRun.outputValue_eq]

theorem stable :
    Stable (run.Tends (run.hand left next) launched
      (reports.map BatchReport.process ++ [process]) next.slots) :=
  stable_tends handsOut.roster

theorem tends_telling :
    run.Tends (run.hand left next) launched (reports.map BatchReport.process ++ [process])
      next.slots run.others (telling session board slot).host := by
  have stable := handsOut.stable
  have tends := handsOut.tends
  rw [BatchSlot.possessions, Multiset.cons_add] at tends
  exact stable.lasting.release? (stable (.takeOutput slot.callback.cell) tends)

/-- The function of the batch is there when its turn has come. -/
theorem get?_callback_eq
    {middle : Session}
    (function? : Option Function)
    (arguments : List Value)
    (told : (run.invoke.tell? function? arguments).run.run (telling session board slot) =
      (.ok (), middle))
    (keysLeft : middle.host.parkings < UInt64.size) :
    middle.host.callables.get? run.batch.callback = some run.plan.function := by
  have keeps := (BatchPlan.permitted_tell? run.calls function? arguments).keeps handsOut.stable
    run.others
  obtain ⟨-, guards⟩ := keeps.ofReturned _ _ _ handsOut.tends_telling told
  obtain ⟨-, isFunction, -⟩ := run.isStored
  refine (guards keysLeft _ ?_).trans isFunction
  rw [hand, Run.hand, keysIn_cons_mailbox, keysIn_add, keysIn_cons_key]
  exact Multiset.mem_add.mpr (.inr (Multiset.mem_cons_self _ _))

/-- What the functions are told is what became of the process. -/
theorem tells
    {result : Except String Unit}
    (guards : Guards (run.hand left inner) run.start.host.callables.get? session.host)
    (isFor : entry.IsFor run.start.host.callables member)
    (ran : (reported (batchExited run.invoke run.plan.handle run.batch.callback
      completion)).run.run (session.withBoard board) = (.ok result, later))
    (keysLeftBefore : session.host.parkings < UInt64.size)
    (keysLeft : later.host.parkings < UInt64.size) :
    (reported (run.plan.tell run.invoke member slot.sequence process)).run.run
      (telling session board slot) = (.ok result, later) := by
  have parked?_eq : (session.withBoard board).host.parked? slot.callback.onExit? =
      member.onExit? := handsOut.parked?_eq guards isFor keysLeftBefore
  have output_eq : outputValue slot.callback.capture
      ((session.withBoard board).host.takeOutput slot.callback.cell).1 = process.outputValue :=
    handsOut.outputValue_eq
  have index_eq : slot.callback.index = slot.sequence + 1 :=
    congrArg BatchSlot.index handsOut.callback_eq
  have code_eq : Value.int (exitCodeOf (deliveryOf .int (Host.processOutcome process.result))) =
      process.codeValue := congrArg Value.int process.exitCodeOf_outcome
  have sameTelling : (session.withBoard board).withHost
      ((session.withBoard board).host.handOver slot.callback) = telling session board slot := rfl
  obtain rfl := handsOut.completion_eq
  rw [run_reported, run_batchExited] at ran
  dsimp only at ran
  rw [parked?_eq, output_eq, index_eq, code_eq, sameTelling, run_bind] at ran
  rw [run_reported, BatchPlan.tell, run_bind]
  rcases told : (run.invoke.tell? member.onExit? [process.codeValue,
    process.outputValue]).run.run (telling session board slot) with ⟨interruption | _, middle⟩
  · rw [told] at ran
    exact ran
  · rw [told] at ran
    dsimp only at ran ⊢
    rw [← run_reported] at ran ⊢
    have grows : middle.host.parkings ≤ later.host.parkings :=
      (((permitted_theHost.bind fun _ => BatchPlan.permitted_tell? run.calls _ _).reported.keeps
        (stable_parkings middle.host.parkings) 0).ofReturned middle result later le_rfl ran)
    have found := handsOut.get?_callback_eq _ _ told (grows.trans_lt keysLeft)
    have sameTell (arguments : List Value) :
        (tellParked run.invoke run.batch.callback arguments).run.run middle =
          (run.invoke.tell? (some run.plan.function) arguments).run.run middle := by
      rw [tellParked, run_bind, run_theHost]
      dsimp only
      rw [found]
    rw [run_reported, sameTell, ← run_reported] at ran
    exact ran

/-- To hand a process out the run only looks after its own affairs. -/
theorem books_telling :
    Books run.batch session.host (telling session board slot).host := by
  refine ⟨⟨slot.callback.onExit?.toList, fun key isKey => ?_, ?_⟩, ?_⟩
  · rw [handsOut.onExit?_eq, Option.mem_toList] at isKey
    exact BatchPlan.mem_keys_of_onExit? (List.mem_of_getElem? handsOut.isEntry) isKey
  · unfold telling Host.handOver
    cases slot.callback.onExit? <;> rfl
  · have sameBoard : (telling session board slot).host.board = board := by
      unfold telling Host.handOver
      cases slot.callback.onExit? <;> rfl
    rw [sameBoard]
    exact handsOut.agrees

/-- The course goes on with the report of the process. -/
theorem course
    {result : Except String Unit}
    (stage : run.Stage launched reports left inner session)
    (ran : (reported (batchExited run.invoke run.plan.handle run.batch.callback
      completion)).run.run (session.withBoard board) = (.ok result, later))
    (grows : session.host.parkings ≤ later.host.parkings)
    (keysLeft : later.host.parkings < UInt64.size) :
    run.plan.Course run.batch run.invoke run.start launched
      (reports ++ [⟨slot.sequence, process, result⟩]) later := by
  obtain ⟨member, isMember, isFor⟩ := exists_member handsOut.isEntry
  have keysLeftBefore := grows.trans_lt keysLeft
  have told := handsOut.tells stage.tends.2 isFor ran keysLeftBefore keysLeft
  have isOwn : launched[slot.sequence]? = some process.operation := by
    rw [handsOut.isOver.operation_eq]
    exact stage.roster.operation_eq handsOut.filled
  have hasEnded : process ∈ (telling session board slot).host.ended := by
    have sameEnded : (telling session board slot).host.ended = session.host.ended := by
      unfold telling Host.handOver
      cases slot.callback.onExit? <;> rfl
    rw [sameEnded]
    exact handsOut.hasEnded
  have course := stage.course keysLeftBefore
  have hasRun : process.HasRun run.start.host.machine :=
    course.machine_eq run.calls ▸ handsOut.isOver.hasRun
  exact .tells (.books course handsOut.books_telling) isOwn isMember
    (handsOut.spec_eq.trans isFor.spec_eq) hasRun hasEnded
    (stage.notTold handsOut.filled) told

/-- The other processes are attended to when the functions were told. -/
theorem tends_later
    {result : Except String Unit}
    (ran : (reported (batchExited run.invoke run.plan.handle run.batch.callback
      completion)).run.run (session.withBoard board) = (.ok result, later)) :
    run.Tends (run.hand left next) launched (reports.map BatchReport.process ++ [process])
        next.slots run.others later.host ∧ session.host.parkings ≤ later.host.parkings := by
  have stable := handsOut.stable.and (stable_parkings session.host.parkings)
  have calls (function : Function) (arguments : List Value) (hand : Multiset Possession) :=
    (run.calls function arguments).keeps stable hand
  have tends := handsOut.tends
  have sameCallback : slot.callback = completion.callback := by rw [handsOut.completion_eq]
  rw [sameCallback] at tends
  exact (ensures_batchExited stable.lasting calls _ _ completion).reported.ofReturned
    (session.withBoard board) result later ⟨tends, le_rfl⟩ ran

end HandsOut

/-- The first failure is remembered. -/
theorem failure?_record
    {inner : Run BatchSlot String}
    (failure?_eq : inner.failure? = firstFailure? reports)
    (index : Nat)
    (process : EndedProcess)
    (result : Except String Unit) :
    (inner.record result).failure? = firstFailure? (reports ++ [⟨index, process, result⟩]) := by
  rw [firstFailure?, List.findSome?_append, ← firstFailure?, ← failure?_eq]
  cases result with
  | ok => exact Option.or_none.symm
  | error message =>
      change some (inner.failure?.getD message) = _
      cases inner.failure? <;> rfl

/-- A process that was told of is reported, and the run goes on with the others. -/
theorem Stage.told
    {result : Except String Unit}
    (stage : run.Stage launched reports left inner session)
    (handsOut : HandsOut run launched reports left inner next session board completion index slot
      process entry)
    (ran : (reported (batchExited run.invoke run.plan.handle run.batch.callback
      completion)).run.run (session.withBoard board) = (.ok result, later)) :
    run.Stage launched (reports ++ [⟨slot.sequence, process, result⟩]) left (next.record result)
      later := by
  obtain ⟨tends, grows⟩ := handsOut.tends_later ran
  have isFilled := handsOut.filled
  have notZero : inner.slots.occupied ≠ 0 := by
    rw [← stage.counted.card_callbacks]
    exact (Multiset.card_pos_iff_exists_mem.mpr ⟨_, Slots.callback_mem isFilled⟩).ne'
  have sameHand : run.hand left (next.record result) = run.hand left next := by
    rw [hand, hand, Run.hand, Run.hand, Run.slots_record]
  have others {other : Nat} {otherSlot : Slot BatchSlot}
      (filled : (next.record result).slots.slotAt? other = some otherSlot) :
      other ≠ index ∧ inner.slots.slotAt? other = some otherSlot := by
    rwa [Run.slots_record, handsOut.next_eq, Slots.slotAt?_vacate_eq_some_iff] at filled
  have course := handsOut.course stage ran grows
  have roster := handsOut.roster
  have counted := handsOut.counted
  obtain rfl := handsOut.next_eq
  refine
    { tends := ?_
      roster := ?_
      counted := ?_
      limit_eq := ?_
      nextSequence_eq := ?_
      left_eq := stage.left_eq
      length_le := stage.length_le
      job_eq := fun filled => stage.job_eq (others filled).2
      count_eq := ?_
      lt := fun report member => ?_
      nodup := ?_
      notTold := fun {other otherSlot} filled isTold => ?_
      failure?_eq := ?_
      course := course }
  · rw [sameHand, Run.slots_record, List.map_append]
    exact tends
  · rw [sameHand, Run.slots_record]
    exact roster
  · rw [Run.slots_record]
    exact counted
  · rw [Run.slots_record]
    exact stage.limit_eq
  · rw [Run.slots_record]
    exact stage.nextSequence_eq
  · rw [Run.slots_record, List.length_append, List.length_singleton, ← stage.count_eq]
    change reports.length + 1 + (inner.slots.occupied - 1) = _
    omega
  · rcases List.mem_append.mp member with wasThere | isLast
    · exact stage.lt report wasThere
    · rw [List.mem_singleton.mp isLast]
      exact stage.roster.sequence_lt isFilled
  · rw [List.map_append]
    exact stage.nodup.append (List.nodup_singleton _)
      (List.disjoint_singleton.mpr (stage.notTold isFilled))
  · obtain ⟨isOther, filled⟩ := others filled
    rw [List.map_append] at isTold
    rcases List.mem_append.mp isTold with wasTold | isLast
    · exact stage.notTold filled wasTold
    · exact isOther (stage.roster.sequence_inj filled isFilled (List.mem_singleton.mp isLast))
  · refine failure?_record ?_ _ _ _
    exact stage.failure?_eq

/-- The functions are told of a process that is handed out, unless one of them breaks off. -/
theorem Stage.delivers
    (stage : run.Stage launched reports left inner session)
    (announced : inner.complete? session.host.board = some (completion, next, board)) :
    match (reported (batchExited run.invoke run.plan.handle run.batch.callback
      completion)).run.run (session.withBoard board) with
    | (.ok result, later) =>
        ∃ reports, run.Stage launched reports left (next.record result) later
    | (.error interruption, later) => run.invoke.Breaks interruption later := by
  obtain ⟨index, slot, process, entry, handsOut⟩ := stage.handsOut announced
  split
  next result later ran => exact ⟨_, stage.told handsOut ran⟩
  next interruption later ran => exact breaks_of_batchExited ran

end BatchRun

end ScriptHost
