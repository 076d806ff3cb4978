import ScriptHost.Natives.Processes
import ScriptHost.Proofs.Host.Order
import ScriptHost.Proofs.Scheduler.Slots

/-!
# Processes that a run attends to

A run of a batch attends to the processes that it has launched and not told of yet. Each of them
is running or over. One that runs is work on the agenda, and its slot waits for it; one that is
over has left its outcome on the board and its output in its own place, and its slot is
announced. Announcements come in the order in which processes end, and nobody else disturbs
this.
-/

namespace ScriptHost
namespace Attendance

open Scheduler Natives

/-- What a run has slots for: operations that it has launched, in the order of their sequences,
each with a place for output of its own. The places that follow are for those not launched yet. -/
structure Roster
    (own : Multiset Possession)
    (base : OutputCell)
    (specs : List ProcessSpec)
    (launched : List OperationId)
    (slots : Slots BatchSlot) : Prop where
  mailbox_mem : .mailbox slots.mailbox ∈ own
  cell_mem : ∀ {index slot}, slots.slotAt? index = some slot → .cell slot.callback.cell ∈ own
  cell_eq : ∀ {index slot}, slots.slotAt? index = some slot →
    slot.callback.cell = base + slot.sequence
  operation_eq : ∀ {index slot}, slots.slotAt? index = some slot →
    launched[slot.sequence]? = some slot.operation
  sequence_inj : ∀ {index other slot otherSlot}, slots.slotAt? index = some slot →
    slots.slotAt? other = some otherSlot → slot.sequence = otherSlot.sequence → index = other
  idle_mem : ∀ {index}, launched.length ≤ index → index < specs.length →
    .cell (base + index) ∈ own
  nodup : launched.Nodup

/-- The work on the agenda that settles an operation. -/
def worksFor
    (scene : Scene)
    (operation : OperationId) : List Work :=
  scene.agenda.works.filter fun work => work.operation = operation

/-- The process of a slot has not ended yet. -/
structure Running
    (mailbox : MailboxId)
    (specs : List ProcessSpec)
    (index : Nat)
    (slot : Slot BatchSlot)
    (scene : Scene) : Prop where
  pending : scene.board.IsPending slot.operation
  waiting : scene.board.waitingSlots mailbox slot.operation = [index]
  works : ∃ spec directory, specs[slot.sequence]? = some spec ∧
    worksFor scene slot.operation =
      [.process slot.operation spec directory (some slot.callback.cell)]
  output : scene.outputs[slot.callback.cell]? = some none

/-- The process of a slot has ended. -/
structure Over
    (specs : List ProcessSpec)
    (slot : Slot BatchSlot)
    (process : EndedProcess)
    (scene : Scene) : Prop where
  operation_eq : process.operation = slot.operation
  spec_eq : specs[slot.sequence]? = some process.spec
  hasRun : process.HasRun scene.machine
  outcome : scene.board.outcome? slot.operation = some (Host.processOutcome process.result)
  works : worksFor scene slot.operation = []
  output : scene.outputs[slot.callback.cell]? = some process.output?

/-- What goes on in the background is what the slots of a run are for. Of the processes that it
has launched, some were told of, and others are to be told of next. -/
structure Attends
    (own : Multiset Possession)
    (base : OutputCell)
    (specs : List ProcessSpec)
    (launched : List OperationId)
    (told : List EndedProcess)
    (slots : Slots BatchSlot)
    (queue : List EndedProcess)
    (scene : Scene) : Prop where
  ended : scene.ended.filter (fun process => process.operation ∈ launched) = told ++ queue
  holds : ∀ id ∈ launched, scene.board.Holds id
  unheard : ∀ id ∉ launched, scene.board.waitingSlots slots.mailbox id = []
  announced : List.Forall₂
    (fun index process => ∃ slot, slots.slotAt? index = some slot ∧ Over specs slot process scene)
    (scene.board.signals slots.mailbox) queue
  nodup : (scene.board.signals slots.mailbox).Nodup
  running : ∀ {index slot}, slots.slotAt? index = some slot →
    index ∉ scene.board.signals slots.mailbox → Running slots.mailbox specs index slot scene
  attended : ∀ work ∈ scene.agenda.works, work.operation ∈ launched →
    ∃ index slot, slots.slotAt? index = some slot ∧ slot.operation = work.operation
  separate : ∀ work ∈ scene.agenda.works, work.operation ∉ launched →
    ∀ cell, work.cell? = some cell → .cell cell ∉ own
  idle : ∀ {index}, launched.length ≤ index → index < specs.length →
    scene.outputs[base + index]? = some none

variable {own hand laterHand : Multiset Possession} {base : OutputCell}
variable {specs : List ProcessSpec} {launched : List OperationId}
variable {told queue : List EndedProcess} {slots : Slots BatchSlot}
variable {scene later : Scene} {index other : Nat} {slot otherSlot : Slot BatchSlot}

/-! ## The roster -/

theorem Roster.mem_launched
    (roster : Roster own base specs launched slots)
    (filled : slots.slotAt? index = some slot) :
    slot.operation ∈ launched :=
  List.mem_of_getElem? (roster.operation_eq filled)

theorem Roster.sequence_lt
    (roster : Roster own base specs launched slots)
    (filled : slots.slotAt? index = some slot) :
    slot.sequence < launched.length :=
  (List.getElem?_eq_some_iff.mp (roster.operation_eq filled)).1

theorem Roster.operation_inj
    (roster : Roster own base specs launched slots)
    (filled : slots.slotAt? index = some slot)
    (otherFilled : slots.slotAt? other = some otherSlot)
    (same : slot.operation = otherSlot.operation) :
    index = other := by
  refine roster.sequence_inj filled otherFilled
    ((List.getElem?_inj (roster.sequence_lt filled) roster.nodup).mp ?_)
  rw [roster.operation_eq filled, roster.operation_eq otherFilled, same]

theorem Roster.cell_inj
    (roster : Roster own base specs launched slots)
    (filled : slots.slotAt? index = some slot)
    (otherFilled : slots.slotAt? other = some otherSlot)
    (same : slot.callback.cell = otherSlot.callback.cell) :
    index = other := by
  refine roster.sequence_inj filled otherFilled ?_
  rw [roster.cell_eq filled, roster.cell_eq otherFilled] at same
  exact Nat.add_left_cancel same

theorem Roster.cell_ne_idle
    (roster : Roster own base specs launched slots)
    (filled : slots.slotAt? index = some slot)
    (isIdle : launched.length ≤ other) :
    slot.callback.cell ≠ base + other := by
  rw [roster.cell_eq filled]
  exact fun same =>
    ((roster.sequence_lt filled).trans_le isIdle).ne (Nat.add_left_cancel same)

/-! ## What others do -/

/-- A slot is in the same situation in a later scene. -/
structure Likewise
    (mailbox : MailboxId)
    (slot : Slot BatchSlot)
    (scene later : Scene) : Prop where
  machine : later.machine = scene.machine
  grows : scene.board.operations.size ≤ later.board.operations.size
  outcome : later.board.outcome? slot.operation = scene.board.outcome? slot.operation
  waiting : later.board.waitingSlots mailbox slot.operation =
    scene.board.waitingSlots mailbox slot.operation
  works : worksFor later slot.operation = worksFor scene slot.operation
  output : later.outputs[slot.callback.cell]? = scene.outputs[slot.callback.cell]?

theorem Over.likewise
    {process : EndedProcess}
    {mailbox : MailboxId}
    (isOver : Over specs slot process scene)
    (likewise : Likewise mailbox slot scene later) :
    Over specs slot process later where
  operation_eq := isOver.operation_eq
  spec_eq := isOver.spec_eq
  hasRun := likewise.machine ▸ isOver.hasRun
  outcome := likewise.outcome.trans isOver.outcome
  works := likewise.works.trans isOver.works
  output := likewise.output.trans isOver.output

theorem Running.likewise
    {mailbox : MailboxId}
    (isRunning : Running mailbox specs index slot scene)
    (likewise : Likewise mailbox slot scene later) :
    Running mailbox specs index slot later where
  pending := by
    obtain ⟨held, noOutcome⟩ := (Board.isPending_iff ..).mp isRunning.pending
    exact (Board.isPending_iff ..).mpr
      ⟨held.trans_le likewise.grows, likewise.outcome.trans noOutcome⟩
  waiting := likewise.waiting.trans isRunning.waiting
  works := by
    rw [likewise.works]
    exact isRunning.works
  output := likewise.output.trans isRunning.output

/-- A scene in which nothing has changed that a run attends to. -/
structure Undisturbed
    (own : Multiset Possession)
    (mailbox : MailboxId)
    (launched : List OperationId)
    (scene later : Scene) : Prop where
  machine : later.machine = scene.machine
  ended : later.ended.filter (fun process => process.operation ∈ launched) =
    scene.ended.filter fun process => process.operation ∈ launched
  grows : scene.board.operations.size ≤ later.board.operations.size
  outcome : ∀ id ∈ launched, later.board.outcome? id = scene.board.outcome? id
  waiting : ∀ id, later.board.waitingSlots mailbox id = scene.board.waitingSlots mailbox id
  signals : later.board.signals mailbox = scene.board.signals mailbox
  works : ∀ id ∈ launched, worksFor later id = worksFor scene id
  separate : ∀ work ∈ later.agenda.works, work.operation ∉ launched →
    ∀ cell, work.cell? = some cell → .cell cell ∉ own
  outputs : ∀ cell, .cell cell ∈ own → later.outputs[cell]? = scene.outputs[cell]?

theorem Undisturbed.likewise
    (undisturbed : Undisturbed own slots.mailbox launched scene later)
    (roster : Roster own base specs launched slots)
    (filled : slots.slotAt? index = some slot) :
    Likewise slots.mailbox slot scene later where
  machine := undisturbed.machine
  grows := undisturbed.grows
  outcome := undisturbed.outcome _ (roster.mem_launched filled)
  waiting := undisturbed.waiting _
  works := undisturbed.works _ (roster.mem_launched filled)
  output := undisturbed.outputs _ (roster.cell_mem filled)

/-- A run attends to its processes as long as nothing changes that it attends to. -/
theorem Attends.undisturbed
    (attends : Attends own base specs launched told slots queue scene)
    (roster : Roster own base specs launched slots)
    (undisturbed : Undisturbed own slots.mailbox launched scene later) :
    Attends own base specs launched told slots queue later where
  ended := undisturbed.ended.trans attends.ended
  holds id member := (attends.holds id member).trans_le undisturbed.grows
  unheard id notLaunched := (undisturbed.waiting id).trans (attends.unheard id notLaunched)
  announced := by
    rw [undisturbed.signals]
    refine attends.announced.imp ?_
    rintro index process ⟨slot, filled, isOver⟩
    exact ⟨slot, filled, isOver.likewise (undisturbed.likewise roster filled)⟩
  nodup := undisturbed.signals ▸ attends.nodup
  running filled notAnnounced := by
    rw [undisturbed.signals] at notAnnounced
    exact (attends.running filled notAnnounced).likewise (undisturbed.likewise roster filled)
  attended work member isLaunched := by
    have isFor : work ∈ worksFor later work.operation :=
      List.mem_filter.mpr ⟨member, decide_eq_true rfl⟩
    rw [undisturbed.works _ isLaunched] at isFor
    exact attends.attended work (List.mem_filter.mp isFor).1 isLaunched
  separate := undisturbed.separate
  idle isIdle inRange :=
    (undisturbed.outputs _ (roster.idle_mem isIdle inRange)).trans (attends.idle isIdle inRange)

theorem Attends.refl_undisturbed
    (attends : Attends own base specs launched told slots queue scene) :
    Undisturbed own slots.mailbox launched scene scene where
  machine := rfl
  ended := rfl
  grows := le_rfl
  outcome _ _ := rfl
  waiting _ := rfl
  signals := rfl
  works _ _ := rfl
  separate := attends.separate
  outputs _ _ := rfl

/-- What somebody has in hand belongs to nobody else. -/
theorem notMem_own
    {possession : Possession}
    (orderly : Orderly (own + hand) scene)
    (inHand : possession ∈ hand) :
    possession ∉ own :=
  fun isOwn => Multiset.disjoint_left.mp (Multiset.nodup_add.mp orderly.nodup).2.2 isOwn inHand

theorem Roster.isOpen
    (roster : Roster own base specs launched slots)
    (orderly : Orderly (own + hand) scene) :
    scene.board.IsOpen slots.mailbox :=
  orderly.isOpen _ (Multiset.mem_add.mpr (.inl roster.mailbox_mem))

theorem Roster.cell_lt
    {cell : OutputCell}
    (orderly : Orderly (own + hand) scene)
    (isOwn : .cell cell ∈ own) :
    cell < scene.outputs.size :=
  orderly.cell_lt _ (Multiset.mem_add.mpr (.inl isOwn))

/-- Work that begins is not for an operation that a run has launched. -/
theorem Attends.undisturbed_begin
    {work : Work}
    (attends : Attends own base specs launched told slots queue scene)
    (orderly : Orderly (own + hand) scene)
    (time : Nat)
    (isNew : work.operation = scene.board.operations.size)
    (inHand : ∀ cell, work.cell? = some cell → .cell cell ∈ hand) :
    Undisturbed own slots.mailbox launched scene
      { scene with board := scene.board.create.1, agenda := scene.agenda.add time work } :=
  { attends.refl_undisturbed with
    grows := (Nat.le_succ _).trans_eq (Board.size_create _).symm
    outcome := fun id _ => Board.outcome?_create _ id
    waiting := fun id => Board.waitingSlots_create _ _ id
    works := fun id isLaunched =>
      Agenda.filter_works_add _ _ (decide_eq_false fun same =>
        (attends.holds id isLaunched).ne (same.symm.trans isNew))
    separate := fun other member notLaunched cell leaves => by
      rcases List.mem_cons.mp ((Agenda.works_add_perm ..).mem_iff.mp member) with rfl | wasThere
      · exact notMem_own orderly (inHand cell leaves)
      · exact attends.separate other wasThere notLaunched cell leaves }

/-- Work that a run has not launched is of no concern to it. -/
theorem Attends.undisturbed_settle
    {work : Work}
    {agenda : Agenda Work}
    (attends : Attends own base specs launched told slots queue scene)
    (isOpen : scene.board.IsOpen slots.mailbox)
    (isNext : scene.agenda.next? = some (work, agenda))
    (notLaunched : work.operation ∉ launched)
    (outcome : Outcome) :
    Undisturbed own slots.mailbox launched scene
      { scene with board := scene.board.settle work.operation outcome, agenda := agenda } := by
  have isOther (id : OperationId) (isLaunched : id ∈ launched) : id ≠ work.operation :=
    fun same => notLaunched (same ▸ isLaunched)
  have nobodyWaits := attends.unheard work.operation notLaunched
  have worksLater := Agenda.works_of_next? isNext
  refine
    { attends.refl_undisturbed with
      grows := (Board.size_settle ..).ge
      outcome := fun id isLaunched => ?_
      waiting := fun id => ?_
      signals := ?_
      works := fun id isLaunched => ?_
      separate := fun other member => attends.separate other (worksLater ▸ .tail _ member) }
  · rw [Board.outcome?_settle, if_neg fun both => isOther id isLaunched both.2]
  · rw [Board.waitingSlots_settle]
    split
    next same => rw [same, nobodyWaits]
    next => rfl
  · rw [Board.signals_settle isOpen, nobodyWaits, List.append_nil]
  · unfold worksFor
    rw [worksLater, List.filter_cons_of_neg fun isFor =>
      isOther id isLaunched (of_decide_eq_true isFor).symm]

/-! ## Processes that end -/

/-- What is announced is over. -/
theorem Attends.over_of_announced
    (attends : Attends own base specs launched told slots queue scene)
    (isAnnounced : index ∈ scene.board.signals slots.mailbox) :
    ∃ process slot, slots.slotAt? index = some slot ∧ Over specs slot process scene := by
  obtain ⟨place, inRange, rfl⟩ := List.getElem_of_mem isAnnounced
  obtain ⟨slot, filled, isOver⟩ :=
    attends.announced.get inRange (attends.announced.length_eq ▸ inRange)
  exact ⟨_, slot, filled, isOver⟩

/-- Work for an operation that a run has launched is a process that is running. -/
theorem Attends.running_of_work
    {work : Work}
    (attends : Attends own base specs launched told slots queue scene)
    (onAgenda : work ∈ scene.agenda.works)
    (isLaunched : work.operation ∈ launched) :
    ∃ index slot spec directory,
      slots.slotAt? index = some slot ∧ index ∉ scene.board.signals slots.mailbox ∧
        specs[slot.sequence]? = some spec ∧
          work = .process slot.operation spec directory (some slot.callback.cell) := by
  obtain ⟨index, slot, filled, sameOperation⟩ := attends.attended work onAgenda isLaunched
  have isFor : work ∈ worksFor scene slot.operation :=
    List.mem_filter.mpr ⟨onAgenda, decide_eq_true sameOperation.symm⟩
  have notAnnounced : index ∉ scene.board.signals slots.mailbox := by
    intro isAnnounced
    obtain ⟨_, other, otherFilled, isOver⟩ := attends.over_of_announced isAnnounced
    obtain rfl : slot = other := Option.some.inj (filled.symm.trans otherFilled)
    exact List.not_mem_nil (isOver.works ▸ isFor)
  obtain ⟨spec, directory, isSpec, works⟩ := (attends.running filled notAnnounced).works
  rw [works, List.mem_singleton] at isFor
  exact ⟨index, slot, spec, directory, filled, notAnnounced, isSpec, isFor⟩

section Ending

variable {process : EndedProcess} {directory : Location} {cell : OutputCell}
variable {agenda : Agenda Work}

/-- The end of a process makes no difference to slots of other operations with places of their
own. -/
theorem likewise_afterProcess
    (mailbox : MailboxId)
    (isNext : scene.agenda.next? =
      some (.process process.operation process.spec directory (some cell), agenda))
    (otherOperation : slot.operation ≠ process.operation)
    (otherCell : slot.callback.cell ≠ cell) :
    Likewise mailbox slot scene (scene.afterProcess agenda process (some cell)) := by
  refine ⟨rfl, (Board.size_settle ..).ge, ?_, ?_, ?_, getElem?_leave_of_ne _ _ otherCell⟩
  · rw [Scene.afterProcess, Board.outcome?_settle, if_neg fun both => otherOperation both.2]
  · rw [Scene.afterProcess, Board.waitingSlots_settle, if_neg otherOperation]
  · unfold worksFor
    rw [Agenda.works_of_next? isNext, List.filter_cons_of_neg fun isFor =>
      otherOperation (of_decide_eq_true isFor).symm]
    rfl

/-- A process that was running is over when it ends. -/
theorem Running.over_afterProcess
    {mailbox : MailboxId}
    (isRunning : Running mailbox specs index slot scene)
    (isNext : scene.agenda.next? =
      some (.process process.operation process.spec directory (some slot.callback.cell), agenda))
    (sameOperation : process.operation = slot.operation)
    (isSpec : specs[slot.sequence]? = some process.spec)
    (hasRun : process.HasRun scene.machine) :
    Over specs slot process (scene.afterProcess agenda process (some slot.callback.cell)) where
  operation_eq := sameOperation
  spec_eq := isSpec
  hasRun := hasRun
  outcome := by
    rw [Scene.afterProcess, Board.outcome?_settle, sameOperation, if_pos ⟨isRunning.pending, rfl⟩]
  works := by
    obtain ⟨_, _, -, works⟩ := isRunning.works
    unfold worksFor at works ⊢
    rw [Agenda.works_of_next? isNext,
      List.filter_cons_of_pos (by exact decide_eq_true sameOperation)] at works
    exact (List.cons.inj works).2
  output := getElem?_leave_self isRunning.output _

/-- The process of a slot is announced when it ends. -/
theorem Attends.ends
    {cell? : Option OutputCell}
    (attends : Attends own base specs launched told slots queue scene)
    (roster : Roster own base specs launched slots)
    (isOpen : scene.board.IsOpen slots.mailbox)
    (isNext : scene.agenda.next? =
      some (.process process.operation process.spec directory cell?, agenda))
    (isLaunched : process.operation ∈ launched)
    (hasRun : process.HasRun scene.machine) :
    Attends own base specs launched told slots (queue ++ [process])
      (scene.afterProcess agenda process cell?) := by
  have worksLater := Agenda.works_of_next? isNext
  obtain ⟨index, slot, spec, _, filled, notAnnounced, isSpec, isWork⟩ :=
    attends.running_of_work (worksLater ▸ List.mem_cons_self :
      .process process.operation process.spec directory cell? ∈ scene.agenda.works) isLaunched
  obtain ⟨sameOperation, rfl, -, rfl⟩ := Work.process.inj isWork
  have isRunning := attends.running filled notAnnounced
  have signals : (scene.afterProcess agenda process (some slot.callback.cell)).board.signals
      slots.mailbox = scene.board.signals slots.mailbox ++ [index] := by
    rw [Scene.afterProcess, Board.signals_settle isOpen, sameOperation, isRunning.waiting]
  have likewise {other : Nat} {otherSlot : Slot BatchSlot}
      (otherFilled : slots.slotAt? other = some otherSlot) (isOther : other ≠ index) :
      Likewise slots.mailbox otherSlot scene
        (scene.afterProcess agenda process (some slot.callback.cell)) :=
    likewise_afterProcess _ isNext
      (fun same => isOther (roster.operation_inj otherFilled filled (same.trans sameOperation)))
      fun same => isOther (roster.cell_inj otherFilled filled same)
  exact
    { ended := by
        have isOne : [process].filter (fun process => process.operation ∈ launched) = [process] :=
          List.filter_cons_of_pos (decide_eq_true isLaunched)
        rw [Scene.afterProcess, List.filter_append, attends.ended, isOne, List.append_assoc]
      holds := fun id member => (attends.holds id member).trans_eq (Board.size_settle ..).symm
      unheard := fun id notLaunched => by
        rw [Scene.afterProcess, Board.waitingSlots_settle, attends.unheard id notLaunched, ite_self]
      announced := by
        have others : ∀ other ∈ scene.board.signals slots.mailbox, other ≠ index :=
          fun other isAnnounced same => notAnnounced (same ▸ isAnnounced)
        have isOver := isRunning.over_afterProcess isNext sameOperation isSpec hasRun
        rw [signals]
        refine List.rel_append (List.Forall₂.imp ?_
          ((List.forall₂_and_left ..).mpr ⟨others, attends.announced⟩))
          (.cons ⟨slot, filled, isOver⟩ .nil)
        rintro other process ⟨isOther, otherSlot, otherFilled, isOverBefore⟩
        exact ⟨otherSlot, otherFilled, isOverBefore.likewise (likewise otherFilled isOther)⟩
      nodup := by
        rw [signals]
        exact attends.nodup.append (List.nodup_singleton index)
          (List.disjoint_singleton.mpr notAnnounced)
      running := fun otherFilled notAnnouncedLater => by
        rw [signals, List.mem_append, not_or, List.mem_singleton] at notAnnouncedLater
        exact (attends.running otherFilled notAnnouncedLater.1).likewise
          (likewise otherFilled notAnnouncedLater.2)
      attended := fun work member => attends.attended work (worksLater ▸ .tail _ member)
      separate := fun work member => attends.separate work (worksLater ▸ .tail _ member)
      idle := fun isIdle inRange =>
        (getElem?_leave_of_ne _ _ (roster.cell_ne_idle filled isIdle).symm).trans
          (attends.idle isIdle inRange) }

end Ending

/-- Whatever others do, a run attends to its processes. Those that end meanwhile are told of in
this order. -/
theorem Attends.shift
    (attends : Attends own base specs launched told slots queue scene)
    (roster : Roster own base specs launched slots)
    (orderly : Orderly (own + hand) scene)
    (shift : Shift hand scene laterHand later) :
    ∃ queue, Attends own base specs launched told slots queue later := by
  have isOpen := roster.isOpen orderly
  have unchanged := attends.refl_undisturbed
  cases shift with
  | rests fewer => exact ⟨queue, attends⟩
  | begins time work isNew inHand =>
      exact ⟨queue, attends.undisturbed roster
        (attends.undisturbed_begin orderly time isNew inHand)⟩
  | @ends hand scene process directory cell? agenda isNext hasRun =>
      by_cases isLaunched : process.operation ∈ launched
      · exact ⟨_, attends.ends roster isOpen isNext isLaunched hasRun⟩
      · have onAgenda : .process process.operation process.spec directory cell? ∈
            scene.agenda.works := Agenda.works_of_next? isNext ▸ List.mem_cons_self
        refine ⟨queue, attends.undisturbed roster
          { attends.undisturbed_settle isOpen isNext isLaunched
              (Host.processOutcome process.result) with
            ended := ?_
            outputs := fun cell isOwn => ?_ }⟩
        · have isNone : [process].filter (fun process => process.operation ∈ launched) = [] :=
            List.filter_cons_of_neg fun isIn => isLaunched (of_decide_eq_true isIn)
          rw [Scene.afterProcess, List.filter_append, isNone, List.append_nil]
        · cases cell? with
          | none => rfl
          | some other =>
              refine getElem?_leave_of_ne _ _ ?_
              rintro rfl
              exact attends.separate _ onAgenda isLaunched _ rfl isOwn
  | @settles hand scene work agenda outcome isNext isOther =>
      refine ⟨queue, attends.undisturbed roster
        (attends.undisturbed_settle isOpen isNext (fun isLaunched => ?_) outcome)⟩
      obtain ⟨_, _, _, _, -, -, -, isProcess⟩ := attends.running_of_work
        (Agenda.works_of_next? isNext ▸ List.mem_cons_self) isLaunched
      exact isOther _ _ _ _ isProcess
  | advances time => exact ⟨queue, attends.undisturbed roster { unchanged with }⟩
  | makesCell =>
      refine ⟨queue, attends.undisturbed roster { unchanged with
        outputs := fun cell isOwn => ?_ }⟩
      rw [Array.getElem?_push, if_neg (Roster.cell_lt orderly isOwn).ne]
  | takesOutput cell =>
      refine ⟨queue, attends.undisturbed roster { unchanged with
        outputs := fun other isOwn => ?_ }⟩
      have isOther : cell ≠ other := by
        rintro rfl
        exact notMem_own orderly (Multiset.mem_cons_self _ _) isOwn
      rw [Array.set!_eq_setIfInBounds, Array.getElem?_setIfInBounds, if_neg isOther]
  | opensMailbox =>
      exact ⟨queue, attends.undisturbed roster { unchanged with
        signals := Board.signals_openMailbox .. }⟩
  | listens operation listener inHand =>
      have isOther : listener.mailbox ≠ slots.mailbox := fun same =>
        notMem_own orderly inHand (same ▸ roster.mailbox_mem)
      refine ⟨queue, attends.undisturbed roster { unchanged with
        grows := (Board.size_listen ..).ge
        outcome := fun id _ => Board.outcome?_listen ..
        waiting := fun id => ?_
        signals := ?_ }⟩
      · rw [Board.waitingSlots_listen, if_neg fun both => isOther both.2, List.append_nil]
      · rw [Board.signals_listen isOpen, if_neg fun both => isOther both.2, List.append_nil]
  | setsSignals mailbox signals inHand =>
      have isOther : mailbox ≠ slots.mailbox := fun same =>
        notMem_own orderly inHand (same ▸ roster.mailbox_mem)
      exact ⟨queue, attends.undisturbed roster { unchanged with
        signals := (Board.signals_setSignals isOpen ..).trans (if_neg isOther) }⟩

/-- Whatever others do to a host, a run attends to its processes, which others leave alone. -/
theorem stable_attends
    {ours : Multiset Possession}
    (roster : Roster (rooms ours) base specs launched slots) :
    Stable fun hand host => Reached (ours + hand) host ∧
      ∃ queue, Attends (rooms ours) base specs launched told slots queue host.scene := by
  rintro hand host laterHand later deed ⟨reached, queue, attends⟩
  have orderly := reached.orderly
  rw [rooms_add] at orderly
  exact ⟨reached.deed (deed.frame ours), attends.shift roster orderly deed.shift⟩

end Attendance
end ScriptHost
