import ScriptHost.Proofs.Session.Attendance

/-!
# Turns of a run

When a run has its turn it opens its mailbox, launches processes, and hands out those that are
announced. Each turn leaves it attending to what is outstanding then. If nothing is announced,
something on the agenda is still to be done.
-/

namespace ScriptHost

/-- The scene after a process is launched, whose slot waits for it. -/
def Scene.afterLaunch
    (scene : Scene)
    (mailbox : MailboxId)
    (index time : Nat)
    (spec : ProcessSpec)
    (directory : Location)
    (cell : OutputCell) : Scene :=
  let operation := scene.board.operations.size
  { scene with
    board := scene.board.create.1.listen operation ⟨mailbox, index⟩
    agenda := scene.agenda.add time (.process operation spec directory (some cell)) }

namespace Attendance

open Scheduler Natives

variable {own : Multiset Possession} {base : OutputCell}
variable {specs : List ProcessSpec} {launched : List OperationId}
variable {told queue : List EndedProcess} {slots : Slots BatchSlot}
variable {scene : Scene} {index : Nat} {slot : Slot BatchSlot}

/-! ## The mailbox -/

/-- A run attends to nothing when it has opened its mailbox. -/
theorem attends_opened
    (orderly : Orderly own scene)
    (limit : Nat)
    (separate : ∀ work ∈ scene.agenda.works, ∀ cell, work.cell? = some cell → .cell cell ∉ own)
    (idle : ∀ index < specs.length, scene.outputs[base + index]? = some none) :
    Attends (.mailbox scene.board.mailboxes.size ::ₘ own) base specs [] []
      (.new limit scene.board.mailboxes.size) []
      { scene with board := scene.board.openMailbox.1 } := by
  have notOpen : ¬scene.board.IsOpen scene.board.mailboxes.size := Nat.lt_irrefl _
  have noSignals : scene.board.openMailbox.1.signals scene.board.mailboxes.size = [] := by
    rw [Board.signals_openMailbox, Board.signals_eq_nil notOpen]
  exact
    { ended := List.filter_eq_nil_iff.mpr fun _ _ => by simp
      holds := nofun
      unheard := fun id _ => orderly.unheard _ id notOpen
      announced := by
        change List.Forall₂ _ (scene.board.openMailbox.1.signals scene.board.mailboxes.size) _
        rw [noSignals]
        exact .nil
      nodup := by
        change (scene.board.openMailbox.1.signals scene.board.mailboxes.size).Nodup
        rw [noSignals]
        exact List.nodup_nil
      running := fun filled => by
        rw [Slots.slotAt?_new] at filled
        cases filled
      attended := nofun
      separate := fun work member _ cell leaves isOwn =>
        separate work member cell leaves ((Multiset.mem_cons.mp isOwn).resolve_left (by rintro ⟨⟩))
      idle := fun {index} _ => idle index }

theorem roster_opened
    (limit : Nat)
    (mailbox : MailboxId)
    (idle_mem : ∀ index < specs.length, .cell (base + index) ∈ own) :
    Roster (.mailbox mailbox ::ₘ own) base specs [] (.new limit mailbox) where
  mailbox_mem := Multiset.mem_cons_self _ _
  cell_mem filled := by rw [Slots.slotAt?_new] at filled; cases filled
  cell_eq filled := by rw [Slots.slotAt?_new] at filled; cases filled
  operation_eq filled := by rw [Slots.slotAt?_new] at filled; cases filled
  sequence_inj filled := by rw [Slots.slotAt?_new] at filled; cases filled
  idle_mem _ inRange := Multiset.mem_cons_of_mem (idle_mem _ inRange)
  nodup := List.nodup_nil

/-! ## Launching -/

section Launching

variable {admission : Admission BatchSlot}

theorem Roster.launch
    (roster : Roster own base specs launched slots)
    (tidy : slots.Tidy)
    (inSequence : slots.nextSequence = launched.length)
    (cell_eq : admission.callback.cell = base + launched.length)
    (inRange : launched.length < specs.length)
    (isNew : admission.operation ∉ launched)
    (board : Board) :
    Roster own base specs (launched ++ [admission.operation])
      (slots.occupy board admission).1 := by
  have cases {index : Nat} {slot : Slot BatchSlot}
      (filled : (slots.occupy board admission).1.slotAt? index = some slot) :
      (index = slots.nextIndex ∧ slot = slots.nextSlot admission) ∨
        slots.slotAt? index = some slot :=
    (tidy.slotAt?_occupy_eq_some_iff board admission).mp filled
  have earlier {index : Nat} {slot : Slot BatchSlot} (filled : slots.slotAt? index = some slot) :
      slot.sequence ≠ slots.nextSequence :=
    inSequence ▸ (roster.sequence_lt filled).ne
  exact
    { mailbox_mem := roster.mailbox_mem
      cell_mem := fun filled => by
        rcases cases filled with ⟨-, rfl⟩ | filled
        · change .cell admission.callback.cell ∈ own
          rw [cell_eq]
          exact roster.idle_mem le_rfl inRange
        · exact roster.cell_mem filled
      cell_eq := fun filled => by
        rcases cases filled with ⟨-, rfl⟩ | filled
        · exact cell_eq.trans (congrArg (base + ·) inSequence.symm)
        · exact roster.cell_eq filled
      operation_eq := fun filled => by
        rcases cases filled with ⟨-, rfl⟩ | filled
        · change (launched ++ [admission.operation])[slots.nextSequence]? = _
          rw [inSequence, List.getElem?_concat_length]
          rfl
        · rw [List.getElem?_append_left (roster.sequence_lt filled)]
          exact roster.operation_eq filled
      sequence_inj := fun filled otherFilled same => by
        rcases cases filled with ⟨rfl, rfl⟩ | filled <;>
          rcases cases otherFilled with ⟨rfl, rfl⟩ | otherFilled
        · rfl
        · exact absurd same.symm (earlier otherFilled)
        · exact absurd same (earlier filled)
        · exact roster.sequence_inj filled otherFilled same
      idle_mem := fun isIdle => by
        rw [List.length_append] at isIdle
        exact roster.idle_mem (Nat.le_of_succ_le isIdle)
      nodup := List.nodup_append.mpr ⟨roster.nodup, List.nodup_singleton _, by
        rintro id isLaunched _ isLast rfl
        exact isNew (List.mem_singleton.mp isLast ▸ isLaunched)⟩ }

variable {spec : ProcessSpec} {cell : OutputCell}

/-- No work is for an operation that is not there yet. -/
theorem worksFor_eq_nil (orderly : Orderly own scene) :
    scene.agenda.works.filter
      (fun work => work.operation = scene.board.operations.size) = [] := by
  rw [List.filter_eq_nil_iff]
  exact fun work member isFor =>
    (orderly.works work member).holds.ne (of_decide_eq_true isFor)

/-- A process that is launched announces nothing at once. -/
theorem signals_afterLaunch
    {mailbox : MailboxId}
    (isOpen : scene.board.IsOpen mailbox)
    (index time : Nat)
    (spec : ProcessSpec)
    (directory : Location)
    (cell : OutputCell) :
    (scene.afterLaunch mailbox index time spec directory cell).board.signals mailbox =
      scene.board.signals mailbox := by
  have isOpen : scene.board.create.1.IsOpen mailbox := isOpen
  rw [Scene.afterLaunch, Board.signals_listen isOpen, Board.outcome?_create, Board.outcome?_size,
    if_neg (by simp), List.append_nil]
  rfl

/-- What is on the agenda after a launch is for the process or was there before. -/
theorem mem_works_afterLaunch
    {mailbox : MailboxId}
    {index time : Nat}
    {directory : Location}
    {work : Work}
    (orderly : Orderly own scene)
    (member : work ∈ (scene.afterLaunch mailbox index time spec directory cell).agenda.works) :
    work.operation = scene.board.operations.size ∨
      work ∈ scene.agenda.works ∧ work.operation ≠ scene.board.operations.size := by
  rcases List.mem_cons.mp ((Agenda.works_add_perm ..).mem_iff.mp member) with rfl | wasThere
  · exact .inl rfl
  · exact .inr ⟨wasThere, (orderly.works work wasThere).holds.ne⟩

theorem likewise_afterLaunch
    (mailbox : MailboxId)
    (index time : Nat)
    (spec : ProcessSpec)
    (directory : Location)
    (cell : OutputCell)
    (isEarlier : slot.operation ≠ scene.board.operations.size) :
    Likewise mailbox slot scene (scene.afterLaunch mailbox index time spec directory cell) where
  machine := rfl
  grows := by
    rw [Scene.afterLaunch, Board.size_listen, Board.size_create]
    exact Nat.le_succ _
  outcome := (Board.outcome?_listen ..).trans (Board.outcome?_create ..)
  waiting := by
    rw [Scene.afterLaunch, Board.waitingSlots_listen, Board.waitingSlots_create,
      if_neg fun both => isEarlier both.1.2, List.append_nil]
  works := Agenda.filter_works_add _ _ (decide_eq_false isEarlier.symm)
  output := rfl

/-- A process that is launched is running. -/
theorem running_afterLaunch
    (orderly : Orderly own scene)
    (mailbox : MailboxId)
    (index time : Nat)
    (directory : Location)
    (isNew : slot.operation = scene.board.operations.size)
    (cell_eq : slot.callback.cell = cell)
    (unheard : scene.board.waitingSlots mailbox slot.operation = [])
    (isSpec : specs[slot.sequence]? = some spec)
    (idle : scene.outputs[cell]? = some none) :
    Running mailbox specs index slot
      (scene.afterLaunch mailbox index time spec directory cell) where
  pending := by
    rw [Scene.afterLaunch, Board.isPending_iff, Board.Holds, Board.size_listen, Board.size_create,
      Board.outcome?_listen, Board.outcome?_create, isNew]
    exact ⟨Nat.lt_succ_self _, Board.outcome?_size _⟩
  waiting := by
    have isPending : scene.board.create.1.IsPending scene.board.operations.size := by
      rw [Board.isPending_iff, Board.Holds, Board.size_create, Board.outcome?_create]
      exact ⟨Nat.lt_succ_self _, Board.outcome?_size _⟩
    rw [Scene.afterLaunch, Board.waitingSlots_listen, Board.waitingSlots_create, unheard, isNew,
      if_pos ⟨⟨isPending, rfl⟩, rfl⟩, List.nil_append]
  works := by
    have isAdded := (Agenda.works_add_perm scene.agenda time
      (.process slot.operation spec directory (some cell))).filter fun work =>
        work.operation = slot.operation
    rw [List.filter_cons_of_pos (by exact decide_eq_true rfl), isNew,
      worksFor_eq_nil orderly, List.perm_singleton] at isAdded
    rw [isNew, cell_eq]
    exact ⟨spec, directory, isSpec, isAdded⟩
  output := cell_eq ▸ idle

/-- A run attends to a process that it launches in the next slot. -/
theorem Attends.launch
    {all : Multiset Possession}
    (attends : Attends own base specs launched told slots queue scene)
    (roster : Roster own base specs launched slots)
    (orderly : Orderly all scene)
    (isOpen : scene.board.IsOpen slots.mailbox)
    (tidy : slots.Tidy)
    (inSequence : slots.nextSequence = launched.length)
    (isNew : admission.operation = scene.board.operations.size)
    (cell_eq : admission.callback.cell = base + launched.length)
    (isSpec : specs[launched.length]? = some spec)
    (time : Nat)
    (directory : Location)
    (board : Board) :
    Attends own base specs (launched ++ [admission.operation]) told
      (slots.occupy board admission).1 queue
      (scene.afterLaunch slots.mailbox slots.nextIndex time spec directory
        admission.callback.cell) := by
  have notLaunched : admission.operation ∉ launched := fun isLaunched =>
    (attends.holds _ isLaunched).ne isNew
  have others {index : Nat} {slot : Slot BatchSlot} (filled : slots.slotAt? index = some slot) :
      (slots.occupy board admission).1.slotAt? index = some slot ∧
        slot.operation ≠ scene.board.operations.size :=
    ⟨(tidy.slotAt?_occupy_eq_some_iff board admission).mpr (.inr filled),
      (attends.holds _ (roster.mem_launched filled)).ne⟩
  have sameSignals := signals_afterLaunch isOpen slots.nextIndex time spec directory
    admission.callback.cell
  have likewise {slot : Slot BatchSlot}
      (isEarlier : slot.operation ≠ scene.board.operations.size) :=
    likewise_afterLaunch slots.mailbox slots.nextIndex time spec directory
      admission.callback.cell isEarlier
  have isWork {work : Work}
      (member : work ∈ (scene.afterLaunch slots.mailbox slots.nextIndex time spec directory
        admission.callback.cell).agenda.works) :
      work.operation = admission.operation ∨
        work ∈ scene.agenda.works ∧ work.operation ≠ admission.operation := by
    rw [isNew]
    exact mem_works_afterLaunch orderly member
  exact
    { ended := by
        rw [← attends.ended]
        refine List.filter_congr fun process member => ?_
        have isEarlier : process.operation ≠ admission.operation := fun same =>
          (orderly.ended process member).ne (same.trans isNew)
        simp [isEarlier]
      holds := fun id member => by
        rw [Scene.afterLaunch, Board.Holds, Board.size_listen, Board.size_create]
        rcases List.mem_append.mp member with isLaunched | isLast
        · exact Nat.lt_succ_of_lt (attends.holds id isLaunched)
        · rw [List.mem_singleton.mp isLast, isNew]
          exact Nat.lt_succ_self _
      unheard := fun id notIn => by
        rw [List.mem_append, not_or, List.mem_singleton] at notIn
        refine (Board.waitingSlots_listen ..).trans ?_
        rw [Board.waitingSlots_create, if_neg fun both => notIn.2 (both.1.2.trans isNew.symm),
          List.append_nil]
        exact attends.unheard id notIn.1
      announced := by
        change List.Forall₂ _ (Board.signals _ slots.mailbox) _
        rw [sameSignals]
        refine attends.announced.imp ?_
        rintro index process ⟨slot, filled, isOver⟩
        exact ⟨slot, (others filled).1, isOver.likewise (likewise (others filled).2)⟩
      nodup := sameSignals.symm ▸ attends.nodup
      running := fun {index slot} filled notAnnounced => by
        change index ∉ Board.signals _ slots.mailbox at notAnnounced
        rw [sameSignals] at notAnnounced
        rcases (tidy.slotAt?_occupy_eq_some_iff board admission).mp filled with
          ⟨rfl, rfl⟩ | filled
        · refine running_afterLaunch orderly _ _ time directory isNew rfl
            (attends.unheard _ notLaunched) ?_ ?_
          · exact (congrArg (specs[·]?) inSequence).trans isSpec
          · rw [cell_eq]
            exact attends.idle le_rfl (List.getElem?_eq_some_iff.mp isSpec).1
        · exact (attends.running filled notAnnounced).likewise (likewise (others filled).2)
      attended := fun work member isLaunched => by
        rcases isWork member with isLast | ⟨wasThere, isOther⟩
        · exact ⟨slots.nextIndex, slots.nextSlot admission,
            (tidy.slotAt?_occupy_eq_some_iff board admission).mpr (.inl ⟨rfl, rfl⟩), isLast.symm⟩
        · rw [List.mem_append, List.mem_singleton, or_iff_left isOther] at isLaunched
          obtain ⟨index, slot, filled, same⟩ := attends.attended work wasThere isLaunched
          exact ⟨index, slot, (others filled).1, same⟩
      separate := fun work member notIn => by
        rw [List.mem_append, not_or, List.mem_singleton] at notIn
        exact attends.separate work ((isWork member).resolve_left notIn.2).1 notIn.1
      idle := fun isIdle => by
        rw [List.length_append] at isIdle
        exact attends.idle (Nat.le_of_succ_le isIdle) }

end Launching

/-! ## Handing out -/

theorem Roster.vacate
    (roster : Roster (.cell slot.callback.cell ::ₘ own) base specs launched slots)
    (filled : slots.slotAt? index = some slot) :
    Roster own base specs launched (slots.vacate index) := by
  have others {other : Nat} {otherSlot : Slot BatchSlot}
      (otherFilled : (slots.vacate index).slotAt? other = some otherSlot) :
      other ≠ index ∧ slots.slotAt? other = some otherSlot :=
    Slots.slotAt?_vacate_eq_some_iff.mp otherFilled
  exact
    { mailbox_mem := (Multiset.mem_cons.mp roster.mailbox_mem).resolve_left (by rintro ⟨⟩)
      cell_mem := fun otherFilled => by
        obtain ⟨isOther, otherFilled⟩ := others otherFilled
        refine (Multiset.mem_cons.mp (roster.cell_mem otherFilled)).resolve_left fun same => ?_
        exact isOther (roster.cell_inj otherFilled filled (Possession.cell.inj same))
      cell_eq := fun otherFilled => roster.cell_eq (others otherFilled).2
      operation_eq := fun otherFilled => roster.operation_eq (others otherFilled).2
      sequence_inj := fun filled otherFilled =>
        roster.sequence_inj (others filled).2 (others otherFilled).2
      idle_mem := fun isIdle inRange => by
        refine (Multiset.mem_cons.mp (roster.idle_mem isIdle inRange)).resolve_left fun same => ?_
        exact roster.cell_ne_idle filled isIdle (Possession.cell.inj same).symm
      nodup := roster.nodup }

/-- A run hands out the process that ended first, and attends to the others. -/
theorem Attends.handOut
    {process : EndedProcess}
    {rest : List Nat}
    (attends : Attends (.cell slot.callback.cell ::ₘ own) base specs launched told slots
      (process :: queue) scene)
    (isOpen : scene.board.IsOpen slots.mailbox)
    (signals : scene.board.signals slots.mailbox = index :: rest)
    (filled : slots.slotAt? index = some slot) :
    Attends own base specs launched (told ++ [process]) (slots.vacate index) queue
      { scene with board := scene.board.setSignals slots.mailbox rest } := by
  have restSignals : (scene.board.setSignals slots.mailbox rest).signals slots.mailbox = rest :=
    (Board.signals_setSignals isOpen ..).trans (if_pos rfl)
  have announced := attends.announced
  have nodup := attends.nodup
  rw [signals] at announced nodup
  obtain ⟨isOtherThan, nodup⟩ := List.nodup_cons.mp nodup
  obtain ⟨⟨_, sameFilled, isOver⟩, announced⟩ := List.forall₂_cons.mp announced
  obtain rfl : slot = _ := Option.some.inj (filled.symm.trans sameFilled)
  have stays {other : Nat} {otherSlot : Slot BatchSlot} (isOther : other ≠ index)
      (otherFilled : slots.slotAt? other = some otherSlot) :
      (slots.vacate index).slotAt? other = some otherSlot :=
    Slots.slotAt?_vacate_eq_some_iff.mpr ⟨isOther, otherFilled⟩
  have likewise (otherSlot : Slot BatchSlot) :
      Likewise slots.mailbox otherSlot scene
        { scene with board := scene.board.setSignals slots.mailbox rest } :=
    ⟨rfl, le_rfl, rfl, rfl, rfl, rfl⟩
  exact
    { ended := attends.ended.trans (List.append_cons ..)
      holds := attends.holds
      unheard := attends.unheard
      announced := by
        change List.Forall₂ _ (Board.signals _ slots.mailbox) _
        rw [restSignals]
        have others : ∀ other ∈ rest, other ≠ index :=
          fun other isLater same => isOtherThan (same ▸ isLater)
        refine List.Forall₂.imp ?_ ((List.forall₂_and_left ..).mpr ⟨others, announced⟩)
        rintro other process ⟨isOther, otherSlot, otherFilled, isOver⟩
        exact ⟨otherSlot, stays isOther otherFilled, isOver.likewise (likewise otherSlot)⟩
      nodup := restSignals.symm ▸ nodup
      running := fun {other otherSlot} otherFilled notAnnounced => by
        change other ∉ Board.signals _ slots.mailbox at notAnnounced
        rw [restSignals] at notAnnounced
        obtain ⟨isOther, otherFilled⟩ := Slots.slotAt?_vacate_eq_some_iff.mp otherFilled
        refine (attends.running otherFilled ?_).likewise (likewise otherSlot)
        rw [signals, List.mem_cons, not_or]
        exact ⟨isOther, notAnnounced⟩
      attended := fun work member isLaunched => by
        obtain ⟨other, otherSlot, otherFilled, same⟩ := attends.attended work member isLaunched
        refine ⟨other, otherSlot, stays ?_ otherFilled, same⟩
        rintro rfl
        obtain rfl : slot = otherSlot := Option.some.inj (filled.symm.trans otherFilled)
        have isFor : work ∈ worksFor scene slot.operation :=
          List.mem_filter.mpr ⟨member, decide_eq_true same.symm⟩
        exact List.not_mem_nil (isOver.works ▸ isFor)
      separate := fun work member notLaunched cell leaves isOwn =>
        attends.separate work member notLaunched cell leaves (Multiset.mem_cons_of_mem isOwn)
      idle := attends.idle }

/-! ## Waiting -/

/-- What is announced is handed out. -/
theorem Attends.complete?_eq_some
    {rest : List Nat}
    (attends : Attends own base specs launched told slots queue scene)
    (signals : scene.board.signals slots.mailbox = index :: rest) :
    ∃ process later slot, queue = process :: later ∧ slots.slotAt? index = some slot ∧
      Over specs slot process scene ∧
      slots.complete? scene.board (scene.board.signals slots.mailbox) =
        some (⟨slot.sequence, slot.callback,
          deliveryOf slot.type (Host.processOutcome process.result)⟩,
          slots.vacate index, rest) := by
  have announced := attends.announced
  rw [signals] at announced
  obtain ⟨process, later, ⟨slot, filled, isOver⟩, -, rfl⟩ := List.forall₂_cons_left_iff.mp announced
  refine ⟨process, later, slot, rfl, filled, isOver, ?_⟩
  rw [signals, Slots.complete?_cons scene.board rest filled isOver.outcome]

/-- If nothing is announced, what is outstanding is on the agenda. -/
theorem Attends.works_ne_nil
    (attends : Attends own base specs launched told slots queue scene)
    (noSignals : scene.board.signals slots.mailbox = [])
    (filled : slots.slotAt? index = some slot) :
    scene.agenda.works ≠ [] := by
  intro noWork
  obtain ⟨_, _, -, works⟩ := (attends.running filled (noSignals ▸ List.not_mem_nil)).works
  rw [worksFor, noWork] at works
  cases works

end Attendance
end ScriptHost
