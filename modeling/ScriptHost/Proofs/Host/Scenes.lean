import ScriptHost.Proofs.Board
import ScriptHost.Proofs.Host.Deeds

/-!
# What goes on in the background

The scene of a host is what its work in the background is seen by: the board, the agenda, the
processes that have ended, and the places for their output. Whatever is done to a host shifts
its scene in one of a few ways, and only those who have a mailbox or a place for output in hand
reach into it.
-/

namespace ScriptHost

/-- A mailbox or a place for output. -/
def Possession.isRoom : Possession → Bool
  | .key _ => false
  | .mailbox _ => true
  | .cell _ => true
  | .pump _ => false
  | .operation _ _ => false

/-- The mailboxes and the places for output that are in hand. -/
def rooms (hand : Multiset Possession) : Multiset Possession :=
  hand.filter fun possession => possession.isRoom = true

@[simp] theorem rooms_add (hand others : Multiset Possession) :
    rooms (hand + others) = rooms hand + rooms others :=
  Multiset.filter_add ..

@[simp] theorem rooms_cons_key
    (key : HandleKey)
    (hand : Multiset Possession) :
    rooms (.key key ::ₘ hand) = rooms hand :=
  Multiset.filter_cons_of_neg _ (by simp [Possession.isRoom])

@[simp] theorem rooms_cons_mailbox
    (mailbox : MailboxId)
    (hand : Multiset Possession) :
    rooms (.mailbox mailbox ::ₘ hand) = .mailbox mailbox ::ₘ rooms hand :=
  Multiset.filter_cons_of_pos _ rfl

@[simp] theorem rooms_cons_cell
    (cell : OutputCell)
    (hand : Multiset Possession) :
    rooms (.cell cell ::ₘ hand) = .cell cell ::ₘ rooms hand :=
  Multiset.filter_cons_of_pos _ rfl

@[simp] theorem rooms_cons_pump
    (handle : ScriptHandle)
    (hand : Multiset Possession) :
    rooms (.pump handle ::ₘ hand) = rooms hand :=
  Multiset.filter_cons_of_neg _ (by simp [Possession.isRoom])

@[simp] theorem rooms_cons_operation
    (handle : ScriptHandle)
    (operation : OperationId)
    (hand : Multiset Possession) :
    rooms (.operation handle operation ::ₘ hand) = rooms hand :=
  Multiset.filter_cons_of_neg _ (by simp [Possession.isRoom])

@[simp] theorem rooms_keyHand (keys : List HandleKey) : rooms (keyHand keys) = 0 := by
  induction keys with
  | nil => rfl
  | cons key keys inductionHypothesis =>
      rw [keyHand_cons, rooms_cons_key, inductionHypothesis]

/-- A room that is in hand is one of the rooms. -/
theorem mem_rooms_of_isRoom
    {possession : Possession}
    {hand : Multiset Possession}
    (isRoom : possession.isRoom = true)
    (member : possession ∈ hand) :
    possession ∈ rooms hand :=
  Multiset.mem_filter.mpr ⟨member, isRoom⟩

/-- What goes on in the background of a host. -/
structure Scene where
  machine : ChildProcess.Machine
  board : Board
  agenda : Agenda Work
  ended : List EndedProcess
  outputs : Array (Option String)

/-- The scene of a host. -/
def Host.scene (host : Host) : Scene :=
  ⟨host.machine, host.board, host.agenda, host.ended, host.outputs⟩

/-- What a process came to is what became of it on a machine. -/
def EndedProcess.HasRun
    (machine : ChildProcess.Machine)
    (process : EndedProcess) : Prop :=
  ∃ files environment, process.result =
    (ChildProcess.run machine process.operation files environment process.spec).result

/-- What was captured of a process that has ended. -/
def EndedProcess.output? (process : EndedProcess) : Option String :=
  match process.result with
  | .ok outcome => outcome.output?
  | .error _ => none

/-- The places for output after output is left in one of them. -/
def leave
    (outputs : Array (Option String))
    (cell? : Option OutputCell)
    (output? : Option String) : Array (Option String) :=
  match cell?, output? with
  | some cell, some output => outputs.set! cell (some output)
  | _, _ => outputs

/-- A cell that is not meant keeps what it holds. -/
theorem getElem?_leave_of_ne
    {cell other : OutputCell}
    (outputs : Array (Option String))
    (output? : Option String)
    (isOther : other ≠ cell) :
    (leave outputs (some cell) output?)[other]? = outputs[other]? := by
  cases output? with
  | none => rfl
  | some output =>
      rw [leave, Array.set!_eq_setIfInBounds, Array.getElem?_setIfInBounds, if_neg isOther.symm]

/-- An empty cell holds what is left in it. -/
theorem getElem?_leave_self
    {outputs : Array (Option String)}
    {cell : OutputCell}
    (isEmpty : outputs[cell]? = some none)
    (output? : Option String) :
    (leave outputs (some cell) output?)[cell]? = some output? := by
  cases output? with
  | none => exact isEmpty
  | some output =>
      obtain ⟨inRange, -⟩ := Array.getElem?_eq_some_iff.mp isEmpty
      rw [leave, Array.set!_eq_setIfInBounds, Array.getElem?_setIfInBounds, if_pos rfl,
        if_pos inRange]

/-- The scene after a process has ended. -/
def Scene.afterProcess
    (scene : Scene)
    (agenda : Agenda Work)
    (process : EndedProcess)
    (cell? : Option OutputCell) : Scene where
  machine := scene.machine
  board := scene.board.settle process.operation (Host.processOutcome process.result)
  agenda := agenda
  ended := scene.ended ++ [process]
  outputs := leave scene.outputs cell? process.output?

/-- How a scene shifts, given the mailboxes and the places for output in hand. -/
inductive Shift : Multiset Possession → Scene → Multiset Possession → Scene → Prop
  | rests {hand laterHand : Multiset Possession} {scene : Scene}
      (fewer : laterHand ≤ hand) :
      Shift hand scene laterHand scene
  | begins {hand : Multiset Possession} {scene : Scene}
      (time : Nat)
      (work : Work)
      (isNew : work.operation = scene.board.operations.size)
      (inHand : ∀ cell, work.cell? = some cell → .cell cell ∈ hand) :
      Shift hand scene hand
        { scene with board := scene.board.create.1, agenda := scene.agenda.add time work }
  | ends {hand : Multiset Possession} {scene : Scene} {process : EndedProcess}
      {directory : Location} {cell? : Option OutputCell} {agenda : Agenda Work}
      (isNext : scene.agenda.next? =
        some (.process process.operation process.spec directory cell?, agenda))
      (hasRun : process.HasRun scene.machine) :
      Shift hand scene hand (scene.afterProcess agenda process cell?)
  | settles {hand : Multiset Possession} {scene : Scene} {work : Work} {agenda : Agenda Work}
      (outcome : Outcome)
      (isNext : scene.agenda.next? = some (work, agenda))
      (isOther : ∀ operation spec directory cell?,
        work ≠ .process operation spec directory cell?) :
      Shift hand scene hand
        { scene with board := scene.board.settle work.operation outcome, agenda := agenda }
  | advances {hand : Multiset Possession} {scene : Scene}
      (time : Nat) :
      Shift hand scene hand { scene with agenda := scene.agenda.advanceTo time }
  | makesCell {hand : Multiset Possession} {scene : Scene} :
      Shift hand scene (.cell scene.outputs.size ::ₘ hand)
        { scene with outputs := scene.outputs.push none }
  | takesOutput {hand : Multiset Possession} {scene : Scene}
      (cell : OutputCell) :
      Shift (.cell cell ::ₘ hand) scene hand
        { scene with outputs := scene.outputs.set! cell none }
  | opensMailbox {hand : Multiset Possession} {scene : Scene} :
      Shift hand scene (.mailbox scene.board.mailboxes.size ::ₘ hand)
        { scene with board := scene.board.openMailbox.1 }
  | listens {hand : Multiset Possession} {scene : Scene}
      (operation : OperationId)
      (listener : Listener)
      (inHand : .mailbox listener.mailbox ∈ hand) :
      Shift hand scene hand { scene with board := scene.board.listen operation listener }
  | setsSignals {hand : Multiset Possession} {scene : Scene}
      (mailbox : MailboxId)
      (signals : List Nat)
      (inHand : .mailbox mailbox ∈ hand) :
      Shift hand scene hand { scene with board := scene.board.setSignals mailbox signals }

/-! ## Deeds -/

/-- Holding a batch does not change the scene. -/
theorem Host.scene_holdBatch
    (host : Host)
    (batch : Batch) :
    (host.holdBatch batch).2.scene = host.scene :=
  Host.view_releaseEach (fun _ _ => rfl) _ _

theorem Host.scene_holdConnection
    (host : Host)
    (connection : Connection) :
    (host.holdConnection connection).2.scene = host.scene :=
  Host.view_holdConnection (fun _ _ _ _ _ => rfl) host connection

/-- When a process has run, the scene is that after the process. -/
theorem Host.scene_performProcess
    (host : Host)
    (operation : OperationId)
    (spec : ProcessSpec)
    (directory : Location)
    (cell? : Option OutputCell) :
    (host.perform (.process operation spec directory cell?)).scene =
      host.scene.afterProcess host.agenda
        ⟨operation, spec, (host.runProcess operation spec directory).result⟩ cell? := by
  unfold Host.perform Scene.afterProcess EndedProcess.output?
  dsimp only
  cases (host.runProcess operation spec directory).result with
  | ok outcome =>
      dsimp only
      unfold Host.leaveOutput leave
      cases cell? <;> cases outcome.output? <;> rfl
  | error error =>
      unfold leave
      cases cell? <;> rfl

/-- Work that is done shifts the scene. -/
theorem Host.shift_perform
    {host : Host}
    {work : Work}
    {agenda : Agenda Work}
    (hand : Multiset Possession)
    (isNext : host.agenda.next? = some (work, agenda)) :
    Shift hand host.scene hand ({ host with agenda := agenda }.perform work).scene := by
  have isNext : host.scene.agenda.next? = some (work, agenda) := isNext
  cases work with
  | delay operation => exact .settles Delay.outcome isNext (by rintro _ _ _ _ ⟨⟩)
  | process operation spec directory cell? =>
      rw [Host.scene_performProcess]
      exact .ends isNext ⟨_, _, rfl⟩
  | download operation url path => exact .settles _ isNext (by rintro _ _ _ _ ⟨⟩)

/-- Whatever is done to a host shifts its scene. -/
theorem Deed.shift
    {hand laterHand : Multiset Possession}
    {host later : Host}
    (deed : Deed hand host laterHand later) :
    Shift (rooms hand) host.scene (rooms laterHand) later.scene := by
  cases deed with
  | aside same =>
      have sameScene : later.scene = host.scene :=
        congrArg (fun affairs : Affairs =>
          (⟨affairs.machine, affairs.board, affairs.agenda, affairs.ended, affairs.outputs⟩ :
            Scene)) same
      rw [sameScene]
      exact .rests le_rfl
  | park function =>
      rw [rooms_cons_key]
      exact .rests le_rfl
  | release key =>
      rw [rooms_cons_key]
      exact .rests le_rfl
  | createBatch function =>
      rw [Host.scene_holdBatch]
      exact .rests le_rfl
  | addEntry spec onExit? found =>
      rw [rooms_add, rooms_keyHand, zero_add]
      exact .rests le_rfl
  | takeBatch handle =>
      rw [rooms_add, rooms_keyHand, zero_add]
      exact .rests le_rfl
  | holdConnection connection =>
      rw [rooms_add, rooms_keyHand, zero_add, Host.scene_holdConnection]
      exact .rests le_rfl
  | takeConnection handle =>
      rw [rooms_add, rooms_keyHand, zero_add]
      exact .rests le_rfl
  | pumps found =>
      rw [rooms_cons_pump]
      exact .rests le_rfl
  | tells function inHand => exact .rests le_rfl
  | pumped handle =>
      rw [rooms_cons_pump]
      exact .rests le_rfl
  | begin time work settles inHand =>
      exact .begins time (work host.board.operations.size) (settles _) fun cell leaves =>
        mem_rooms_of_isRoom rfl (inHand _ cell leaves)
  | work isNext => exact Host.shift_perform _ isNext
  | advance time => exact .advances time
  | makeCell =>
      rw [rooms_cons_cell]
      exact .makesCell
  | takeOutput cell =>
      rw [rooms_cons_cell]
      exact .takesOutput cell
  | leaveCell cell =>
      rw [rooms_cons_cell]
      exact .rests (Multiset.le_cons_self ..)
  | openMailbox =>
      rw [rooms_cons_mailbox]
      exact .opensMailbox
  | listen operation listener inHand =>
      exact .listens operation listener (mem_rooms_of_isRoom rfl inHand)
  | setSignals mailbox signals inHand =>
      exact .setsSignals mailbox signals (mem_rooms_of_isRoom rfl inHand)
  | leaveMailbox mailbox =>
      rw [rooms_cons_mailbox]
      exact .rests (Multiset.le_cons_self ..)
  | takeOperation handle operation | leaveOperation handle operation =>
      rw [rooms_cons_operation]
      exact .rests le_rfl

/-- What no shift of the scene puts an end to is stable. -/
theorem stable_of_shift
    {holds : Multiset Possession → Scene → Prop}
    (shifts : ∀ ⦃hand scene laterHand later⦄, Shift hand scene laterHand later →
      holds hand scene → holds laterHand later) :
    Stable fun hand host => holds (rooms hand) host.scene :=
  fun _ _ _ _ deed => shifts deed.shift

/-- Nothing that happens changes the machine. -/
theorem Shift.machine_eq
    {hand laterHand : Multiset Possession}
    {scene later : Scene}
    (shift : Shift hand scene laterHand later) :
    later.machine = scene.machine := by
  cases shift <;> rfl

/-- Whatever is done to a host, it stays on its machine. -/
theorem stable_machine (machine : ChildProcess.Machine) :
    Stable fun _ host => host.machine = machine :=
  fun _ _ _ _ deed same => deed.shift.machine_eq.trans same

end ScriptHost
