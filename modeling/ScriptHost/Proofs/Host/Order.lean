import ScriptHost.Proofs.Agenda
import ScriptHost.Proofs.Host.Scenes

/-!
# Scenes in order

A scene is in order when nothing in it refers to what is not there yet: work is for operations
and places for output that exist, nobody waits in a mailbox that is not open, and nobody shares
a mailbox or a place that somebody has in hand. Every scene stays so.
-/

namespace ScriptHost

/-- Work is for an operation and a place for output that are there. -/
structure Work.FitsIn
    (board : Board)
    (outputs : Array (Option String))
    (work : Work) : Prop where
  holds : board.Holds work.operation
  cell_lt : ∀ cell, work.cell? = some cell → cell < outputs.size

/-- A scene in order, given the mailboxes and the places for output in hand. -/
structure Orderly
    (hand : Multiset Possession)
    (scene : Scene) : Prop where
  nodup : hand.Nodup
  isOpen : ∀ mailbox, .mailbox mailbox ∈ hand → scene.board.IsOpen mailbox
  cell_lt : ∀ cell, .cell cell ∈ hand → cell < scene.outputs.size
  unheard : ∀ mailbox id, ¬scene.board.IsOpen mailbox → scene.board.waitingSlots mailbox id = []
  works : ∀ work ∈ scene.agenda.works, work.FitsIn scene.board scene.outputs
  ended : ∀ process ∈ scene.ended, scene.board.Holds process.operation

namespace Orderly

variable {hand laterHand : Multiset Possession} {scene later : Scene}

/-- Whoever has less in hand refers to less. -/
private theorem ofLess
    (orderly : Orderly hand scene)
    (fewer : laterHand ≤ hand) :
    Orderly laterHand scene :=
  { orderly with
    nodup := Multiset.nodup_of_le fewer orderly.nodup
    isOpen := fun mailbox member => orderly.isOpen mailbox (Multiset.mem_of_le fewer member)
    cell_lt := fun cell member => orderly.cell_lt cell (Multiset.mem_of_le fewer member) }

/-- Places for output of which none goes away. -/
private theorem ofOutputs
    {outputs : Array (Option String)}
    (orderly : Orderly hand scene)
    (areThere : scene.outputs.size ≤ outputs.size) :
    Orderly hand { scene with outputs := outputs } :=
  { orderly with
    cell_lt := fun cell member => (orderly.cell_lt cell member).trans_le areThere
    works := fun work member => ⟨(orderly.works work member).holds, fun cell leaves =>
      ((orderly.works work member).cell_lt cell leaves).trans_le areThere⟩ }

/-- A board on which nothing goes away or is waited for without a mailbox. -/
private theorem ofBoard
    {board : Board}
    (orderly : Orderly hand scene)
    (opens : ∀ mailbox, scene.board.IsOpen mailbox → board.IsOpen mailbox)
    (unheard : ∀ mailbox id, ¬board.IsOpen mailbox → board.waitingSlots mailbox id = [])
    (holds : ∀ id, scene.board.Holds id → board.Holds id) :
    Orderly hand { scene with board := board } where
  nodup := orderly.nodup
  isOpen mailbox member := opens mailbox (orderly.isOpen mailbox member)
  cell_lt := orderly.cell_lt
  unheard := unheard
  works work member :=
    ⟨holds _ (orderly.works work member).holds, (orderly.works work member).cell_lt⟩
  ended process member := holds _ (orderly.ended process member)

/-- Work that is begun is for an operation that has just been made. -/
private theorem begins
    {work : Work}
    (orderly : Orderly hand scene)
    (time : Nat)
    (isNew : work.operation = scene.board.operations.size)
    (inHand : ∀ cell, work.cell? = some cell → .cell cell ∈ hand) :
    Orderly hand
      { scene with board := scene.board.create.1, agenda := scene.agenda.add time work } := by
  have created : Orderly hand { scene with board := scene.board.create.1 } := by
    refine orderly.ofBoard (fun _ => id) ?_ ?_
    · intro mailbox id notOpen
      rw [Board.waitingSlots_create]
      exact orderly.unheard mailbox id notOpen
    · intro id held
      rw [Board.Holds, Board.size_create]
      exact Nat.lt_succ_of_lt held
  refine { created with works := fun other member => ?_ }
  rcases List.mem_cons.mp ((Agenda.works_add_perm ..).mem_iff.mp member) with rfl | wasThere
  · refine ⟨?_, fun cell leaves => orderly.cell_lt cell (inHand cell leaves)⟩
    rw [Board.Holds, Board.size_create, isNew]
    exact Nat.lt_succ_self _
  · exact created.works other wasThere

/-- Work that is done is taken off the agenda. -/
private theorem settle
    {work : Work}
    {agenda : Agenda Work}
    (orderly : Orderly hand scene)
    (isNext : scene.agenda.next? = some (work, agenda))
    (outcome : Outcome) :
    Orderly hand
      { scene with board := scene.board.settle work.operation outcome, agenda := agenda } := by
  have settled :
      Orderly hand { scene with board := scene.board.settle work.operation outcome } := by
    refine orderly.ofBoard (fun mailbox => (Board.isOpen_settle ..).mpr) ?_ ?_
    · intro mailbox id notOpen
      rw [Board.isOpen_settle] at notOpen
      rw [Board.waitingSlots_settle, orderly.unheard mailbox id notOpen, ite_self]
    · intro id held
      rw [Board.Holds, Board.size_settle]
      exact held
  refine { settled with works := fun other member => settled.works other ?_ }
  exact (Agenda.works_of_next? isNext).symm ▸ List.mem_cons_of_mem work member

/-- A process that has ended has left its output where there was a place for it. -/
private theorem afterProcess
    {process : EndedProcess}
    {directory : Location}
    {cell? : Option OutputCell}
    {agenda : Agenda Work}
    (orderly : Orderly hand scene)
    (isNext : scene.agenda.next? =
      some (.process process.operation process.spec directory cell?, agenda)) :
    Orderly hand (scene.afterProcess agenda process cell?) := by
  have sameSize : (leave scene.outputs cell? process.output?).size = scene.outputs.size := by
    unfold leave
    split
    · exact Array.size_set! ..
    · rfl
  have isWork : .process process.operation process.spec directory cell? ∈ scene.agenda.works :=
    Agenda.works_of_next? isNext ▸ List.mem_cons_self
  have held : scene.board.Holds process.operation := (orderly.works _ isWork).holds
  have settled := orderly.settle isNext (Host.processOutcome process.result)
  refine { settled.ofOutputs sameSize.ge with ended := fun other member => ?_ }
  rw [Scene.afterProcess, Board.Holds, Board.size_settle]
  rcases List.mem_append.mp member with wasThere | isLast
  · exact orderly.ended other wasThere
  · rw [List.mem_singleton.mp isLast]
    exact held

private theorem makeCell (orderly : Orderly hand scene) :
    Orderly (.cell scene.outputs.size ::ₘ hand)
      { scene with outputs := scene.outputs.push none } := by
  have oneMore : (scene.outputs.push none).size = scene.outputs.size + 1 := Array.size_push ..
  have grown := orderly.ofOutputs ((Nat.le_succ _).trans_eq oneMore.symm)
  refine
    { grown with
      nodup := Multiset.nodup_cons.mpr
        ⟨fun member => Nat.lt_irrefl _ (orderly.cell_lt _ member), orderly.nodup⟩
      isOpen := fun mailbox member =>
        orderly.isOpen mailbox ((Multiset.mem_cons.mp member).resolve_left (by rintro ⟨⟩))
      cell_lt := fun cell member => ?_ }
  rcases Multiset.mem_cons.mp member with same | wasThere
  · cases same
    exact (Nat.lt_succ_self _).trans_eq oneMore.symm
  · exact grown.cell_lt cell wasThere

private theorem openMailbox (orderly : Orderly hand scene) :
    Orderly (.mailbox scene.board.mailboxes.size ::ₘ hand)
      { scene with board := scene.board.openMailbox.1 } := by
  have opened : Orderly hand { scene with board := scene.board.openMailbox.1 } := by
    refine orderly.ofBoard (fun mailbox isOpen =>
      (Board.isOpen_openMailbox ..).mpr (.inl isOpen)) ?_ fun _ => id
    intro mailbox id notOpen
    rw [Board.isOpen_openMailbox, not_or] at notOpen
    exact orderly.unheard mailbox id notOpen.1
  refine
    { opened with
      nodup := Multiset.nodup_cons.mpr
        ⟨fun member => Nat.lt_irrefl _ (orderly.isOpen _ member), orderly.nodup⟩
      isOpen := fun mailbox member => ?_
      cell_lt := fun cell member =>
        opened.cell_lt cell ((Multiset.mem_cons.mp member).resolve_left (by rintro ⟨⟩)) }
  rcases Multiset.mem_cons.mp member with same | wasThere
  · cases same
    exact (Board.isOpen_openMailbox ..).mpr (.inr rfl)
  · exact opened.isOpen mailbox wasThere

/-- Whoever waits has the mailbox in hand, so it is open. -/
private theorem listen
    {listener : Listener}
    (orderly : Orderly hand scene)
    (operation : OperationId)
    (inHand : .mailbox listener.mailbox ∈ hand) :
    Orderly hand { scene with board := scene.board.listen operation listener } := by
  refine orderly.ofBoard (fun mailbox => (Board.isOpen_listen ..).mpr) ?_ ?_
  · intro mailbox id notOpen
    rw [Board.isOpen_listen] at notOpen
    have isOther : listener.mailbox ≠ mailbox := by
      rintro rfl
      exact notOpen (orderly.isOpen _ inHand)
    rw [Board.waitingSlots_listen, orderly.unheard mailbox id notOpen,
      if_neg fun both => isOther both.2]
    rfl
  · intro id held
    rw [Board.Holds, Board.size_listen]
    exact held

private theorem setSignals
    (orderly : Orderly hand scene)
    (mailbox : MailboxId)
    (signals : List Nat) :
    Orderly hand { scene with board := scene.board.setSignals mailbox signals } := by
  refine orderly.ofBoard (fun other => (Board.isOpen_setSignals ..).mpr) ?_ fun _ => id
  intro other id notOpen
  rw [Board.isOpen_setSignals] at notOpen
  exact orderly.unheard other id notOpen

/-- Whatever happens to a scene keeps it in order. -/
theorem shift
    (orderly : Orderly hand scene)
    (shift : Shift hand scene laterHand later) :
    Orderly laterHand later := by
  cases shift with
  | rests fewer => exact orderly.ofLess fewer
  | begins time work isNew inHand => exact orderly.begins time isNew inHand
  | ends isNext hasRun => exact orderly.afterProcess isNext
  | settles outcome isNext isOther => exact orderly.settle isNext outcome
  | advances time => exact { orderly with works := orderly.works }
  | makesCell => exact orderly.makeCell
  | takesOutput cell =>
      exact (orderly.ofOutputs (Array.size_set! ..).ge).ofLess (Multiset.le_cons_self ..)
  | opensMailbox => exact orderly.openMailbox
  | listens operation listener inHand => exact orderly.listen operation inHand
  | setsSignals mailbox signals inHand => exact orderly.setSignals mailbox signals

end Orderly

/-- Whatever is done to a host, its scene stays in order. -/
theorem stable_orderly : Stable fun hand host => Orderly (rooms hand) host.scene :=
  stable_of_shift fun _ _ _ _ shift orderly => orderly.shift shift

theorem Reached.orderly
    {hand : Multiset Possession}
    {host : Host}
    (reached : Reached hand host) :
    Orderly (rooms hand) host.scene := by
  refine reached.holds stable_orderly fun host isStart => ?_
  have sameScene : host.scene = ⟨host.machine, .empty, .empty, [], #[]⟩ :=
    congrArg (fun affairs : Affairs =>
      (⟨affairs.machine, affairs.board, affairs.agenda, affairs.ended, affairs.outputs⟩ :
        Scene)) isStart
  rw [sameScene]
  exact
    { nodup := Multiset.nodup_zero
      isOpen := nofun
      cell_lt := nofun
      unheard := fun _ _ _ => rfl
      works := nofun
      ended := nofun }

end ScriptHost
