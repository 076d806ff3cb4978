import ScriptHost.Scheduler.Rehearsal
import ScriptHost.Proofs.Registry
import ScriptHost.Proofs.Scheduler.Rounds

/-!
# Rehearsals are chronicled

A rehearsal is a host: whatever its plan says, it settles operations and uses its registry
and does nothing else, and the dispatches in its log are the completions of its chronicle.
So what is known of every run is known of every rehearsal.
-/

namespace ScriptHost
namespace Scheduler
namespace Rehearsal

/-- The sequence and the result of a dispatch in the log. -/
def LogEntry.dispatch? : LogEntry → Option (Nat × Delivery)
  | dispatched sequence _ result _ _ => some (sequence, result)
  | _ => none

/-- The dispatches in a log, in order. -/
def dispatches (log : Array LogEntry) : List (Nat × Delivery) :=
  log.toList.filterMap LogEntry.dispatch?

/-- What a completion leaves in a log. -/
def logged (completion : Completion HandleKey) : Nat × Delivery :=
  (completion.sequence, completion.result)

/-- Every item of a plan takes in an operation of the plan. -/
def Plan.IsSound (plan : Plan) : Prop :=
  ∀ item ∈ plan.items, item.operation < plan.outcomes.size

instance (plan : Plan) : Decidable plan.IsSound :=
  inferInstanceAs (Decidable (∀ item ∈ plan.items, item.operation < plan.outcomes.size))

/-- Only numbers of items are parked. -/
def Parks
    (plan : Plan)
    (registry : Registry Int64) : Prop :=
  ∀ entry ∈ registry.entries, entry.2.toInt.toNat < plan.items.size

instance (plan : Plan) (registry : Registry Int64) : Decidable (Parks plan registry) :=
  inferInstanceAs
    (Decidable (∀ entry ∈ registry.entries, entry.2.toInt.toNat < plan.items.size))

/-- A stage of a rehearsal shows its board and its registry, and has a dispatch in its log
for every completion that was handed out. -/
structure Shows
    (plan : Plan)
    (stage : Stage)
    (world : World Int64 HandleKey String) : Prop where
  board : stage.board = world.board
  registry : stage.registry = world.registry
  size : stage.board.operations.size = plan.outcomes.size
  isCalm : ∀ id, stage.board.due id = []
  parks : Parks plan stage.registry
  log : dispatches stage.log = (completions world.history).map logged

/-- One stage follows from another by moves that spare all mailboxes, with some dispatches
logged. -/
structure Follows
    (plan : Plan)
    (list : List (Move Int64))
    (entries : List (Nat × Delivery))
    (before after : Stage) : Prop where
  board : after.board = list.foldl Move.onBoard before.board
  registry : after.registry = list.foldl Move.onRegistry before.registry
  size : after.board.operations.size = before.board.operations.size
  due : after.board.due = before.board.due
  parks : Parks plan before.registry → Parks plan after.registry
  log : dispatches after.log = dispatches before.log ++ entries
  spares : ∀ mailbox, ∀ move ∈ list, move.Spares mailbox

/-- Every listener of a settled operation has been called. -/
def Stage.IsCalm (stage : Stage) : Prop :=
  ∀ id, stage.board.due id = []

/-- A computation does no more than to make such moves and to log some dispatches. -/
def Does
    (plan : Plan)
    {β : Type}
    (computation : StageM β)
    (entries : List (Nat × Delivery)) : Prop :=
  ∀ stage, stage.IsCalm → ∃ list, Follows plan list entries stage (computation.run stage).2

variable {plan : Plan}

namespace Follows

variable {list : List (Move Int64)} {entries : List (Nat × Delivery)} {before after : Stage}

/-- What does nothing follows every plan. -/
theorem refl (stage : Stage) : Follows plan [] [] stage stage where
  board := rfl
  registry := rfl
  size := rfl
  due := rfl
  parks := id
  log := (List.append_nil _).symm
  spares _ _ member := nomatch member

/-- What follows a plan does so one after the other. -/
theorem trans
    {middle : Stage}
    {more : List (Move Int64)}
    {moreEntries : List (Nat × Delivery)}
    (first : Follows plan list entries before middle)
    (second : Follows plan more moreEntries middle after) :
    Follows plan (list ++ more) (entries ++ moreEntries) before after where
  board := by rw [List.foldl_append, ← first.board, second.board]
  registry := by rw [List.foldl_append, ← first.registry, second.registry]
  size := second.size.trans first.size
  due := second.due.trans first.due
  parks := second.parks ∘ first.parks
  log := by rw [second.log, first.log, List.append_assoc]
  spares mailbox := List.forall_mem_append.mpr ⟨first.spares mailbox, second.spares mailbox⟩

/-- A move on the registry alone. -/
theorem registryMove
    {stage : Stage}
    (move : Move Int64)
    (keepsBoard : move.onBoard stage.board = stage.board)
    (parks : Parks plan stage.registry → Parks plan (move.onRegistry stage.registry))
    (spares : ∀ mailbox, move.Spares mailbox) :
    Follows plan [move] [] stage { stage with registry := move.onRegistry stage.registry } where
  board := keepsBoard.symm
  registry := rfl
  size := rfl
  due := rfl
  parks := parks
  log := (List.append_nil _).symm
  spares mailbox := List.forall_mem_singleton.mpr (spares mailbox)

/-- Releasing a callback follows every plan. -/
theorem release
    (plan : Plan)
    (key : HandleKey)
    (stage : Stage) :
    Follows plan [.release key] [] stage ((discard key).run stage).2 :=
  registryMove (.release key) rfl
    (fun parks entry member => parks entry (List.mem_filter.mp member).1) fun _ => trivial

end Follows

/-- Releasing a key that is not live can be left out. -/
theorem Follows.releaseDead
    {key : HandleKey}
    {stage : Stage}
    (notLive : stage.registry.contains key = false) :
    Follows plan [.release key] [] stage stage where
  board := rfl
  registry := (Registry.release_of_not_contains notLive).symm
  size := rfl
  due := rfl
  parks := id
  log := (List.append_nil _).symm
  spares _ := List.forall_mem_singleton.mpr trivial

namespace Does

variable {β γ : Type}

/-- Computations that do their parts of a plan do so one after the other. -/
theorem bind
    {first : StageM β}
    {next : β → StageM γ}
    {entries more : List (Nat × Delivery)}
    (doesFirst : Does plan first entries)
    (doesNext : ∀ value, Does plan (next value) more) :
    Does plan (first >>= next) (entries ++ more) := by
  intro stage isCalm
  obtain ⟨list, follows⟩ := doesFirst stage isCalm
  obtain ⟨rest, restFollows⟩ :=
    doesNext (first.run stage).1 (first.run stage).2 fun id => follows.due ▸ isCalm id
  exact ⟨list ++ rest, follows.trans restFollows⟩

theorem pure (value : β) : Does plan (Pure.pure value : StageM β) [] :=
  fun stage _ => ⟨[], .refl stage⟩

theorem get : Does plan (MonadState.get : StageM Stage) [] :=
  fun stage _ => ⟨[], .refl stage⟩

/-- A note dispatches what its entry says. -/
theorem note
    (plan : Plan)
    (entry : LogEntry) :
    Does plan (Rehearsal.note entry) entry.dispatch?.toList := by
  refine fun stage _ => ⟨[], rfl, rfl, rfl, rfl, id, ?_, fun _ _ member => nomatch member⟩
  change dispatches (stage.log.push entry) = _
  rw [dispatches, Array.toList_push, List.filterMap_append]
  cases entry <;> rfl

/-- A settlement dispatches nothing. -/
theorem settle
    (plan : Plan)
    (entry : OperationId → LogEntry)
    (isSilent : ∀ operation, (entry operation).dispatch? = none)
    (operation : OperationId) :
    Does plan (Rehearsal.settle plan entry operation) [] := by
  apply get.bind
  intro stage
  split
  · rename_i outcome _ _
    have notes := note plan (entry operation)
    rw [isSilent] at notes
    have settles : Does plan (modify fun stage : Stage =>
        { stage with board := stage.board.settle operation outcome }) [] :=
      fun stage isCalm =>
        ⟨Move.settling stage.board operation outcome,
          (Move.foldl_settling (isCalm operation) outcome).symm, (Move.registry_settling ..).symm,
          Board.size_settle .., Board.due_settle .., id, (List.append_nil _).symm,
          Move.spares_settling stage.board operation outcome⟩
    exact notes.bind fun _ => settles.bind fun _ => pure true
  · exact pure false

theorem settleAll
    (plan : Plan)
    (entry : OperationId → LogEntry)
    (isSilent : ∀ operation, (entry operation).dispatch? = none)
    (operations : List OperationId) :
    Does plan (Rehearsal.settleAll plan entry operations) [] := by
  induction operations with
  | nil => exact pure ()
  | cons operation operations inductionHypothesis =>
      exact ((settle plan entry isSilent operation).bind fun _ => pure ()).bind
        fun _ => inductionHypothesis

/-- Settling the first of some operations dispatches nothing. -/
theorem settleFirst
    (plan : Plan)
    (operations : List OperationId) :
    Does plan (Rehearsal.settleFirst plan operations) [] := by
  induction operations with
  | nil => exact pure none
  | cons operation operations inductionHypothesis =>
      apply (settle plan .unblocked (fun _ => rfl) operation).bind
      intro wasPending
      cases wasPending with
      | true => exact pure _
      | false => exact inductionHypothesis

/-- Waiting dispatches nothing. -/
theorem await (plan : Plan) : Does plan (Rehearsal.await plan) [] := by
  apply get.bind
  intro stage
  apply (settleFirst plan stage.upcoming).bind
  intro rest?
  cases rest? with
  | none => exact pure false
  | some rest =>
      exact fun _ _ => ⟨[], rfl, rfl, rfl, rfl, id, (List.append_nil _).symm,
        fun _ _ member => nomatch member⟩

theorem discard (key : HandleKey) : Does plan (Rehearsal.discard key) [] :=
  fun stage _ => ⟨_, .release plan key stage⟩

/-- What is done with a handle dispatches nothing. -/
theorem useHandle
    (use : HandleUse)
    (key : HandleKey) :
    Does plan (Rehearsal.useHandle use key) [] := by
  apply get.bind
  intro stage
  cases use with
  | get => exact pure _
  | take => exact (discard key).bind fun _ => pure _
  | invoke => exact (discard key).bind fun _ => pure _
  | release => exact (discard key).bind fun _ => pure _

/-- A callback that follows its plan logs its own completion and no other. -/
theorem followPlan
    (plan : Plan)
    (completion : Completion HandleKey)
    (number? : Option Int64)
    (callback : CallbackPlan) :
    Does plan (Rehearsal.followPlan completion number? callback) [logged completion] := by
  have reports : Does plan (do
      let used ← Rehearsal.useHandle callback.use completion.callback
      let live := (← MonadState.get).registry.size
      Rehearsal.note (.dispatched completion.sequence number? completion.result used live))
      [logged completion] :=
    (useHandle callback.use completion.callback).bind fun used => get.bind fun stage =>
      note plan (.dispatched completion.sequence number? completion.result used
        stage.registry.size)
  have clears : Does plan (modify fun stage : Stage =>
      { stage with registry := stage.registry.releaseAll.2 }) [] :=
    fun _ _ => ⟨[.releaseAll], .registryMove .releaseAll rfl
      (fun _ _ member => nomatch member) fun _ => trivial⟩
  unfold Rehearsal.followPlan
  by_cases releases : callback.releasesAll
  · simp only [releases, if_true]
    exact clears.bind fun _ => reports
  · simp only [releases, if_false, Bool.false_eq_true]
    exact reports

end Does

/-- What a dispatch does when the number of the callback is known. -/
private theorem run_dispatch
    (completion : Completion HandleKey)
    (stage : Stage) :
    (dispatch plan completion).run stage =
      StateT.run (match plan.callback? (stage.registry.get? completion.callback) with
      | none => do
          note (.dispatched completion.sequence (stage.registry.get? completion.callback)
            completion.result none (← get).registry.size)
          pure (.ok ())
      | some callback => do
          followPlan completion (stage.registry.get? completion.callback) callback
          settleAll plan .settled callback.settles
          discard completion.callback
          match callback.failure? with
          | some reason => pure (.error reason)
          | none => pure (.ok ()) : StageM (Except String Unit)) stage := rfl

/-- A callback whose number is parked has a plan. -/
theorem isSome_callback?
    {registry : Registry Int64}
    {key : HandleKey}
    (parks : Parks plan registry)
    (isLive : registry.contains key = true) :
    (plan.callback? (registry.get? key)).isSome := by
  obtain ⟨number, found⟩ := Option.isSome_iff_exists.mp isLive
  obtain ⟨before, after, split, -⟩ := List.lookup_eq_some_iff.mp found
  have inRange := parks (key, number) (split ▸ List.mem_append_right _ List.mem_cons_self)
  rw [found, Plan.callback?, Option.bind_some, Array.getElem?_eq_getElem inRange]
  rfl

/-- A dispatch is logged once, and the handle of its callback is given up. -/
theorem follows_dispatch
    (completion : Completion HandleKey)
    {stage : Stage}
    (isCalm : stage.IsCalm)
    (parks : Parks plan stage.registry) :
    ∃ list,
      Follows plan list [logged completion] stage ((dispatch plan completion).run stage).2 ∧
      .release completion.callback ∈ list := by
  rw [run_dispatch]
  cases found : plan.callback? (stage.registry.get? completion.callback) with
  | none =>
      have notLive : stage.registry.contains completion.callback = false := by
        by_contra isLive
        have hasPlan := isSome_callback? parks ((Bool.not_eq_false _).mp isLive)
        rw [found] at hasPlan
        cases hasPlan
      have reports : Does plan (do
          note (.dispatched completion.sequence (stage.registry.get? completion.callback)
            completion.result none (← MonadState.get).registry.size)
          pure (.ok ()) : StageM (Except String Unit)) [logged completion] :=
        Does.get.bind fun _ => (Does.note plan _).bind fun _ => Does.pure _
      obtain ⟨list, follows⟩ := reports stage isCalm
      exact ⟨.release completion.callback :: list,
        (Follows.releaseDead notLive).trans follows, List.mem_cons_self⟩
  | some callback =>
      have uses := (Does.followPlan plan completion
        (stage.registry.get? completion.callback) callback).bind fun _ =>
          Does.settleAll plan .settled (fun _ => rfl) callback.settles
      obtain ⟨list, follows⟩ := uses stage isCalm
      refine ⟨list ++ [.release completion.callback], ?_,
        List.mem_append_right _ List.mem_cons_self⟩
      have givesUp := follows.trans (.release plan completion.callback _)
      dsimp only
      cases callback.failure? with
      | none => exact givesUp
      | some reason => exact givesUp

/-! ## The laws of a host -/

namespace Shows

variable {list : List (Move Int64)} {entries : List (Nat × Delivery)} {before after : Stage}
variable {world : World Int64 HandleKey String}

/-- What follows from a stage shows what an onlooker writes down. -/
theorem follows
    {events : List (Event Int64 HandleKey String)}
    (isShown : Shows plan before world)
    (follows : Follows plan list entries before after)
    (sameBoard : boardAfter world.board events = list.foldl Move.onBoard world.board)
    (sameRegistry : registryAfter world.registry events =
      list.foldl Move.onRegistry world.registry)
    (sameEntries : (completions events).map logged = entries) :
    Shows plan after (world.noteAll events) where
  board := by rw [World.board_noteAll, sameBoard, ← isShown.board, follows.board]
  registry := by rw [World.registry_noteAll, sameRegistry, ← isShown.registry, follows.registry]
  size := follows.size.trans isShown.size
  isCalm id := follows.due ▸ isShown.isCalm id
  parks := follows.parks isShown.parks
  log := by
    rw [World.history_noteAll, completions_append, List.map_append, sameEntries, ← isShown.log,
      follows.log]

end Shows

/-- The board changes by the moves only. -/
private theorem boardAfter_moves
    (board : Board)
    (list : List (Move Int64)) :
    boardAfter board (moves list : List (Event Int64 HandleKey String)) =
      list.foldl Move.onBoard board :=
  List.foldl_map ..

/-- The callables change by the moves only. -/
private theorem registryAfter_moves
    (registry : Registry Int64)
    (list : List (Move Int64)) :
    registryAfter registry (moves list : List (Event Int64 HandleKey String)) =
      list.foldl Move.onRegistry registry :=
  List.foldl_map ..

/-- A rehearsal obeys the laws of a host. A callback is the handle of the number of an
item. -/
theorem chronicle
    (plan : Plan)
    (mailbox : MailboxId) :
    Chronicle (environment plan) (Shows plan) mailbox some where
  board := by
    intro before value after world returned isShown
    cases returned
    exact ⟨isShown.board, isShown⟩
  setBoard := by
    intro board before value after world returned isShown resembles
    cases returned
    refine ⟨rfl, isShown.registry, ?_, fun id => ?_, isShown.parks, isShown.log⟩
    · rw [← isShown.size, isShown.board]
      exact resembles.size
    · rw [← isShown.isCalm id, isShown.board, ← resembles.due]
  await := by
    intro before value after world returned isShown
    obtain ⟨list, follows⟩ := Does.await plan before isShown.isCalm
    rw [show (await plan).run before = (value, after) from returned] at follows
    exact ⟨list, follows.spares mailbox, isShown.follows follows (boardAfter_moves ..)
      (registryAfter_moves ..) (by rw [Stretch.completions_waited]; rfl)⟩
  dispatch := by
    intro completion before result after world returned isShown
    obtain ⟨list, follows, isReleased⟩ := follows_dispatch completion isShown.isCalm isShown.parks
    rw [show (dispatch plan completion).run before = (result, after) from returned] at follows
    refine ⟨list, follows.spares mailbox, ?_, isShown.follows follows ?_ ?_ ?_⟩
    · intro key isHeld
      cases isHeld
      exact isReleased
    · rw [Stretch.boardAfter_dispatched, boardAfter_moves]
    · rw [Stretch.registryAfter_dispatched, registryAfter_moves]
    · rw [Stretch.completions_dispatched]
      rfl
  discard := by
    intro key before value after world returned isShown
    have follows := Follows.release plan key before
    rw [show (discard key).run before = (value, after) from returned] at follows
    refine ⟨[.release key], follows.spares mailbox, ?_, isShown.follows follows
      (boardAfter_moves ..) (registryAfter_moves ..) (by rw [Stretch.completions_discarded]; rfl)⟩
    intro other isHeld
    cases isHeld
    exact List.mem_cons_self

/-! ## The laws of a source -/

/-- An answer does nothing to the host and hands nothing out. -/
private def IsMute (event : Event Int64 HandleKey String) : Prop :=
  (∀ board, event.onBoard board = board) ∧ (∀ registry, event.onRegistry registry = registry) ∧
    event.completion? = none

/-- A rehearsal that makes moves and then answers, if at all with an operation of its
plan. -/
private theorem answers_of_follows
    {β : Type}
    {ask : StageM β}
    {answer : β → Event Int64 HandleKey String}
    (mailbox : MailboxId)
    (isMute : ∀ value, IsMute (answer value))
    (follows : Does plan ask [])
    (isPlanned : ∀ stage admission, answer (ask.run stage).1 = .admitted admission →
      admission.operation < plan.outcomes.size) :
    Answers (Shows plan) mailbox ask answer := by
  intro before value after world returned isShown
  obtain ⟨list, follows⟩ := follows before isShown.isCalm
  have planned := isPlanned before
  rw [show ask.run before = (value, after) from returned] at follows planned
  obtain ⟨keepsBoard, keepsRegistry, noCompletion⟩ := isMute value
  have stillShown : Shows plan after
      (world.noteAll (Stretch.answered list (answer value))) :=
    isShown.follows follows
      (by rw [Stretch.boardAfter_answered, keepsBoard, boardAfter_moves])
      (by rw [Stretch.registryAfter_answered, keepsRegistry, registryAfter_moves])
      (by rw [Stretch.completions_answered, noCompletion]; rfl)
  refine ⟨list, follows.spares mailbox, stillShown, ?_⟩
  intro admission isAdmission
  rw [Board.Holds, ← stillShown.board, stillShown.size]
  exact planned admission isAdmission

private theorem toNat_ofNat_le (number : Nat) : (Int64.ofNat number).toInt.toNat ≤ number := by
  rw [Int64.toInt_ofNat', Int.bmod_eq_emod, show Int64.size = 18446744073709551616 from rfl]
  split <;> omega

/-- Parking an item dispatches nothing. -/
theorem Does.park
    {item : Nat}
    (inRange : item < plan.items.size) :
    Does plan (Rehearsal.park item) [] := by
  refine fun stage _ => ⟨[.register (Int64.ofNat item)], .registryMove _ rfl ?_ fun _ => trivial⟩
  intro parks entry member
  rcases List.mem_append.mp member with kept | isNew
  · exact parks entry (List.mem_filter.mp kept).1
  · rw [List.mem_singleton.mp isNew]
    exact Nat.lt_of_le_of_lt (toNat_ofNat_le item) inRange

/-- What is produced is an item of the plan, or nothing. -/
theorem follows_produce (stage : Stage) :
    (stage.IsCalm → ∃ list, Follows plan list [] stage ((produce plan).run stage).2) ∧
      ∀ admission, ((produce plan).run stage).1 = .item admission →
        ∃ item ∈ plan.items, admission.operation = item.operation := by
  unfold produce
  simp only [StateT.run_bind, StateT.run_get, pure_bind]
  cases found : plan.items[stage.nextItem]? with
  | some item =>
      obtain ⟨inRange, rfl⟩ := Array.getElem?_eq_some_iff.mp found
      have starts : Follows plan [] [] stage { stage with nextItem := stage.nextItem + 1 } :=
        ⟨rfl, rfl, rfl, rfl, id, (List.append_nil _).symm, fun _ _ member => nomatch member⟩
      have proceeds := (Does.note plan (.pulled stage.nextItem)).bind fun _ =>
        (Does.settleAll plan .settled (fun _ => rfl) plan.items[stage.nextItem].settles).bind
          fun _ => Does.park inRange
      refine ⟨fun isCalm => ?_, ?_⟩
      · obtain ⟨list, follows⟩ := proceeds { stage with nextItem := stage.nextItem + 1 } isCalm
        exact ⟨list, starts.trans follows⟩
      intro admission same
      cases same
      exact ⟨_, Array.getElem_mem inRange, rfl⟩
  | none =>
      cases plan.producerFailure? with
      | some reason =>
          refine ⟨?_, fun _ absurdity => nomatch absurdity⟩
          exact (Does.note plan .producerFailed).bind (fun _ => Does.pure ()) stage
      | none =>
          refine ⟨?_, fun _ absurdity => nomatch absurdity⟩
          exact (Does.note plan .producerEnded).bind (fun _ => Does.pure ()) stage

/-- The producer of a sound plan obeys the laws of a source. -/
theorem chronicled_producer
    (isSound : plan.IsSound)
    (mailbox : MailboxId) :
    (Source.producer (produce plan)).Chronicled (Shows plan) mailbox := by
  refine answers_of_follows mailbox (fun production => ?_)
    (fun stage => (follows_produce stage).1) (fun stage admission isAdmission => ?_)
  · cases production <;> exact ⟨fun _ => rfl, fun _ => rfl, rfl⟩
  · have isItem : ((produce plan).run stage).1 = .item admission := by
      revert isAdmission
      cases ((produce plan).run stage).1 with
      | item other =>
          intro same
          cases same
          rfl
      | finished => exact fun absurdity => nomatch absurdity
      | failed error => exact fun absurdity => nomatch absurdity
    obtain ⟨item, member, same⟩ := (follows_produce stage).2 admission isItem
    rw [same]
    exact isSound item member

/-- The jobs of items of a sound plan obey the laws of a source. -/
theorem chronicled_jobs
    (isSound : plan.IsSound)
    (mailbox : MailboxId)
    {list : List (Job StageM HandleKey)}
    (isPlanned : ∀ job ∈ list, ∃ index, ∃ item ∈ plan.items, ∃ key,
      job = jobOf plan index item key) :
    (Source.jobs list : Source StageM HandleKey String).Chronicled (Shows plan) mailbox := by
  intro job member
  obtain ⟨index, item, isItem, key, rfl⟩ := isPlanned job member
  have launches : Does plan (jobOf plan index item key).launch [] :=
    (Does.note plan (.launched index)).bind fun _ =>
      (Does.settleAll plan .settled (fun _ => rfl) item.settles).bind fun _ =>
        Does.pure item.operation
  refine answers_of_follows mailbox (fun _ => ⟨fun _ => rfl, fun _ => rfl, rfl⟩) launches ?_
  intro stage admission isAdmission
  cases isAdmission
  exact isSound item isItem

/-! ## The first stage -/

/-- The operations of a plan, none of them settled. -/
def operationsOf (plan : Plan) : Board :=
  (List.range plan.outcomes.size).foldl (fun board _ => board.create.1) .empty

/-- The stage on which a plan is played, with callbacks that are parked beforehand. -/
def stageOf
    (plan : Plan)
    (registry : Registry Int64) : Stage where
  board := operationsOf plan
  registry := registry
  upcoming := plan.order ++ List.range plan.outcomes.size
  nextItem := 0
  log := #[]

/-- What is shown before a plan is played. -/
def worldOf
    (plan : Plan)
    (registry : Registry Int64) : World Int64 HandleKey String :=
  ⟨operationsOf plan, registry, []⟩

/-- Each operation that is created is one more. -/
private theorem size_foldl_create
    (list : List Nat)
    (board : Board) :
    (list.foldl (fun board _ => board.create.1) board).operations.size =
      board.operations.size + list.length := by
  induction list generalizing board with
  | nil => rfl
  | cons first list inductionHypothesis =>
      rw [List.foldl_cons, inductionHypothesis, Board.size_create, List.length_cons,
        Nat.add_right_comm, Nat.add_assoc]

/-- Nobody is due at operations that were just created. -/
private theorem due_foldl_create
    (list : List Nat)
    (board : Board) :
    (list.foldl (fun board _ => board.create.1) board).due = board.due := by
  induction list generalizing board with
  | nil => rfl
  | cons first list inductionHypothesis =>
      rw [List.foldl_cons, inductionHypothesis]
      rfl

/-- Nobody waits for operations that were just created. -/
private theorem waitingSlots_foldl_create
    (list : List Nat)
    (board : Board)
    (mailbox : MailboxId)
    (id : OperationId) :
    (list.foldl (fun board _ => board.create.1) board).waitingSlots mailbox id =
      board.waitingSlots mailbox id := by
  induction list generalizing board with
  | nil => rfl
  | cons first list inductionHypothesis =>
      rw [List.foldl_cons, inductionHypothesis, Board.waitingSlots_create]

/-- A rehearsal begins in the world of its plan. -/
theorem shows_stageOf
    {registry : Registry Int64}
    (parks : Parks plan registry) :
    Shows plan (stageOf plan registry) (worldOf plan registry) where
  board := rfl
  registry := rfl
  size := by
    refine (size_foldl_create ..).trans ?_
    rw [List.length_range]
    exact Nat.zero_add _
  isCalm id := congrFun (due_foldl_create ..) id
  parks := parks
  log := rfl

/-- No listener waits or is due before a plan is played. -/
theorem unfired_operationsOf
    (plan : Plan)
    (mailbox : MailboxId)
    (id : OperationId) :
    (operationsOf plan).unfired mailbox id = [] := by
  rw [Board.unfired, Board.dueSlots, operationsOf, waitingSlots_foldl_create, due_foldl_create]
  rfl

end Rehearsal
end Scheduler
end ScriptHost
