import ScriptHost.Proofs.Scheduler.Rehearsal
import ScriptHost.Proofs.Scheduler.Waiting

/-!
# Hosts that do their part

A run cannot end by itself: its host has to return from each call and to settle what the run
waits for. It need not do so in any order, and it is enough that something settles whenever
the run can do nothing else than wait. Rehearsals do their part, whatever their plan says,
because each operation of a plan comes up in the settlement order sooner or later.
-/

namespace ScriptHost
namespace Scheduler

open Stateful

section Laws

variable {m : Type → Type} [Monad m] {σ : Type} [Stateful m σ] {α κ ε : Type}

/-- If the host is let wait, again and again, the operation settles, and its settlement calls
the listeners of the mailbox. In between the host is asked for its board. -/
inductive WillSettle
    (env : Environment m κ ε)
    (shows : σ → World α κ ε → Prop)
    (mailbox : MailboxId)
    (id : OperationId) : σ → Prop
  | settled
      {state : σ}
      {world : World α κ ε}
      (isShown : shows state world)
      (isSettled : (world.board.outcome? id).isSome = true)
      (noneDue : world.board.dueSlots mailbox id = []) :
      WillSettle env shows mailbox id state
  | waits
      {state reading next : σ}
      {board : Board}
      (reads : Concludes env.board state board reading)
      (waits : Concludes env.await reading true next)
      (willSettle : WillSettle env shows mailbox id next) :
      WillSettle env shows mailbox id state

/-- A source that yields at most so many operations, and answers whenever it is asked. -/
def Source.Yields
    (shows : σ → World α κ ε → Prop)
    (start : World α κ ε)
    (items : Nat) : Source m κ ε → Prop
  | .producer produce => ∀ ⦃state world events⦄, shows state world →
      world.history = start.history ++ events →
      ∃ production after, Concludes produce state production after ∧
        ((admissions events).length = items → ∀ admission, production ≠ .item admission)
  | .jobs list => list.length ≤ items ∧
      ∀ job ∈ list, ∀ ⦃state world⦄, shows state world →
        ∃ operation after, Concludes job.launch state operation after

/-- A host whose states have a property that none of its calls ends obeys the laws of a host
as far as these states go. -/
theorem Chronicle.restrict
    {env : Environment m κ ε}
    {shows : σ → World α κ ε → Prop}
    {mailbox : MailboxId}
    {held : κ → Option HandleKey}
    {holds : σ → Prop}
    (chronicle : Chronicle env shows mailbox held)
    (board : ∀ {before value after}, Returns env.board before value after →
      holds before → holds after)
    (setBoard : ∀ {board before value after world},
      Returns (env.setBoard board) before value after →
      shows before world → board.Resembles world.board → holds before → holds after)
    (await : ∀ {before value after world}, Returns env.await before value after →
      shows before world → holds before → holds after)
    (dispatch : ∀ {completion before result after},
      Returns (env.dispatch completion) before result after → holds before → holds after)
    (discard : ∀ {callback before value after}, Returns (env.discard callback) before value after →
      holds before → holds after) :
    Chronicle env (fun state world => shows state world ∧ holds state) mailbox held where
  board returned both :=
    ⟨(chronicle.board returned both.1).1, (chronicle.board returned both.1).2,
      board returned both.2⟩
  setBoard returned both resembles :=
    ⟨chronicle.setBoard returned both.1 resembles, setBoard returned both.1 resembles both.2⟩
  await returned both := by
    obtain ⟨list, spares, isShown⟩ := chronicle.await returned both.1
    exact ⟨list, spares, isShown, await returned both.1 both.2⟩
  dispatch returned both := by
    obtain ⟨list, spares, usesUp, isShown⟩ := chronicle.dispatch returned both.1
    exact ⟨list, spares, usesUp, isShown, dispatch returned both.2⟩
  discard returned both := by
    obtain ⟨list, spares, usesUp, isShown⟩ := chronicle.discard returned both.1
    exact ⟨list, spares, usesUp, isShown, discard returned both.2⟩

/-- So does a source that does not end the property either. -/
theorem Answers.restrict
    {β : Type}
    {shows : σ → World α κ ε → Prop}
    {mailbox : MailboxId}
    {holds : σ → Prop}
    {ask : m β}
    {answer : β → Event α κ ε}
    (answers : Answers shows mailbox ask answer)
    (keeps : ∀ {before value after}, Returns ask before value after → holds before → holds after) :
    Answers (fun state world => shows state world ∧ holds state) mailbox ask answer := by
  intro before value after world returned both
  obtain ⟨list, spares, isShown, isHeld⟩ := answers returned both.1
  exact ⟨list, spares, ⟨isShown, keeps returned both.2⟩, isHeld⟩

end Laws

namespace Rehearsal

variable {plan : Plan}

/-- Every operation that is pending is still to come in the settlement order. -/
def IsComing (stage : Stage) : Prop :=
  ∀ id, stage.board.IsPending id → id ∈ stage.upcoming

/-- A computation that skips no pending operation of the settlement order. -/
def Skipless
    {β : Type}
    (computation : StageM β) : Prop :=
  ∀ stage, IsComing stage → IsComing (computation.run stage).2

namespace Skipless

variable {β γ : Type}

theorem pure (value : β) : Skipless (Pure.pure value : StageM β) :=
  fun _ isComing => isComing

theorem get : Skipless (MonadState.get : StageM Stage) :=
  fun _ isComing => isComing

theorem note (entry : LogEntry) : Skipless (Rehearsal.note entry) :=
  fun _ isComing => isComing

theorem discard (key : HandleKey) : Skipless (Rehearsal.discard key) :=
  fun _ isComing => isComing

theorem releaseAll : Skipless (modify fun stage : Stage =>
    { stage with registry := stage.registry.releaseAll.2 }) :=
  fun _ isComing => isComing

/-- What skips no operation step by step skips none. -/
theorem bind
    {first : StageM β}
    {next : β → StageM γ}
    (skiplessFirst : Skipless first)
    (skiplessNext : ∀ value, Skipless (next value)) :
    Skipless (first >>= next) :=
  fun stage isComing =>
    skiplessNext (first.run stage).1 (first.run stage).2 (skiplessFirst stage isComing)

/-- A settlement skips no operation. -/
theorem settle
    (plan : Plan)
    (entry : OperationId → LogEntry)
    (operation : OperationId) :
    Skipless (Rehearsal.settle plan entry operation) := by
  apply get.bind
  intro stage
  split
  · rename_i outcome _ _
    apply (note (entry operation)).bind
    intro _
    have settles : Skipless (modify fun stage : Stage =>
        { stage with board := stage.board.settle operation outcome }) := by
      intro before isComing id isPending
      exact isComing id ((Board.isPending_settle ..).mp isPending).1
    exact settles.bind fun _ => pure true
  · exact pure false

/-- Settling several operations skips none. -/
theorem settleAll
    (plan : Plan)
    (entry : OperationId → LogEntry)
    (operations : List OperationId) :
    Skipless (Rehearsal.settleAll plan entry operations) := by
  induction operations with
  | nil => exact pure ()
  | cons operation operations inductionHypothesis =>
      exact ((settle plan entry operation).bind fun _ => pure ()).bind
        fun _ => inductionHypothesis

/-- What is done with a handle skips no operation. -/
theorem useHandle
    (use : HandleUse)
    (key : HandleKey) :
    Skipless (Rehearsal.useHandle use key) := by
  apply get.bind
  intro stage
  cases use with
  | get => exact pure _
  | take => exact (discard key).bind fun _ => pure _
  | invoke => exact (discard key).bind fun _ => pure _
  | release => exact (discard key).bind fun _ => pure _

/-- A callback that follows its plan skips no operation. -/
theorem followPlan
    (completion : Completion HandleKey)
    (number? : Option Int64)
    (callback : CallbackPlan) :
    Skipless (Rehearsal.followPlan completion number? callback) := by
  have reports : Skipless (do
      let used ← Rehearsal.useHandle callback.use completion.callback
      let live := (← MonadState.get).registry.size
      Rehearsal.note (.dispatched completion.sequence number? completion.result used live)) :=
    (useHandle callback.use completion.callback).bind fun _ => get.bind fun _ => note _
  unfold Rehearsal.followPlan
  split
  · exact releaseAll.bind fun _ => reports
  · exact reports

/-- A dispatch skips no operation. -/
theorem dispatch
    (plan : Plan)
    (completion : Completion HandleKey) :
    Skipless (Rehearsal.dispatch plan completion) := by
  apply get.bind
  intro stage
  dsimp only
  split
  · exact get.bind fun _ => (note _).bind fun _ => pure _
  · rename_i callback _
    apply (followPlan completion _ callback).bind
    intro _
    apply (settleAll plan .settled callback.settles).bind
    intro _
    apply (discard completion.callback).bind
    intro _
    split
    · exact pure _
    · exact pure _

end Skipless

/-! ## Waiting -/

/-- An operation that is pending is settled with the outcome that is planned for it. -/
theorem run_settle_of_isPending
    {entry : OperationId → LogEntry}
    {operation : OperationId}
    {stage : Stage}
    (isWhole : stage.board.operations.size = plan.outcomes.size)
    (isPending : stage.board.IsPending operation) :
    ∃ outcome log, (settle plan entry operation).run stage =
      (true, { stage with board := stage.board.settle operation outcome, log := log }) := by
  have inRange : operation < plan.outcomes.size := by
    rw [← isWhole]
    exact ((Board.isPending_iff ..).mp isPending).1
  have isOutcome := Array.getElem?_eq_getElem inRange
  refine ⟨plan.outcomes[operation], stage.log.push (entry operation), ?_⟩
  unfold settle
  rw [StateT.run_bind, StateT.run_get, pure_bind, isPending, isOutcome]
  rfl

/-- An operation that is not pending is not settled again. -/
theorem run_settle_of_not_isPending
    {entry : OperationId → LogEntry}
    {operation : OperationId}
    {stage : Stage}
    (notPending : ¬stage.board.IsPending operation) :
    (settle plan entry operation).run stage = (false, stage) := by
  unfold settle
  rw [StateT.run_bind, StateT.run_get, pure_bind]
  split
  · rename_i isPending _
    exact absurd isPending notPending
  · rfl

/-- The first pending operation is settled, and what comes after it is left. -/
theorem run_settleFirst
    (operations : List OperationId)
    {stage : Stage}
    (isWhole : stage.board.operations.size = plan.outcomes.size) :
    (∃ skipped operation rest outcome log, operations = skipped ++ operation :: rest ∧
      (∀ id ∈ skipped, ¬stage.board.IsPending id) ∧ stage.board.IsPending operation ∧
      (settleFirst plan operations).run stage =
        (some rest,
          { stage with board := stage.board.settle operation outcome, log := log })) ∨
    ((∀ id ∈ operations, ¬stage.board.IsPending id) ∧
      (settleFirst plan operations).run stage = (none, stage)) := by
  induction operations with
  | nil => exact Or.inr ⟨fun _ member => (nomatch member), rfl⟩
  | cons operation operations inductionHypothesis =>
      by_cases isPending : stage.board.IsPending operation
      · obtain ⟨outcome, log, settled⟩ := run_settle_of_isPending isWhole isPending
        refine Or.inl ⟨[], operation, operations, outcome, log, rfl,
          fun _ member => (nomatch member), isPending, ?_⟩
        rw [settleFirst, StateT.run_bind, settled]
        rfl
      · have skips : (settleFirst plan (operation :: operations)).run stage =
            (settleFirst plan operations).run stage := by
          rw [settleFirst, StateT.run_bind, run_settle_of_not_isPending isPending]
          rfl
        rcases inductionHypothesis with
          ⟨skipped, next, rest, outcome, log, rfl, noneSkipped, isNext, settled⟩ |
            ⟨nonePending, ended⟩
        · exact Or.inl ⟨operation :: skipped, next, rest, outcome, log, rfl,
            List.forall_mem_cons.mpr ⟨isPending, noneSkipped⟩, isNext, skips.trans settled⟩
        · exact Or.inr ⟨List.forall_mem_cons.mpr ⟨isPending, nonePending⟩, skips.trans ended⟩

/-- The host that a rehearsal plays lets the first pending operation settle. -/
theorem run_await
    {stage : Stage}
    (isWhole : stage.board.operations.size = plan.outcomes.size) :
    (∃ skipped operation rest outcome log, stage.upcoming = skipped ++ operation :: rest ∧
      (∀ id ∈ skipped, ¬stage.board.IsPending id) ∧ stage.board.IsPending operation ∧
      (await plan).run stage =
        (true, { stage with
          board := stage.board.settle operation outcome
          log := log
          upcoming := rest })) ∨
    ((∀ id ∈ stage.upcoming, ¬stage.board.IsPending id) ∧
      (await plan).run stage = (false, stage)) := by
  have unfolded : (await plan).run stage = ((settleFirst plan stage.upcoming).run stage).casesOn
      fun rest? later => rest?.elim (false, later) fun rest =>
        (true, { later with upcoming := rest }) := by
    unfold await
    rw [StateT.run_bind, StateT.run_get, pure_bind, StateT.run_bind]
    obtain ⟨rest?, later⟩ := (settleFirst plan stage.upcoming).run stage
    cases rest? <;> rfl
  rcases run_settleFirst stage.upcoming isWhole with
    ⟨skipped, operation, rest, outcome, log, split, noneSkipped, isPending, settled⟩ |
    ⟨nonePending, ended⟩
  · rw [settled] at unfolded
    exact Or.inl ⟨skipped, operation, rest, outcome, log, split, noneSkipped, isPending, unfolded⟩
  · rw [ended] at unfolded
    exact Or.inr ⟨nonePending, unfolded⟩

/-! ## Rehearsals do their part -/

/-- A stage shows a world, and every pending operation is still to come. -/
def Attends
    (plan : Plan)
    (stage : Stage)
    (world : World Int64 HandleKey String) : Prop :=
  Shows plan stage world ∧ IsComing stage

/-- What skips no operation leaves to come what is to come. -/
theorem Skipless.isComing_of_returns
    {β : Type}
    {computation : StageM β}
    {value : β}
    {before after : Stage}
    (isSkipless : Skipless computation)
    (returned : Returns computation before value after)
    (isComing : IsComing before) :
    IsComing after := by
  have comesAfter := isSkipless before isComing
  rwa [show computation.run before = (value, after) from returned] at comesAfter

/-- What is still to come is so after waiting, too. -/
theorem isComing_of_await
    {value : Bool}
    {before after : Stage}
    (isWhole : before.board.operations.size = plan.outcomes.size)
    (returned : Returns (await plan) before value after)
    (isComing : IsComing before) :
    IsComing after := by
  have isRun : (await plan).run before = (value, after) := returned
  rcases run_await isWhole with
    ⟨skipped, operation, rest, outcome, log, split, noneSkipped, isPending, waited⟩ | ⟨-, waited⟩
  · rw [waited] at isRun
    cases isRun
    intro id stillPending
    obtain ⟨wasPending, notSettled⟩ := (Board.isPending_settle ..).mp stillPending
    have comes := isComing id wasPending
    rw [split, List.mem_append, List.mem_cons] at comes
    rcases comes with isSkipped | rfl | isLeft
    · exact absurd wasPending (noneSkipped id isSkipped)
    · exact absurd rfl notSettled
    · exact isLeft
  · rw [waited] at isRun
    cases isRun
    exact isComing

/-- A rehearsal is chronicled while it attends to its plan. -/
theorem chronicle_attends
    (plan : Plan)
    (mailbox : MailboxId) :
    Chronicle (environment plan) (Attends plan) mailbox some :=
  (chronicle plan mailbox).restrict
    (fun returned => Skipless.get.bind (fun _ => .pure _) |>.isComing_of_returns returned)
    (by
      intro board before value after world returned isShown resembles isComing
      cases returned
      intro id isPending
      rw [← isShown.board] at resembles
      exact isComing id ((resembles.isPending_iff id).mp isPending))
    (fun returned isShown => isComing_of_await isShown.size returned)
    (fun returned => (Skipless.dispatch plan _).isComing_of_returns returned)
    (fun returned => (Skipless.discard _).isComing_of_returns returned)

/-- A pending operation of a rehearsal settles when its turn in the settlement order has
come. -/
theorem willSettle
    {stage : Stage}
    {world : World Int64 HandleKey String}
    {id : OperationId}
    (mailbox : MailboxId)
    (attends : Attends plan stage world)
    (isPending : stage.board.IsPending id) :
    WillSettle (environment plan) (Attends plan) mailbox id stage := by
  induction count : stage.upcoming.length using Nat.strongRecOn generalizing stage world with
  | ind count inductionHypothesis =>
      have comes := attends.2 id isPending
      rcases run_await attends.1.size with
        ⟨skipped, operation, rest, outcome, log, split, noneSkipped, isNext, waited⟩ |
        ⟨nonePending, -⟩
      · obtain ⟨list, -, stillAttends⟩ :=
          (chronicle_attends plan world.board.mailboxes.size).await waited attends
        have waits := concludes_run (await plan) stage
        rw [waited] at waits
        refine .waits (concludes_run (environment plan).board stage) waits ?_
        by_cases isIt : id = operation
        · refine .settled stillAttends ?_ ?_
          · rw [← stillAttends.1.board, isIt, Board.outcome?_settle, if_pos ⟨isNext, rfl⟩]
            rfl
          · rw [← stillAttends.1.board]
            exact Board.dueSlots_eq_nil mailbox (stillAttends.1.isCalm id)
        · refine inductionHypothesis _ ?_ stillAttends ?_ rfl
          · rw [← count, split, List.length_append, List.length_cons]
            change rest.length < _
            omega
          · exact (Board.isPending_settle ..).mpr ⟨isPending, isIt⟩
      · exact absurd isPending (nonePending id comes)

end Rehearsal
end Scheduler
end ScriptHost
