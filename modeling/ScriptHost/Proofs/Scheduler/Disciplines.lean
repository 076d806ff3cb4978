import ScriptHost.Proofs.Scheduler.Delivery

/-!
# The two disciplines

A list of jobs can be run in two ways: as such, or by a producer that launches the next job
that is left whenever it is asked. Both are the same computation. They launch and dispatch
in the same order, interleaved in the same way, and come to the same result; a list that is
run as such gives up the callbacks of the jobs that are left over when all of that is done,
whereas a producer keeps them.

No law of a host is needed for this. The two computations are equal in every monad, hence
whatever the host does, in whatever order operations settle, and also where a run never
ends.
-/

namespace ScriptHost
namespace Scheduler

variable {m : Type → Type} [Monad m] {κ ε τ : Type}

/-- The same host, reached from computations that keep something beside it. Giving up a
callback is what `discard` says; the host itself is not asked to. -/
def Environment.beside
    (env : Environment m κ ε)
    (discard : κ → StateT τ m Unit) : Environment (StateT τ m) κ ε where
  board := liftM env.board
  setBoard board := liftM (env.setBoard board)
  await := liftM env.await
  dispatch completion := liftM (env.dispatch completion)
  discard := discard

/-- A producer that launches the next job that is left, and has no more when none is. -/
def launchNext : StateT (List (Job m κ)) m (Production κ ε) := do
  match ← get with
  | [] => pure .finished
  | job :: rest => do
      set rest
      let operation ← liftM job.launch
      pure (.item ⟨operation, job.type, job.callback⟩)

/-- Give up the callbacks of jobs, in order. -/
def discardAll
    (env : Environment m κ ε)
    (jobs : List (Job m κ)) : m Unit :=
  jobs.forM fun job => env.discard job.callback

/-- Give up the callbacks of the jobs that a run leaves over, if the run comes to an end. -/
def discardRest
    (env : Environment m κ ε)
    (pulled : m (Option (Except ε Report) × List (Job m κ))) :
    m (Option (Except ε Report)) := do
  match ← pulled with
  | (none, _) => pure none
  | (some result, rest) => do
      discardAll env rest
      pure (some result)

variable [LawfulMonad m]

theorem run_launchNext_nil :
    (launchNext : StateT (List (Job m κ)) m (Production κ ε)).run [] =
      pure (.finished, []) := by
  simp [launchNext]

/-- The next job is launched and taken off the list. -/
theorem run_launchNext_cons
    (job : Job m κ)
    (rest : List (Job m κ)) :
    (launchNext : StateT (List (Job m κ)) m (Production κ ε)).run (job :: rest) =
      job.launch >>= fun operation =>
        pure (.item ⟨operation, job.type, job.callback⟩, rest) := by
  simp [launchNext]

section Beside

variable (env : Environment m κ ε) (discard : κ → StateT τ m Unit)

/-! ## What does not depend on the jobs -/

/-- Waiting does not touch what is kept beside the host. -/
theorem waitNext_beside
    (fuel : Nat)
    (run : Run κ ε) :
    waitNext (env.beside discard) fuel run =
      (liftM (waitNext env fuel run) : StateT τ m (Option (Completion κ × Run κ ε))) := by
  induction fuel with
  | zero => simp [waitNext]
  | succ fuel inductionHypothesis =>
      simp only [waitNext, liftM_bind]
      refine bind_congr fun board => ?_
      cases run.complete? board with
      | some announcement =>
          obtain ⟨completion, next, board⟩ := announcement
          simp [Environment.beside]
      | none =>
          simp only [liftM_bind]
          refine bind_congr fun goesOn => ?_
          cases goesOn with
          | false => simp
          | true => exact inductionHypothesis

/-- A delivery does not touch what is kept beside the host. -/
theorem deliverNext_beside
    (fuel : Nat)
    (run : Run κ ε) :
    deliverNext (env.beside discard) fuel run =
      (liftM (deliverNext env fuel run) : StateT τ m (Option (Run κ ε))) := by
  simp only [deliverNext, waitNext_beside, liftM_bind]
  refine bind_congr fun waited? => ?_
  cases waited? with
  | none => simp
  | some waited => simp [Environment.beside]

theorem occupyNext_beside
    (run : Run κ ε)
    (admission : Admission κ) :
    occupyNext (env.beside discard) run admission =
      (liftM (occupyNext env run admission) : StateT τ m (Run κ ε)) := by
  simp [occupyNext, Environment.beside]

/-- Draining does not touch what is kept beside the host. -/
theorem drain_beside
    (fuel : Nat)
    (run : Run κ ε) :
    drain (env.beside discard) fuel run =
      (liftM (drain env fuel run) : StateT τ m (Option (Run κ ε))) := by
  induction fuel generalizing run with
  | zero => simp [drain]
  | succ fuel inductionHypothesis =>
      rw [drain, drain]
      split
      · simp
      · simp only [deliverNext_beside, liftM_bind]
        refine bind_congr fun next? => ?_
        cases next? with
        | none => simp
        | some next => exact inductionHypothesis next

theorem begin_beside (limit : Nat) :
    begin (env.beside discard) limit = (liftM (begin env limit) : StateT τ m (Run κ ε)) := by
  simp [begin, Environment.beside]

end Beside

/-! ## Jobs that are left over -/

section Abandoning

variable {env : Environment m κ ε}

/-- Giving jobs up counts them, and discards their callbacks in order. -/
theorem abandonAll_eq
    (jobs : List (Job m κ))
    (run : Run κ ε) :
    abandonAll env jobs run =
      discardAll env jobs >>= fun _ => pure (jobs.foldl (fun run _ => run.abandon) run) := by
  induction jobs generalizing run with
  | nil => simp [abandonAll, discardAll]
  | cons job jobs inductionHypothesis =>
      simp only [abandonAll, inductionHypothesis, List.foldl_cons]
      exact (bind_assoc ..).symm

omit [Monad m] [LawfulMonad m] in
/-- A run that has failed counts the jobs that it abandons in vain. -/
theorem Run.result_foldl_abandon
    {run : Run κ ε}
    (failed : run.failure?.isSome = true)
    (jobs : List (Job m κ)) :
    (jobs.foldl (fun run _ => run.abandon) run).result = run.result := by
  induction jobs generalizing run with
  | nil => rfl
  | cons job jobs inductionHypothesis =>
      have failedStill : run.abandon.failure?.isSome = true := failed
      refine (inductionHypothesis failedStill).trans ?_
      obtain ⟨error, isFailure⟩ := Option.isSome_iff_exists.mp failed
      simp [Run.result, Run.abandon, isFailure]

/-- Waiting leaves the failure of a run as it is, so that whoever goes on may rely on it. -/
private theorem waitNext_bind_congr
    {β : Type}
    {first second : Option (Completion κ × Run κ ε) → m β}
    (fuel : Nat)
    (run : Run κ ε)
    (sameEnd : first none = second none)
    (sameNext : ∀ completion next, next.failure? = run.failure? →
      first (some (completion, next)) = second (some (completion, next))) :
    waitNext env fuel run >>= first = waitNext env fuel run >>= second := by
  induction fuel with
  | zero => simpa [waitNext] using sameEnd
  | succ fuel inductionHypothesis =>
      simp only [waitNext, bind_assoc]
      refine bind_congr fun board => ?_
      cases announced : run.complete? board with
      | some announcement =>
          obtain ⟨completion, next, board⟩ := announcement
          obtain ⟨slots, signals, -, rfl, -⟩ := Run.complete?_eq_some_iff.mp announced
          simp only [bind_assoc, pure_bind]
          refine bind_congr fun _ => ?_
          exact sameNext completion _ rfl
      | none =>
          simp only [bind_assoc]
          refine bind_congr fun goesOn => ?_
          cases goesOn with
          | false => simpa using sameEnd
          | true => exact inductionHypothesis

/-- A failed run stays so when it dispatches, so that whoever goes on may rely on it. -/
private theorem deliverNext_bind_congr
    {β : Type}
    {first second : Option (Run κ ε) → m β}
    (fuel : Nat)
    {run : Run κ ε}
    (failed : run.failure?.isSome = true)
    (sameEnd : first none = second none)
    (sameNext : ∀ next, next.failure?.isSome = true → first (some next) = second (some next)) :
    deliverNext env fuel run >>= first = deliverNext env fuel run >>= second := by
  simp only [deliverNext, bind_assoc]
  refine waitNext_bind_congr fuel run (by simpa using sameEnd) fun completion next unchanged => ?_
  simp only [bind_assoc, pure_bind]
  refine bind_congr fun result => sameNext _ ?_
  cases result with
  | ok => exact unchanged ▸ failed
  | error error => rfl

/-- What a run comes to when it is drained and the callbacks of the jobs left over are given
up. -/
def conclude
    (env : Environment m κ ε)
    (fuel : Nat)
    (run : Run κ ε)
    (rest : List (Job m κ)) : m (Option (Except ε Report)) := do
  match ← drain env fuel run with
  | none => pure none
  | some run => do
      discardAll env rest
      pure (some run.result)

/-- Jobs are left over only if the run has failed. Then it does not matter whether they are
counted. -/
theorem conclude_eq
    (fuel : Nat)
    {run : Run κ ε}
    {rest : List (Job m κ)}
    (ends : run.failure?.isSome = true ∨ rest = []) :
    conclude env fuel run rest = (do
      match ← drain env fuel run with
      | none => pure none
      | some run => do
          let run ← abandonAll env rest run
          pure (some run.result)) := by
  unfold conclude
  rcases ends with failed | rfl
  · induction fuel generalizing run with
    | zero => simp [drain]
    | succ fuel inductionHypothesis =>
        rw [drain]
        split
        · simp [abandonAll_eq, Run.result_foldl_abandon failed]
        · simp only [bind_assoc]
          refine deliverNext_bind_congr fuel failed (by simp) fun next stillFailed => ?_
          exact inductionHypothesis stillFailed
  · refine bind_congr fun drained? => ?_
    cases drained? with
    | none => rfl
    | some drained => simp [abandonAll, discardAll]

end Abandoning

/-! ## Launching and pulling -/

/-- Launching jobs and concluding the run is the same as pulling them and concluding it. -/
theorem launch_conclude
    (env : Environment m κ ε)
    (discard : κ → StateT (List (Job m κ)) m Unit)
    (drainFuel fuel : Nat)
    (jobs : List (Job m κ))
    (run : Run κ ε) :
    (do
      match ← launch env fuel jobs run with
      | none => pure none
      | some (run, rest) =>
          match ← drain env drainFuel run with
          | none => pure none
          | some run => do
              let run ← abandonAll env rest run
              pure (some run.result)) = (do
      match ← (pull (env.beside discard) launchNext fuel run).run jobs with
      | (none, _) => pure none
      | (some run, rest) => conclude env drainFuel run rest) := by
  induction fuel generalizing jobs run with
  | zero => simp [launch, pull]
  | succ fuel inductionHypothesis =>
      rw [launch.eq_def, pull]
      dsimp only
      by_cases failed : run.failure?.isSome = true
      · simp only [failed, if_true, pure_bind, StateT.run_pure]
        exact (conclude_eq drainFuel (.inl failed)).symm
      · by_cases isFull : run.slots.isFull = true
        · simp only [failed, isFull, if_true, if_false, Bool.false_eq_true, deliverNext_beside,
            StateT.run_bind, StateT.run_monadLift, monadLift_self, liftM, bind_assoc, pure_bind]
          refine bind_congr fun next? => ?_
          cases next? with
          | none => simp
          | some next => exact inductionHypothesis jobs next
        · cases jobs with
          | nil =>
              simp only [failed, isFull, if_false, Bool.false_eq_true, pure_bind,
                StateT.run_bind, run_launchNext_nil, StateT.run_pure]
              exact (conclude_eq drainFuel (.inr rfl)).symm
          | cons job jobs =>
              simp only [failed, isFull, if_false, Bool.false_eq_true, bind_assoc, pure_bind,
                occupyNext_beside, StateT.run_bind, run_launchNext_cons, StateT.run_monadLift,
                monadLift_self, liftM]
              refine bind_congr fun operation => ?_
              refine bind_congr fun next => ?_
              exact inductionHypothesis jobs next

/-- A list of jobs runs in the same way as a producer that launches the next of them, up to
what becomes of the callbacks of jobs that are never launched: only the list gives them up,
and it does so when everything is dispatched. -/
theorem runFanOut_eq_runPull
    (env : Environment m κ ε)
    (discard : κ → StateT (List (Job m κ)) m Unit)
    (limit fuel : Nat)
    (jobs : List (Job m κ)) :
    runFanOut env limit jobs fuel =
      discardRest env ((runPull (env.beside discard) limit launchNext fuel).run jobs) := by
  simp only [discardRest, runFanOut, runPull, begin_beside, StateT.run_bind, bind_assoc, liftM,
    StateT.run_monadLift, monadLift_self, pure_bind]
  refine bind_congr fun run => ?_
  refine (launch_conclude env discard fuel fuel jobs run).trans ?_
  refine bind_congr fun pulled => ?_
  obtain ⟨pulled?, rest⟩ := pulled
  cases pulled? with
  | none => simp
  | some pulled =>
      simp only [conclude, drain_beside, StateT.run_bind, bind_assoc, liftM,
        StateT.run_monadLift, monadLift_self, pure_bind]
      refine bind_congr fun drained? => ?_
      cases drained? with
      | none => simp
      | some drained => simp

/-- Give a callback up by losing all jobs. -/
def loseJobs (_ : HandleKey) :
    StateT (List (Job Rehearsal.StageM HandleKey)) Rehearsal.StageM Unit :=
  set ([] : List (Job Rehearsal.StageM HandleKey))

/-- The jobs of the broken plan, pulled from a producer. -/
def brokenPull :
    Rehearsal.StageM
      (Option (Except String Report) × List (Job Rehearsal.StageM HandleKey)) :=
  (runPull ((Rehearsal.environment brokenPlan).beside loseJobs) 2 launchNext 10).run
    brokenJobs

theorem brokenJobs_runFanOut_eq_brokenPull :
    runFanOut (Rehearsal.environment brokenPlan) 2 brokenJobs 10 =
      discardRest (Rehearsal.environment brokenPlan) brokenPull :=
  runFanOut_eq_runPull (Rehearsal.environment brokenPlan) loseJobs 2 10 brokenJobs

/-- The broken plan, pulled and played from the start. -/
def brokenPulled :
    (Option (Except String Report) × List (Job Rehearsal.StageM HandleKey)) ×
      Rehearsal.Stage :=
  brokenPull.run (Rehearsal.stageOf brokenPlan brokenRegistry)

example :
    brokenPulled.1.1 = some (.error "broken") ∧
      brokenPulled.1.2.map Job.callback = [⟨3⟩] ∧
      Rehearsal.dispatches brokenPulled.2.log =
        [(0, .ok (some (.int 7))), (1, .error (.failed "lost"))] := by
  decide +kernel

end Scheduler
end ScriptHost
