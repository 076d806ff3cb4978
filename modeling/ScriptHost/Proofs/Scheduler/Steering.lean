import ScriptHost.Natives.Tasks
import ScriptHost.Proofs.Agenda
import ScriptHost.Proofs.Scheduler.Rounds
import ScriptHost.Proofs.Session

/-!
# Runs that are steered to their end

In a session a run ends by itself, or is interrupted by a call that does not end. It is steered
from stage to stage: at each of them it launches the next job, hands out what is announced, or
waits for work on the agenda, of which there is some. Each launch takes a job from the list,
each delivery frees a slot, and each wait takes work off the agenda, so that enough fuel takes a
run to its end, and more fuel makes no difference.
-/

namespace ScriptHost

/-- Something was waited for, and it is off the agenda. -/
theorem Host.length_works_await?
    {host later : Host}
    (waited : host.await? = some later) :
    later.agenda.works.length < host.agenda.works.length := by
  unfold Host.await? at waited
  split at waited
  · cases waited
  next work agenda isNext =>
    cases waited
    have sameAgenda : (Host.perform { host with agenda := agenda } work).agenda = agenda := by
      cases work with
      | delay | download => rfl
      | process operation spec directory cell? =>
          unfold Host.perform
          dsimp only
          split
          · unfold Host.leaveOutput
            split <;> rfl
          · rfl
    rw [sameAgenda, Agenda.works_of_next? isNext]
    exact Nat.lt_succ_self _

namespace Session

variable {α β : Type}

/-- The session with another board of its host. -/
def withBoard (session : Session) (board : Board) : Session :=
  { session with host := { session.host with board := board } }

/-! ## Enough fuel -/

/-- With enough fuel a step comes to a result, and with less to the same or to nothing. -/
def ComesTo
    (step : Nat → SessionM (Option α))
    (session : Session)
    (result : Except Interruption α)
    (later : Session) : Prop :=
  (∀ fuel, (step fuel).run.run session = (result.map some, later) ∨
    ((step fuel).run.run session).1 = .ok none) ∧
  ∃ least, ∀ fuel, least ≤ fuel → (step fuel).run.run session = (result.map some, later)

namespace ComesTo

variable {step : Nat → SessionM (Option α)} {session middle later : Session}
variable {result : Except Interruption α}

theorem ofPure
    {value : α}
    (returns : ∀ fuel, (step fuel).run.run session = (.ok (some value), later)) :
    ComesTo step session (.ok value) later :=
  ⟨fun fuel => .inl (returns fuel), 0, fun fuel _ => returns fuel⟩

theorem ofInterrupted
    {interruption : Interruption}
    (isInterrupted : ∀ fuel, (step fuel).run.run session = (.error interruption, later)) :
    ComesTo step session (.error interruption) later :=
  ⟨fun fuel => .inl (isInterrupted fuel), 0, fun fuel _ => isInterrupted fuel⟩

/-- What a step does first may be done before. -/
theorem ofRun
    {other : Nat → SessionM (Option α)}
    (comes : ComesTo other middle result later)
    (same : ∀ fuel, (step fuel).run.run session = (other fuel).run.run middle) :
    ComesTo step session result later := by
  simpa only [ComesTo, same] using comes

/-- One round of fuel is used up. -/
theorem ofSucc
    (comes : ComesTo (fun fuel => step (fuel + 1)) session result later)
    (givesUp : ((step 0).run.run session).1 = .ok none) :
    ComesTo step session result later := by
  obtain ⟨same, least, isEnough⟩ := comes
  constructor
  · rintro (_ | fuel)
    · exact .inr givesUp
    · exact same fuel
  · refine ⟨least + 1, fun fuel isMore => ?_⟩
    obtain ⟨fuel, rfl⟩ := Nat.exists_eq_add_of_lt isMore
    exact isEnough (least + fuel) (Nat.le_add_right ..)

section Bind

variable {first : Nat → SessionM (Option α)} {next : Nat → Option α → SessionM (Option β)}
variable (givesUp : ∀ fuel session, ((next fuel none).run.run session).1 = .ok none)

include givesUp

/-- Two steps give up if the first one does. -/
private theorem givesUp_bind
    {fuel : Nat}
    (gaveUp : ((first fuel).run.run session).1 = .ok none) :
    ((first fuel >>= next fuel).run.run session).1 = .ok none := by
  rw [run_bind]
  rcases ran : (first fuel).run.run session with ⟨found, middle⟩
  rw [ran] at gaveUp
  subst gaveUp
  exact givesUp fuel middle

/-- A step that gives up when the one before it does goes on from where that returns. -/
theorem bind
    {value : α}
    {result : Except Interruption β}
    (comes : ComesTo first session (.ok value) middle)
    (goesOn : ComesTo (fun fuel => next fuel (some value)) middle result later) :
    ComesTo (fun fuel => first fuel >>= next fuel) session result later := by
  have bound {fuel : Nat} (ran : (first fuel).run.run session = (.ok (some value), middle)) :
      (first fuel >>= next fuel).run.run session =
        (next fuel (some value)).run.run middle := by
    rw [run_bind, ran]
  obtain ⟨same, enough, isEnough⟩ := comes
  obtain ⟨sameThen, more, isEnoughThen⟩ := goesOn
  constructor
  · intro fuel
    rcases same fuel with ran | gaveUp
    · rw [bound ran]
      exact sameThen fuel
    · exact .inr (givesUp_bind givesUp gaveUp)
  · refine ⟨max enough more, fun fuel isMore => ?_⟩
    obtain ⟨isMoreFirst, isMoreThen⟩ := Nat.max_le.mp isMore
    rw [bound (isEnough fuel isMoreFirst)]
    exact isEnoughThen fuel isMoreThen

/-- Two steps are interrupted if the first one is. -/
theorem bindInterrupted
    {interruption : Interruption}
    (comes : ComesTo first session (.error interruption) later) :
    ComesTo (fun fuel => first fuel >>= next fuel) session (.error interruption) later := by
  have bound {fuel : Nat} (ran : (first fuel).run.run session = (.error interruption, later)) :
      (first fuel >>= next fuel).run.run session = (.error interruption, later) := by
    rw [run_bind, ran]
  obtain ⟨same, least, isEnough⟩ := comes
  exact ⟨fun fuel => (same fuel).imp bound (givesUp_bind givesUp),
    least, fun fuel isMore => bound (isEnough fuel isMore)⟩

end Bind

end ComesTo

/-- With enough fuel a step returns or is interrupted, and something holds then. -/
def Reaches
    (step : Nat → SessionM (Option α))
    (session : Session)
    (returned : α → Session → Prop)
    (interrupted : Interruption → Session → Prop) : Prop :=
  (∃ value later, ComesTo step session (.ok value) later ∧ returned value later) ∨
    ∃ interruption later, ComesTo step session (.error interruption) later ∧
      interrupted interruption later

namespace Reaches

variable {step : Nat → SessionM (Option α)} {session middle later : Session}
variable {returned : α → Session → Prop} {interrupted : Interruption → Session → Prop}

/-- A step reaches what another one reaches that runs alike. -/
theorem ofRun
    {other : Nat → SessionM (Option α)}
    (reaches : Reaches other middle returned interrupted)
    (same : ∀ fuel, (step fuel).run.run session = (other fuel).run.run middle) :
    Reaches step session returned interrupted := by
  rcases reaches with ⟨value, later, comes, isReturned⟩ | ⟨interruption, later, comes, isBroken⟩
  · exact .inl ⟨value, later, comes.ofRun same, isReturned⟩
  · exact .inr ⟨interruption, later, comes.ofRun same, isBroken⟩

/-- A step that needs fuel reaches with more of it what it reaches. -/
theorem ofSucc
    (reaches : Reaches (fun fuel => step (fuel + 1)) session returned interrupted)
    (givesUp : ((step 0).run.run session).1 = .ok none) :
    Reaches step session returned interrupted := by
  rcases reaches with ⟨value, later, comes, isReturned⟩ | ⟨interruption, later, comes, isBroken⟩
  · exact .inl ⟨value, later, comes.ofSucc givesUp, isReturned⟩
  · exact .inr ⟨interruption, later, comes.ofSucc givesUp, isBroken⟩

theorem ofPure
    {value : α}
    (returns : ∀ fuel, (step fuel).run.run session = (.ok (some value), later))
    (isReturned : returned value later) :
    Reaches step session returned interrupted :=
  .inl ⟨value, later, .ofPure returns, isReturned⟩

/-- A step reaches whatever follows from what it reaches. -/
theorem imp
    {others : α → Session → Prop}
    (reaches : Reaches step session returned interrupted)
    (isReturned : ∀ value later, returned value later → others value later) :
    Reaches step session others interrupted :=
  Or.imp_left (fun ⟨value, later, comes, holds⟩ =>
    ⟨value, later, comes, isReturned value later holds⟩) reaches

/-- A step that needs no fuel is done first. -/
theorem after
    {β : Type}
    {first : SessionM β}
    {value : β}
    {next : Nat → β → SessionM (Option α)}
    (ran : first.run.run session = (.ok value, middle))
    (reaches : Reaches (fun fuel => next fuel value) middle returned interrupted) :
    Reaches (fun fuel => first >>= next fuel) session returned interrupted :=
  reaches.ofRun fun fuel => by rw [run_bind, ran]

/-- What is made of the value of a step that needs no fuel. -/
theorem ofStep
    {β : Type}
    {step : SessionM β}
    (make : β → α)
    (ran : match step.run.run session with
      | (.ok value, later) => returned (make value) later
      | (.error interruption, later) => interrupted interruption later) :
    Reaches (fun _ => do return some (make (← step))) session returned interrupted := by
  have bound : (do return some (make (← step)) : SessionM (Option α)).run.run session =
      match step.run.run session with
      | (.ok value, later) => (.ok (some (make value)), later)
      | (.error interruption, later) => (.error interruption, later) := run_bind ..
  rcases stepRan : step.run.run session with ⟨interruption | value, later⟩
  all_goals rw [stepRan] at ran bound
  · exact .inr ⟨interruption, later, .ofInterrupted fun _ => bound, ran⟩
  · exact .inl ⟨make value, later, .ofPure fun _ => bound, ran⟩

/-- A step that gives up when the one before it does goes on from where that returns. -/
theorem bind
    {first : Nat → SessionM (Option α)}
    {next : Nat → Option α → SessionM (Option β)}
    {between : α → Session → Prop}
    {returned : β → Session → Prop}
    (reaches : Reaches first session between interrupted)
    (goesOn : ∀ value middle, between value middle →
      Reaches (fun fuel => next fuel (some value)) middle returned interrupted)
    (givesUp : ∀ fuel session, ((next fuel none).run.run session).1 = .ok none) :
    Reaches (fun fuel => first fuel >>= next fuel) session returned interrupted := by
  rcases reaches with ⟨value, middle, comes, isBetween⟩ | ⟨interruption, later, comes, isBroken⟩
  · rcases goesOn value middle isBetween with
      ⟨result, later, comesThen, isReturned⟩ | ⟨interruption, later, comesThen, isBroken⟩
    · exact .inl ⟨result, later, comes.bind givesUp comesThen, isReturned⟩
    · exact .inr ⟨interruption, later, comes.bind givesUp comesThen, isBroken⟩
  · exact .inr ⟨interruption, later, comes.bindInterrupted givesUp, isBroken⟩

end Reaches

end Session

namespace Scheduler

open Session Natives

variable {κ : Type} {dispatch : Completion κ → SessionM (Except String Unit)}
variable {discard : κ → SessionM Unit} {run next : Run κ String}
variable {session : Session} {board : Board} {completion : Completion κ}

/-! ## Rounds -/

theorem run_board :
    (environment dispatch discard).board.run.run session = (.ok session.host.board, session) :=
  rfl

/-- A run that is told of a completion goes on with it. -/
theorem run_waitNext_announced
    (announced : run.complete? session.host.board = some (completion, next, board))
    (fuel : Nat) :
    (waitNext (environment dispatch discard) (fuel + 1) run).run.run session =
      (.ok (some (completion, next)), session.withBoard board) := by
  rw [waitNext, run_bind, run_board]
  dsimp only
  rw [announced]
  rfl

/-- A run that is told of none waits and asks again. -/
theorem run_waitNext_silent
    {later : Host}
    (silent : run.complete? session.host.board = none)
    (waited : session.host.await? = some later)
    (fuel : Nat) :
    (waitNext (environment dispatch discard) (fuel + 1) run).run.run session =
      (waitNext (environment dispatch discard) fuel run).run.run (session.withHost later) := by
  conv_lhs => rw [waitNext, run_bind, run_board]
  dsimp only
  rw [silent]
  dsimp only
  have awaited : (environment dispatch discard).await.run.run session =
      (.ok true, session.withHost later) := run_await waited
  rw [run_bind, awaited]
  rfl

/-- A run is steered from stage to stage. Some jobs are left over at each of them. -/
structure Steers
    (dispatch : Completion κ → SessionM (Except String Unit))
    (stage : List (Job SessionM κ) → Run κ String → Session → Prop)
    (interrupted : Interruption → Session → Prop) : Prop where
  limit_pos : ∀ {jobs run session}, stage jobs run session → 0 < run.slots.limit
  waits : ∀ {jobs run session}, stage jobs run session → run.slots.isEmpty = false →
    run.complete? session.host.board = none →
    ∃ later, session.host.await? = some later ∧ stage jobs run (session.withHost later)
  delivers : ∀ {jobs run session completion next board}, stage jobs run session →
    run.complete? session.host.board = some (completion, next, board) →
    match (dispatch completion).run.run (session.withBoard board) with
    | (.ok result, later) => stage jobs (next.record result) later
    | (.error interruption, later) => interrupted interruption later
  launches : ∀ {job jobs run session}, stage (job :: jobs) run session → run.failure? = none →
    run.slots.isFull = false →
    ∃ operation later, job.launch.run.run session = (.ok operation, later) ∧
      let (occupied, board) := run.occupy later.host.board ⟨operation, job.type, job.callback⟩
      stage jobs occupied (later.withBoard board)

namespace Steers

variable {stage : List (Job SessionM κ) → Run κ String → Session → Prop}
variable {interrupted : Interruption → Session → Prop} {jobs : List (Job SessionM κ)}

/-- A run with something outstanding waits until it is announced. -/
theorem waitNext
    (steers : Steers dispatch stage interrupted)
    (isStage : stage jobs run session)
    (notEmpty : run.slots.isEmpty = false) :
    Reaches (fun fuel => waitNext (environment dispatch discard) fuel run) session
      (fun found later => ∃ session board, stage jobs run session ∧
        run.complete? session.host.board = some (found.1, found.2, board) ∧
          later = session.withBoard board) interrupted := by
  induction works : session.host.agenda.works.length using Nat.strongRecOn
    generalizing session with
  | ind count inductionHypothesis =>
      refine Reaches.ofSucc ?_ rfl
      cases announced : run.complete? session.host.board with
      | some announcement =>
          obtain ⟨completion, next, board⟩ := announcement
          exact .ofPure (run_waitNext_announced announced)
            ⟨session, board, isStage, announced, rfl⟩
      | none =>
          obtain ⟨later, waited, isStage⟩ := steers.waits isStage notEmpty announced
          have fewer := Host.length_works_await? waited
          exact (inductionHypothesis _ (works ▸ fewer) isStage rfl).ofRun
            (run_waitNext_silent announced waited)

/-- A failure is not forgotten when a dispatch is counted. -/
private theorem failure?_of_record
    {result : Except String Unit}
    (noFailure : (next.record result).failure? = none) :
    next.failure? = none := by
  cases result with
  | ok => exact noFailure
  | error error => cases noFailure

/-- Each delivery frees a slot, and a failure is not forgotten. -/
theorem deliverNext
    (steers : Steers dispatch stage interrupted)
    (isStage : stage jobs run session)
    (notEmpty : run.slots.isEmpty = false) :
    Reaches (fun fuel => deliverNext (environment dispatch discard) fuel run) session
      (fun next later => stage jobs next later ∧ next.slots.occupied < run.slots.occupied ∧
        (next.failure? = none → run.failure? = none)) interrupted := by
  refine (steers.waitNext isStage notEmpty).bind ?_ fun _ _ => rfl
  rintro ⟨completion, next⟩ _ ⟨session, board, isStage, announced, rfl⟩
  have delivered := steers.delivers isStage announced
  obtain ⟨slots, signals, isComplete, rfl, -⟩ := Run.complete?_eq_some_iff.mp announced
  have notZero : run.slots.occupied ≠ 0 := beq_eq_false_iff_ne.mp notEmpty
  refine Reaches.ofStep (Run.record { run with slots := slots }) ?_
  rcases ran : (dispatch completion).run.run (session.withBoard board) with ⟨_ | result, later⟩
  all_goals
    rw [ran] at delivered
    change ((environment dispatch discard).dispatch completion).run.run _ = _ at ran
    rw [ran]
  · exact delivered
  · refine ⟨delivered, ?_, failure?_of_record⟩
    rw [Run.slots_record, Slots.occupied_complete? isComplete]
    exact Nat.sub_one_lt notZero

/-- With nothing outstanding a run is drained. -/
theorem drain
    (steers : Steers dispatch stage interrupted)
    (isStage : stage jobs run session) :
    Reaches (fun fuel => drain (environment dispatch discard) fuel run) session
      (fun next later => stage jobs next later ∧ next.slots.isEmpty = true ∧
        (next.failure? = none → run.failure? = none)) interrupted := by
  induction outstanding : run.slots.occupied using Nat.strongRecOn generalizing run session with
  | ind count inductionHypothesis =>
      refine Reaches.ofSucc ?_ rfl
      simp only [Scheduler.drain]
      cases isEmpty : run.slots.isEmpty with
      | true => exact .ofPure (fun _ => rfl) ⟨isStage, isEmpty, id⟩
      | false =>
          refine (steers.deliverNext isStage isEmpty).bind ?_ fun _ _ => rfl
          rintro next later ⟨isStage, fewer, failed⟩
          refine (inductionHypothesis _ (outstanding ▸ fewer) isStage rfl).imp ?_
          rintro last lastSession ⟨isStage, isEmpty, failedThen⟩
          exact ⟨isStage, isEmpty, fun noFailure => failed (failedThen noFailure)⟩

private theorem launch_succ
    (jobs : List (Job SessionM κ))
    (run : Run κ String)
    (fuel : Nat) :
    launch (environment dispatch discard) (fuel + 1) jobs run =
      if run.failure?.isSome then pure (some (run, jobs))
      else if run.slots.isFull then
        Scheduler.deliverNext (environment dispatch discard) fuel run >>= fun next? =>
          match next? with
          | none => pure none
          | some run => launch (environment dispatch discard) fuel jobs run
      else
        match jobs with
        | [] => pure (some (run, []))
        | job :: jobs =>
            job.launch >>= fun operation =>
              occupyNext (environment dispatch discard) run ⟨operation, job.type, job.callback⟩ >>=
                launch (environment dispatch discard) fuel jobs := by
  cases jobs <;> simp only [launch]
  all_goals
    congr 2
    refine bind_congr fun next? => ?_
    cases next? <;> rfl

/-- A run launches its jobs until they end or something fails. -/
theorem launch
    (steers : Steers dispatch stage interrupted)
    (isStage : stage jobs run session) :
    Reaches (fun fuel => launch (environment dispatch discard) fuel jobs run) session
      (fun left later => stage left.2 left.1 later ∧ (left.1.failure? = none → left.2 = []))
      interrupted := by
  induction outstanding : 2 * jobs.length + run.slots.occupied using Nat.strongRecOn
    generalizing jobs run session with
  | ind count inductionHypothesis =>
      refine Reaches.ofSucc ?_ rfl
      simp only [launch_succ]
      cases failed : run.failure? with
      | some error =>
          refine .ofPure (fun _ => rfl) ⟨isStage, fun noFailure => ?_⟩
          cases failed.symm.trans noFailure
      | none =>
          cases isFull : run.slots.isFull with
          | true =>
              have notEmpty : run.slots.isEmpty = false := by
                have atLimit : run.slots.limit ≤ run.slots.occupied := of_decide_eq_true isFull
                exact beq_eq_false_iff_ne.mpr
                  (Nat.ne_of_gt (Nat.lt_of_lt_of_le (steers.limit_pos isStage) atLimit))
              refine (steers.deliverNext isStage notEmpty).bind ?_ fun _ _ => rfl
              rintro next later ⟨isStage, fewer, -⟩
              exact inductionHypothesis _ (outstanding ▸ Nat.add_lt_add_left fewer _) isStage rfl
          | false =>
              cases jobs with
              | nil => exact .ofPure (fun _ => rfl) ⟨isStage, fun _ => rfl⟩
              | cons job jobs =>
                  obtain ⟨operation, later, launched, isStage⟩ :=
                    steers.launches isStage failed isFull
                  refine Reaches.after launched (Reaches.after rfl
                    (inductionHypothesis _ ?_ isStage rfl))
                  change 2 * jobs.length + (run.slots.occupied + 1) < count
                  rw [← outstanding, List.length_cons]
                  omega

/-- A run that is steered launches its jobs until they end or something fails, and hands out
everything that is outstanding before it gives up the jobs that are left over. -/
theorem runFanOut
    {ended : Run κ String → Session → Prop}
    (steers : Steers dispatch stage interrupted)
    (limit : Nat)
    (begins : stage jobs (.start limit session.host.board.mailboxes.size)
      (session.withBoard session.host.board.openMailbox.1))
    (abandons : ∀ {left run session}, stage left run session → run.slots.isEmpty = true →
      (run.failure? = none → left = []) →
      ∃ last later, (abandonAll (environment dispatch discard) left run).run.run session =
        (.ok last, later) ∧ ended last later) :
    Reaches (fun fuel => runFanOut (environment dispatch discard) limit jobs fuel) session
      (fun result later => ∃ last, result = last.result ∧ ended last later) interrupted := by
  simp only [Scheduler.runFanOut]
  refine Reaches.after rfl ((steers.launch begins).bind ?_ fun _ _ => rfl)
  rintro left later ⟨isStage, noneLeft⟩
  refine (steers.drain isStage).bind ?_ fun _ _ => rfl
  rintro run later ⟨isStage, isEmpty, failed⟩
  obtain ⟨last, later, ran, isEnded⟩ := abandons isStage isEmpty fun noFailure =>
    noneLeft (failed noFailure)
  refine Reaches.ofStep Run.result ?_
  rw [ran]
  exact ⟨last, rfl, isEnded⟩

end Steers

end Scheduler
end ScriptHost
