import ScriptHost.Proofs.Host.Exits
import ScriptHost.Proofs.Session.AtRest

/-!
# Programs that are asked to end

A script may ask to end whenever it runs, but only a program takes the code. What the program comes
to is the last code that its script asked for meanwhile, however the request was made and whatever
became of it, or else what the program comes to by itself. All this goes for as long as nothing is
left over: a code that the script asked for in another call, and that no program has taken, counts
as the next program's own.
-/

namespace ScriptHost
namespace Session

variable {session : Session} {earlier : Exits}

/-! ## Requests -/

/-- The session that goes about a request: nothing is logged or printed yet. -/
def opened (session : Session) : Session :=
  { session with log := [], host := { session.host with printed := [] } }

/-- A request is answered: the session neither crashes nor is stuck. -/
def IsAnswered
    (session : Session)
    (request : Request) : Prop :=
  HasEnded ((answer request).run.run session.opened).1

instance (session : Session) (request : Request) : Decidable (session.IsAnswered request) :=
  inferInstanceAs (Decidable (HasEnded _))

/-- A session that serves requests one after the other and has answered them all. In the beginning
nobody has asked to end. -/
inductive Serves : Session → Prop
  | start {session : Session}
      (noExits : session.host.exitState = (none, [])) :
      Serves session
  | respond {session : Session} {request : Request}
      (serves : Serves session)
      (isAnswered : session.IsAnswered request) :
      Serves (session.respond request).2

/-- Requests to end are a matter of the call in which they are made: the script is told only of the
code that it asked for last in this call. What a program comes to is the last code that it asked
for, or else what it comes to by itself, and then nothing is left over. -/
structure OwnsExits
    (session : Session)
    (request : Request) : Prop where
  recalled : ∀ before code after,
    (session.respond request).2.host.exits =
      session.host.exits ++ (before ++ .recalled code :: after) →
    Exits.lastAsked? before = some code
  answered : ∀ program, request = .execute program → ∃ own later, ∃ meanwhile : Exits,
    (evaluated program).run.run session.opened = (.ok own, later) ∧
      later.host.exits = session.host.exits ++ meanwhile ∧ .taken ∉ meanwhile ∧
      (session.respond request).1.answer =
        meanwhile.lastAsked?.elim (programAnswer .code own) .code
  takes : ∀ program, request = .execute program →
    (session.respond request).2.host.exitRequest? = none

/-! ## Evaluation -/

section Evaluation

variable {Holds : Multiset Possession → Host → Prop}
  (lasting : Lasting Holds)
  (hand : Multiset Possession)

include lasting

/-- What deferred calls throw is dropped. -/
theorem ensures_runJobs (fuel : Nat) :
    Ensures (Holds hand) (runJobs fuel) (fun _ => Holds hand) never := by
  induction fuel with
  | zero => exact ensures_stuck
  | succ fuel inductionHypothesis =>
      refine ensures_get.bind fun seen => ?_
      split
      next => exact ensures_pure fun _ => id
      next job jobs _ =>
        refine Ensures.bind (ensures_modify fun _ => rfl) fun _ => ?_
        have keeps := (compliant_invoke (.script job) [.undefined]).keeps lasting hand
        exact (Ensures.caught keeps).bind fun _ => inductionHypothesis

/-- What a program throws is reported. -/
theorem ensures_evaluated (program : Act) :
    Ensures (Holds hand) (evaluated program) (fun _ => Holds hand) never := by
  have keeps := (compliant_performAct compliant_invoke [] program).keeps lasting hand
  refine (Ensures.reported keeps).bind fun result => ?_
  extract_lets ending
  have ends : Ensures (Holds hand) (ending ()) (fun _ => Holds hand) never :=
    ensures_pure fun _ => id
  split
  · exact (ensures_runJobs lasting hand _).bind fun _ => ends
  · exact ends

end Evaluation

/-- When no call is deferred, none is made. -/
theorem run_runJobs_nil
    {fuel : Nat}
    (hasFuel : fuel ≠ 0)
    (noJobs : session.jobs = []) :
    (runJobs fuel).run.run session = (.ok (), session) := by
  obtain ⟨fuel, rfl⟩ := Nat.exists_eq_succ_of_ne_zero hasFuel
  cases session
  cases noJobs
  rfl

/-- Before a program takes a code, it is evaluated. -/
theorem run_execute
    (program : Act)
    (session : Session) :
    (execute program).run.run session =
      match (evaluated program).run.run session with
      | (.ok own, later) =>
          (.ok (later.host.exitRequest?.elim own .ok), later.withHost later.host.takeExit.2)
      | (.error interruption, later) => (.error interruption, later) := by
  rw [execute_eq, run_bind]
  rcases (evaluated program).run.run session with ⟨_ | own, later⟩ <;> rfl

/-! ## Answers -/

/-- A step keeps what is lasting, but perhaps it takes a code in the end. -/
def GoesOn {α : Type} (step : SessionM α) : Prop :=
  ∀ (Holds : Multiset Possession → Host → Prop) (after : Host → Prop), Lasting Holds →
    (∀ host, Holds 0 host → after host) → (∀ host, Holds 0 host → after host.takeExit.2) →
      Ensures (Holds 0) step (fun _ => after) after

theorem Compliant.bindGoesOn
    {α β : Type}
    {first : SessionM α}
    {next : α → SessionM β}
    (isCompliant : Compliant first)
    (goesOn : ∀ value, GoesOn (next value)) :
    GoesOn (first >>= next) :=
  fun Holds after lasting stays takes => Ensures.bind (Ensures.weaken
    (isCompliant.keeps lasting 0) (fun _ => id) (fun _ _ => id) stays)
    fun value => goesOn value Holds after lasting stays takes

theorem goesOn_pure {α : Type} (value : α) : GoesOn (pure value) :=
  fun _ _ _ stays _ => ensures_pure stays

theorem GoesOn.map
    {α β : Type}
    {step : SessionM α}
    (goesOn : GoesOn step)
    (function : α → β) :
    GoesOn (do return function (← step)) :=
  fun Holds after lasting stays takes =>
    (goesOn Holds after lasting stays takes).bind fun _ => ensures_pure fun _ => id

theorem goesOn_execute (program : Act) : GoesOn (execute program) := by
  rw [execute_eq]
  refine (compliant_evaluated program).bindGoesOn fun own Holds after lasting stays takes => ?_
  exact Ensures.bind (ensures_askHost (fun _ => after) takes) fun code? => ensures_pure fun _ => id

theorem goesOn_executeFile (path : String) : GoesOn (executeFile path) := by
  refine compliant_theHost.bindGoesOn fun host => ?_
  split
  · exact goesOn_pure _
  · exact compliant_get.bindGoesOn fun _ => goesOn_execute _

theorem goesOn_answer (request : Request) : GoesOn (answer request) := by
  cases request with
  | step step =>
      exact (compliant_perform compliant_invoke _ _).bindGoesOn fun _ =>
        (compliant_noteEndpoints _).bindGoesOn fun _ => goesOn_pure _
  | execute program => exact (goesOn_execute program).map _
  | evaluateJson program => exact (compliant_evaluateJson _).bindGoesOn fun _ => goesOn_pure _
  | callFunction name => exact (compliant_callFunction _).bindGoesOn fun _ => goesOn_pure _
  | executeFile path program? =>
      cases program? with
      | none => exact (goesOn_executeFile path).map _
      | some program =>
          exact (compliant_writeProgram _ _).bindGoesOn fun _ => (goesOn_executeFile path).map _
  | settings => exact compliant_theHost.bindGoesOn fun _ => goesOn_pure _

/-- What befell requests to end after a record: nothing was taken, but perhaps in the end. -/
def HasGoneOn
    (earlier : Exits)
    (host : Host) : Prop :=
  ExitsSince earlier [] host ∨ ExitsSince earlier [.taken] host

/-- Whatever is asked of a session, it keeps the record of requests to end, and adds to it. -/
theorem hasGoneOn_respond
    {request : Request}
    (kept : ExitsKept session.host)
    (isAnswered : session.IsAnswered request) :
    HasGoneOn session.host.exits (session.respond request).2.host :=
  (goesOn_answer request _ _ (lasting_exitsSince session.host.exits) (fun _ => .inl)
    fun _ since => .inr since.takeExit).ofEnded
    ((ExitsSince.refl kept).congr rfl : ExitsSince _ _ session.opened.host) isAnswered

theorem Serves.exitsKept (serves : Serves session) : ExitsKept session.host := by
  induction serves with
  | start noExits =>
      obtain ⟨noRequest, noExits⟩ := Prod.mk.inj noExits
      refine ⟨noRequest.trans (noExits ▸ rfl), fun before code after same => ?_⟩
      rw [noExits] at same
      simp at same
  | respond _ isAnswered inductionHypothesis =>
      exact (hasGoneOn_respond inductionHypothesis isAnswered).elim ExitsSince.kept ExitsSince.kept

/-! ## Programs -/

theorem respond_of_run
    {request : Request}
    {response : Answer}
    {later : Session}
    (ran : (answer request).run.run session.opened = (.ok response, later)) :
    (session.respond request).1.answer = response ∧ (session.respond request).2 = later := by
  have sameAnswer : (session.respond request).1.answer =
      answerOf ((answer request).run.run session.opened).1 := rfl
  have sameSession : (session.respond request).2 =
      ((answer request).run.run session.opened).2 := rfl
  rw [sameAnswer, sameSession, ran]
  exact ⟨rfl, rfl⟩

/-- A program that was evaluated takes the code that is wanted then. -/
theorem respond_execute
    {program : Act}
    {own : Except ProgramError Int32}
    {later : Session}
    (ran : (evaluated program).run.run session.opened = (.ok own, later)) :
    (session.respond (.execute program)).1.answer =
        later.host.exitRequest?.elim (programAnswer .code own) .code ∧
      (session.respond (.execute program)).2 = later.withHost later.host.takeExit.2 := by
  refine respond_of_run ?_
  rw [answer, run_bind, run_execute, ran]
  dsimp only
  cases later.host.exitRequest? <;> rfl

/-- A program that is answered has been evaluated. -/
theorem IsAnswered.evaluated
    {program : Act}
    (isAnswered : session.IsAnswered (.execute program))
    (kept : ExitsKept session.host) :
    ∃ own later, (evaluated program).run.run session.opened = (.ok own, later) ∧
      ExitsSince session.host.exits [] later.host := by
  have since : ExitsSince session.host.exits [] session.opened.host :=
    (ExitsSince.refl kept).congr rfl
  have ensures := ensures_evaluated (lasting_exitsSince session.host.exits) 0 program
  rw [IsAnswered, answer, run_bind, run_execute] at isAnswered
  -- What is thrown is reported, so nothing but a crash or a wait for ever interrupts.
  rcases ran : (Session.evaluated program).run.run session.opened with
    ⟨(value | _ | _) | own, later⟩
  · exact (ensures.ofThrown _ _ _ since ran).elim
  · rw [ran] at isAnswered
    exact isAnswered.elim
  · rw [ran] at isAnswered
    exact isAnswered.elim
  · exact ⟨own, later, rfl, ensures.ofReturned _ _ _ since ran⟩

/-- What a program comes to that is answered. A code that is left over counts unless the script asks
for another one. -/
theorem IsAnswered.answer_execute
    {program : Act}
    (isAnswered : session.IsAnswered (.execute program))
    (kept : ExitsKept session.host) :
    ∃ own later, ∃ meanwhile : Exits,
      (Session.evaluated program).run.run session.opened = (.ok own, later) ∧
        later.host.exits = session.host.exits ++ meanwhile ∧ .taken ∉ meanwhile ∧
        (session.respond (.execute program)).1.answer =
          (meanwhile.lastAsked?.or session.host.exits.wanted?).elim (programAnswer .code own)
            .code := by
  obtain ⟨own, later, ran, since⟩ := isAnswered.evaluated kept
  obtain ⟨meanwhile, noneTaken, goesOn⟩ := since.goesOn
  rw [List.append_nil] at goesOn
  refine ⟨own, later, meanwhile, ran, goesOn, noneTaken, ?_⟩
  rw [(respond_execute ran).1, since.kept.request_eq, goesOn, Exits.wanted?_append _ noneTaken]

theorem IsAnswered.takes
    {program : Act}
    (isAnswered : session.IsAnswered (.execute program))
    (kept : ExitsKept session.host) :
    (session.respond (.execute program)).2.host.exitRequest? = none := by
  obtain ⟨own, later, ran, -⟩ := isAnswered.evaluated kept
  rw [(respond_execute ran).2]
  rfl

/-! ## What is left over -/

/-- A program that only throws. -/
def throwing : Act :=
  ⟨[], .throwing (.value .undefined), false⟩

theorem run_evaluated_throwing (session : Session) :
    (evaluated throwing).run.run session =
      (.ok (.error (.uncaught Value.undefined.thrownMessage)), session) := rfl

/-- Each call goes by its own requests to end if and only if nothing is left over from calls before
it. -/
theorem ownsExits_iff (serves : Serves session) :
    (∀ request, session.IsAnswered request → session.OwnsExits request) ↔
      session.host.exits.wanted? = none := by
  have kept := serves.exitsKept
  constructor
  · intro owns
    -- By itself this program has no code, so one that it comes to was left over.
    have isAnswered : session.IsAnswered (.execute throwing) := by
      rw [IsAnswered, answer, run_bind, run_execute, run_evaluated_throwing]
      trivial
    obtain ⟨own, later, meanwhile, ran, goesOn, -, answered⟩ :=
      (owns _ isAnswered).answered throwing rfl
    rw [run_evaluated_throwing] at ran
    cases ran
    have nothingAsked : meanwhile = [] := List.self_eq_append_right.mp goesOn
    rw [(respond_execute (run_evaluated_throwing _)).1, nothingAsked] at answered
    change session.host.exitRequest?.elim _ _ = _ at answered
    rw [kept.request_eq] at answered
    cases wanted : session.host.exits.wanted? with
    | none => rfl
    | some code =>
        rw [wanted] at answered
        cases answered
  · intro nothingWanted request isAnswered
    refine ⟨fun before code after recalled => ?_, ?_, ?_⟩
    · rcases hasGoneOn_respond kept isAnswered with since | since
      · exact since.lastAsked?_of_recalled (.inl rfl) nothingWanted recalled
      · exact since.lastAsked?_of_recalled (.inr rfl) nothingWanted recalled
    · rintro program rfl
      have answered := isAnswered.answer_execute kept
      simp only [nothingWanted, Option.or_none] at answered
      exact answered
    · rintro program rfl
      exact isAnswered.takes kept

/-- A script that asks to end when it greets. -/
def beforeLeaving : Session :=
  .start (.start .default [] (.ofWorkspace "work"))
    ⟨[("greet", [⟨[⟨.call "exit" [.value (.int 7)], none, none, true⟩],
      .returning (.value .undefined), true⟩])], []⟩

/-- A program starts a server and a client, and pumps the events of the server. It catches
whatever is thrown, and returns one. -/
def leaving : Act :=
  let config := Term.value (.object [("endpoint", .string "127.0.0.1:7000"),
    ("onConnect", .function (.script "greet"))])
  ⟨[⟨.call "tcpServerStart" [config], some "server", none, false⟩,
      ⟨.call "tcpClientStart" [config], none, none, false⟩,
      ⟨.call "tcpPumpEvents" [.saved "server"], none, none, false⟩],
    .returning (.value (.int 1)), false⟩

/-- A program that asked to end when it was called back has taken the code, and the next one goes
by its own requests. -/
theorem leaving_ownsExits :
    let session := (beforeLeaving.respond (.execute leaving)).2
    Serves session ∧ session.host.exits = [.asked 7, .recalled 7, .taken] ∧
      session.IsAnswered (.execute leaving) ∧ session.OwnsExits (.execute leaving) := by
  extract_lets session
  have serves : Serves session := .respond (.start rfl) (by decide +kernel)
  have happened : session.host.exits = [.asked 7, .recalled 7, .taken] := by decide +kernel
  have isAnswered : session.IsAnswered (.execute leaving) := by decide +kernel
  exact ⟨serves, happened, isAnswered,
    (ownsExits_iff serves).mpr (by rw [happened]; rfl) _ isAnswered⟩

/-- A program asks to end and catches what is thrown. -/
def asking : Act :=
  ⟨[⟨.call "exit" [.value (.int 7)], none, none, false⟩], .returning (.value .undefined), false⟩

/-- A program that only returns one. -/
def returning : Act :=
  ⟨[], .returning (.value (.int 1)), false⟩

theorem run_evaluated_returning (noJobs : session.jobs = []) :
    (evaluated returning).run.run session = (.ok (.ok 1), session) := by
  have performed : (performAct invoke [] returning).run.run session = (.ok (.int 1), session) := rfl
  have made : (runJobs jobFuel).run.run session = (.ok (), session) :=
    run_runJobs_nil (Nat.succ_ne_zero _) noJobs
  rw [evaluated, run_bind, run_reported, performed]
  change (runJobs jobFuel >>= fun _ =>
    (pure (.ok 1) : SessionM (Except ProgramError Int32))).run.run session = _
  rw [run_bind, made]
  rfl

/-- What the script asked for while it was evaluated for its value, a program comes to that only
returns. -/
theorem not_ownsExits_returning :
    let session := (beforeLeaving.respond (.evaluateJson asking)).2
    Serves session ∧ session.host.exits = [.asked 7] ∧
      (session.respond (.execute returning)).1.answer = .code 7 ∧
      ¬session.OwnsExits (.execute returning) := by
  extract_lets session
  have serves : Serves session := .respond (.start rfl) (by decide +kernel)
  have happened : session.host.exits = [.asked 7] := by decide +kernel
  have wanted : session.host.exitRequest? = some 7 := by
    rw [serves.exitsKept.request_eq, happened]
    rfl
  have ran : (evaluated returning).run.run session.opened = (.ok (.ok 1), session.opened) :=
    run_evaluated_returning (by decide +kernel)
  have answered : (session.respond (.execute returning)).1.answer = .code 7 := by
    rw [(respond_execute ran).1]
    change session.host.exitRequest?.elim _ _ = _
    rw [wanted]
    rfl
  refine ⟨serves, happened, answered, fun owns => ?_⟩
  obtain ⟨own, later, meanwhile, ownRan, goesOn, -, ownAnswered⟩ := owns.answered returning rfl
  rw [ran] at ownRan
  cases ownRan
  have nothingAsked : meanwhile = [] := List.self_eq_append_right.mp goesOn
  rw [answered, nothingAsked] at ownAnswered
  cases ownAnswered

end Session
end ScriptHost
