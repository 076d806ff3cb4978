import ScriptHost.Proofs.Session.Scripted

/-!
# Sessions at rest

A session is at rest as long as no function of the host is being called. Then nothing is in
hand: each function that is parked waits to be called for a batch or a connection that is
stored, and the others have been released, however the calls of the host ended.
-/

namespace ScriptHost
namespace Session

variable {α : Type}

/-- A step has returned or thrown. -/
def HasEnded : Except Interruption α → Prop
  | .ok _ | .error (.thrown _) => True
  | .error .crashed | .error .stuck => False

instance (result : Except Interruption α) : Decidable (HasEnded result) :=
  match result with
  | .ok _ | .error (.thrown _) => .isTrue trivial
  | .error .crashed | .error .stuck => .isFalse id

/-- A session in which no function of the host is being called: it begins with a host that holds
nothing, and each step of its script has returned or thrown. A host that was shut down may be
called again. -/
inductive AtRest : Session → Prop
  | start {session : Session}
      (holdsNothing : session.host.holdings = ⟨.empty, 0, .empty, .empty⟩) :
      AtRest session
  | step {α : Type} {session : Session} {step : SessionM α}
      (atRest : AtRest session)
      (isScripted : Scripted step)
      (hasEnded : HasEnded (step.run.run session).1) :
      AtRest (step.run.run session).2
  | shutdown {session : Session}
      (atRest : AtRest session) :
      AtRest { session with host := session.host.shutdown }

/-- The answer that a request comes to. -/
def answerOf : Except Interruption Answer → Answer
  | .ok answer => answer
  | .error interruption => interruptedAnswer interruption

/-- A request is answered by a step of the script, unless it crashes or is stuck. -/
theorem exists_answering
    {session : Session}
    {request : Request}
    (notCrashed : (session.respond request).1.answer ≠ .crashed)
    (notStuck : (session.respond request).1.answer ≠ .stuck) :
    ∃ step : SessionM Answer, Permitted step ∧ HasEnded (step.run.run session).1 ∧
      (session.respond request).2 = (step.run.run session).2 := by
  let answering : SessionM Answer := do
    modify fun session =>
      { session with log := [], host := { session.host with printed := [] } }
    answer request
  have isPermitted : Permitted answering :=
    .bind (.aside fun _ => rfl) fun _ => permitted_answer request
  refine ⟨answering, isPermitted, ?_, rfl⟩
  have answered : (session.respond request).1.answer = answerOf (answering.run.run session).1 := rfl
  rcases ran : (answering.run.run session).1 with (_ | _ | _) | _
  · trivial
  · exact notCrashed (by rw [answered, ran]; rfl)
  · exact notStuck (by rw [answered, ran]; rfl)
  · trivial

/-- A session is at rest after it answered a request, unless it crashed or is stuck. -/
theorem AtRest.respond
    {session : Session}
    (atRest : AtRest session)
    (request : Request)
    (notCrashed : (session.respond request).1.answer ≠ .crashed)
    (notStuck : (session.respond request).1.answer ≠ .stuck) :
    AtRest (session.respond request).2 := by
  obtain ⟨step, isPermitted, hasEnded, sameSession⟩ := exists_answering notCrashed notStuck
  rw [sameSession]
  exact atRest.step isPermitted.scripted hasEnded

/-! ## Nothing in hand -/

/-- Whatever a script does leaves who owns what as it was, whatever is in hand meanwhile. -/
theorem Scripted.keeps
    {step : SessionM α}
    (isScripted : Scripted step)
    (hand : Multiset HandleKey) :
    Keeps (Owns hand) step := by
  induction isScripted generalizing hand with
  | aside leavesAlone =>
      constructor <;> intro session value later owns ran
      all_goals
        refine owns.congr ?_
        rw [← leavesAlone session, ran]
  | call _ name arguments inductionHypothesis =>
      have keeps : Keeps (Owns (keysIn (keyHand hand.toList))) (Natives.call _ name arguments) :=
        Natives.keeps_call stable_owns.lasting
          (fun function arguments hand => inductionHypothesis function arguments (keysIn hand))
          name arguments
      rw [keysIn_keyHand, Multiset.coe_toList] at keeps
      exact keeps
  | bind _ _ keepsFirst keepsNext => exact (keepsFirst hand).bind fun value => keepsNext value hand
  | caught _ inductionHypothesis =>
      exact (inductionHypothesis hand).caught.ofNever fun _ _ owns => owns

theorem Ensures.ofEnded
    {before after : Host → Prop}
    {step : SessionM α}
    {session : Session}
    (ensures : Ensures before step (fun _ => after) after)
    (holds : before session.host)
    (hasEnded : HasEnded (step.run.run session).1) :
    after (step.run.run session).2.host := by
  rcases ran : step.run.run session with ⟨(value | _ | _) | value, later⟩
  · exact ensures.ofThrown session value later holds ran
  · rw [ran] at hasEnded
    exact hasEnded.elim
  · rw [ran] at hasEnded
    exact hasEnded.elim
  · exact ensures.ofReturned session value later holds ran

theorem Keeps.ofEnded
    {kept : Host → Prop}
    {step : SessionM α}
    {session : Session}
    (keeps : Keeps kept step)
    (holds : kept session.host)
    (hasEnded : HasEnded (step.run.run session).1) :
    kept (step.run.run session).2.host :=
  Ensures.ofEnded keeps holds hasEnded

theorem AtRest.owns
    {session : Session}
    (atRest : AtRest session) :
    Owns 0 session.host := by
  induction atRest with
  | start holdsNothing => exact owns_of_start holdsNothing
  | step _ isScripted hasEnded inductionHypothesis =>
      exact (isScripted.keeps 0).ofEnded inductionHypothesis hasEnded
  | shutdown _ inductionHypothesis => exact inductionHypothesis.shutdown

/-- As long as no function of the host is being called, the functions that are parked are those
that stored batches and connections call. Of a host that is shut down nothing is left. -/
theorem liveCallables_eq_awaitingCalls
    {session : Session}
    (atRest : AtRest session)
    (keysLeft : session.host.parkings < UInt64.size) :
    session.host.liveCallables = session.host.awaitingCalls ∧
      session.host.shutdown.liveCallables = 0 ∧
      session.host.shutdown.pendingOperations = 0 ∧
      session.host.shutdown.batches.size = 0 ∧
      session.host.shutdown.openConnections = 0 :=
  ⟨atRest.owns.liveCallables_eq keysLeft, rfl, rfl, rfl, rfl⟩

/-- A script makes a batch of two processes and another one, and runs the first. Its function
throws at once, so that the second process is never told of. -/
def refusing : SessionM Value := do
  let batch ← Natives.call invoke "createBatchProcess" [.function (.script "refuse")]
  let process := [.string "work", .undefined, .undefined, .undefined]
  let onExit := Value.function (.script "ended")
  let _ ← Natives.call invoke "addBatchProcess" (batch :: process ++ [onExit])
  let _ ← Natives.call invoke "addBatchProcess" (batch :: process ++ [onExit])
  let _ ← Natives.call invoke "createBatchProcess" [.function (.script "told")]
  Natives.call invoke "runBatchProcess" [batch, .ofCount 1]

/-- The session before a batch is run whose function throws. -/
def beforeRefusing : Session :=
  .start (.start .default [] (.ofWorkspace "work"))
    ⟨[("refuse", [⟨[], .throwing (.value (.string "no")), true⟩])], []⟩

theorem scripted_refusing : Scripted refusing :=
  (Scripted.call scripted_invoke _ _).bind fun _ =>
    (Scripted.call scripted_invoke _ _).bind fun _ =>
      (Scripted.call scripted_invoke _ _).bind fun _ =>
        (Scripted.call scripted_invoke _ _).bind fun _ => .call scripted_invoke _ _

theorem atRest_refusing : AtRest (refusing.run.run beforeRefusing).2 :=
  AtRest.step (.start rfl) scripted_refusing (by decide +kernel)

/-- Of the four functions that were parked only that of the batch that was not run is left. -/
theorem refusing_liveCallables :
    let session := (refusing.run.run beforeRefusing).2
    AtRest session ∧ session.host.parkings = 4 ∧ session.host.batches.size = 1 ∧
      session.host.liveCallables = session.host.awaitingCalls ∧
      session.host.awaitingCalls = 1 := by
  have parkings : (refusing.run.run beforeRefusing).2.host.parkings = 4 := by decide +kernel
  refine ⟨atRest_refusing, parkings, by decide +kernel, ?_, by decide +kernel⟩
  exact (liveCallables_eq_awaitingCalls atRest_refusing (parkings ▸ by decide)).1

end Session
end ScriptHost
