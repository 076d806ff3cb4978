import ScriptHost.Proofs.Host.Occasions
import ScriptHost.Proofs.Session.AtRest

/-!
# After a connection is disposed of

A script may dispose of a connection at any time, also while its events are pumped. The pumps
that run then go on with the events that they found, and tell the functions that the connection
had. No other pump ever does: once they are over, nothing is told of the connection any more.
-/

namespace ScriptHost
namespace Session

variable {session : Session}

/-- A session that arises as its script is run: it begins with a host that nobody has called, and
each step does what a script may do and has returned or thrown. -/
inductive Arises : Session → Prop
  | start {session : Session}
      (isStart : session.host.affairs = .start session.host.machine) :
      Arises session
  | step {α : Type} {session : Session} {step : SessionM α}
      (arises : Arises session)
      (isPermitted : Permitted step)
      (hasEnded : HasEnded (step.run.run session).1) :
      Arises (step.run.run session).2

/-- A session that answers requests arises, unless it crashed or is stuck. -/
theorem Arises.respond
    (arises : Arises session)
    (request : Request)
    (notCrashed : (session.respond request).1.answer ≠ .crashed)
    (notStuck : (session.respond request).1.answer ≠ .stuck) :
    Arises (session.respond request).2 := by
  obtain ⟨step, isPermitted, hasEnded, sameSession⟩ := exists_answering notCrashed notStuck
  rw [sameSession]
  exact arises.step isPermitted hasEnded

/-- What is stable holds of whatever arises, if it holds in the beginning. -/
theorem Arises.holds
    {Holds : Multiset Possession → Host → Prop}
    (arises : Arises session)
    (stable : Stable Holds)
    (holdsAtStart : ∀ host, host.affairs = .start host.machine → Holds 0 host) :
    Holds 0 session.host := by
  induction arises with
  | start isStart => exact holdsAtStart _ isStart
  | step _ isPermitted hasEnded inductionHypothesis =>
      exact (isPermitted.keeps stable 0).ofEnded inductionHypothesis hasEnded

theorem Arises.chronicled (arises : Arises session) : Chronicled 0 session.host :=
  arises.holds stable_chronicled fun _ => chronicled_of_start

/-- After the script has disposed of a connection, only the pumps that ran then tell functions of
the connection's events, and each of them only until it is over. If none ran, nothing is told any
more. -/
theorem only_running_pumps_tell
    {handle : ScriptHandle}
    {before after : Occasions}
    (arises : Arises session)
    (happened : session.host.occasions = before ++ (handle, .disposed) :: after) :
    (before.running handle = 0 → after.IsHushed handle) ∧
      ∀ meanwhile function later, after = meanwhile ++ (handle, .tells function) :: later →
        (handle, .held) ∉ meanwhile →
          meanwhile.count (handle, .pumped) < before.running handle := by
  have lawful := arises.chronicled.lawful
  rw [happened] at lawful
  constructor
  · rintro noneRuns meanwhile function later rfl
    by_contra notAgain
    have someRuns := lawful.pumped_lt_running notAgain
    rw [noneRuns] at someRuns
    exact Nat.not_lt_zero _ someRuns
  · rintro meanwhile function later rfl notAgain
    exact lawful.pumped_lt_running notAgain

/-- A script starts a server and a client that says something at once, and pumps the events of
the server. -/
def serving : SessionM Value := do
  let config := Value.object [("endpoint", .string "127.0.0.1:7000"),
    ("onConnect", .function (.script "greet")), ("onDisconnect", .function (.script "miss")),
    ("onReceived", .function (.script "hear"))]
  let server ← Natives.call invoke "tcpServerStart" [config]
  let client ← Natives.call invoke "tcpClientStart" [config]
  let _ ← Natives.call invoke "tcpClientSend" [client, .int 1, .string "hello"]
  Natives.call invoke "tcpPumpEvents" [server]

/-- A script disposes of its server and pumps the events of the server and of the client. -/
def parting : SessionM Value := do
  let _ ← Natives.call invoke "tcpDispose" [.int 1]
  let _ ← caught (Natives.call invoke "tcpPumpEvents" [.int 1])
  Natives.call invoke "tcpPumpEvents" [.int 2]

/-- The session before a script serves that does something when it greets. -/
def beforeServing (greeting : List Step) : Session :=
  .start (.start .default [] (.ofWorkspace "work"))
    ⟨[("greet", [⟨greeting, .returning (.value .undefined), true⟩])], []⟩

theorem permitted_serving : Permitted serving :=
  (Permitted.call permitted_invoke _ _).bind fun _ =>
    (Permitted.call permitted_invoke _ _).bind fun _ =>
      (Permitted.call permitted_invoke _ _).bind fun _ => .call permitted_invoke _ _

theorem permitted_parting : Permitted parting :=
  (Permitted.call permitted_invoke _ _).bind fun _ =>
    (Permitted.call permitted_invoke _ _).caught.bind fun _ => .call permitted_invoke _ _

theorem arises_serving
    {greeting : List Step}
    (hasEnded : HasEnded (serving.run.run (beforeServing greeting)).1) :
    Arises (serving.run.run (beforeServing greeting)).2 :=
  .step (.start rfl) permitted_serving hasEnded

/-- A server that is disposed of after it has heard what its client said misses that the client
is gone. The client misses the server. -/
theorem parting_isHushed :
    let session := (parting.run.run (serving.run.run (beforeServing [])).2).2
    let before : Occasions :=
      [(⟨1⟩, .held), (⟨2⟩, .held), (⟨1⟩, .pumps), (⟨1⟩, .tells (.script "greet")),
        (⟨1⟩, .tells (.script "hear")), (⟨1⟩, .pumped)]
    let after : Occasions :=
      [(⟨2⟩, .pumps), (⟨2⟩, .tells (.script "greet")), (⟨2⟩, .tells (.script "miss")),
        (⟨2⟩, .pumped)]
    Arises session ∧ session.host.occasions = before ++ (⟨1⟩, .disposed) :: after ∧
      before.running ⟨1⟩ = 0 ∧ after.IsHushed ⟨1⟩ := by
  extract_lets session before after
  have arises : Arises session :=
    (arises_serving (by decide +kernel)).step permitted_parting (by decide +kernel)
  have happened : session.host.occasions = before ++ (⟨1⟩, .disposed) :: after := by
    decide +kernel
  have isHushed := (only_running_pumps_tell arises happened).1 (by decide)
  exact ⟨arises, happened, by decide, isHushed⟩

/-- A script disposes of its server. -/
def disposing : Step :=
  ⟨.call "tcpDispose" [.value (.int 1)], none, none, false⟩

/-- A server that is disposed of as it greets its first client still hears what that client has
said. -/
theorem not_isHushed_greeting :
    let session := (serving.run.run (beforeServing [disposing])).2
    let before : Occasions :=
      [(⟨1⟩, .held), (⟨2⟩, .held), (⟨1⟩, .pumps), (⟨1⟩, .tells (.script "greet"))]
    let after : Occasions := [(⟨1⟩, .tells (.script "hear")), (⟨1⟩, .pumped)]
    Arises session ∧ session.host.occasions = before ++ (⟨1⟩, .disposed) :: after ∧
      ¬after.IsHushed ⟨1⟩ := by
  refine ⟨arises_serving (by decide +kernel), by decide +kernel, fun isHushed => ?_⟩
  exact List.not_mem_nil (isHushed [] (.script "hear") [(⟨1⟩, .pumped)] rfl)

end Session
end ScriptHost
