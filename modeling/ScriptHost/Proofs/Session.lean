import ScriptHost.Session

/-!
# What a step leaves behind

A step of a session is told by what holds of the host before it, and of the host that it
leaves when it returns or throws. A step that crashes or is stuck leaves no host that
anything would be said about. Each way to put steps together has its rule.
-/

namespace ScriptHost
namespace Session

variable {α β : Type}

/-- A step is done in the session that the step before it has left, if that was not interrupted. -/
theorem run_bind
    (first : SessionM α)
    (next : α → SessionM β)
    (session : Session) :
    (first >>= next).run.run session =
      match first.run.run session with
      | (.ok value, later) => (next value).run.run later
      | (.error interruption, later) => (.error interruption, later) := by
  change (ExceptT.bindCont next (first.run.run session).1).run (first.run.run session).2 = _
  rcases first.run.run session with ⟨_ | _, later⟩ <;> rfl

/-- The session with another host. -/
def withHost (session : Session) (host : Host) : Session :=
  { session with host := host }

theorem run_theHost (session : Session) :
    theHost.run.run session = (.ok session.host, session) := rfl

/-- What is asked of the host is what it is at this time. -/
theorem run_theHost_bind
    (next : Host → SessionM α)
    (session : Session) :
    (theHost >>= next).run.run session = (next session.host).run.run session := by
  rw [run_bind, run_theHost]

theorem run_askHost
    (request : Host → α × Host)
    (session : Session) :
    (askHost request).run.run session =
      (.ok (request session.host).1, session.withHost (request session.host).2) := rfl

theorem run_changeHost
    (change : Host → Host)
    (session : Session) :
    (changeHost change).run.run session = (.ok (), session.withHost (change session.host)) := rfl

/-- If nothing is to come, waiting says so and leaves the session as it is. -/
theorem run_await_none
    {session : Session}
    (nothing : session.host.await? = none) :
    await.run.run session = (.ok false, session) := by
  rw [await, run_bind, run_theHost]
  dsimp only
  rw [nothing]
  rfl

/-- If something is to come, waiting lets it come. -/
theorem run_await
    {session : Session}
    {later : Host}
    (waited : session.host.await? = some later) :
    await.run.run session = (.ok true, session.withHost later) := by
  rw [await, run_bind, run_theHost]
  dsimp only
  rw [waited]
  rfl

/-- Whatever holds of the host before a step, something holds of the host that it leaves when
it returns, and of the one that it leaves when it throws. -/
structure Ensures
    (before : Host → Prop)
    (step : SessionM α)
    (returned : α → Host → Prop)
    (thrown : Host → Prop) : Prop where
  ofReturned : ∀ session value later, before session.host →
    step.run.run session = (.ok value, later) → returned value later.host
  ofThrown : ∀ session value later, before session.host →
    step.run.run session = (.error (.thrown value), later) → thrown later.host

/-- A step leaves something as it was, whether it returns or throws. -/
def Keeps
    (kept : Host → Prop)
    (step : SessionM α) : Prop :=
  Ensures kept step (fun _ => kept) kept

/-- What is said of a host that a step never leaves. -/
def never (_ : Host) : Prop :=
  False

variable {before : Host → Prop} {returned : α → Host → Prop} {thrown kept : Host → Prop}

/-! ## Rules -/

/-- A step ensures less after more. -/
theorem Ensures.weaken
    {earlier : Host → Prop}
    {laterReturned : α → Host → Prop}
    {laterThrown : Host → Prop}
    {step : SessionM α}
    (ensures : Ensures before step returned thrown)
    (isBefore : ∀ host, earlier host → before host)
    (isReturned : ∀ value host, returned value host → laterReturned value host)
    (isThrown : ∀ host, thrown host → laterThrown host) :
    Ensures earlier step laterReturned laterThrown where
  ofReturned session value later holds ran :=
    isReturned value _ (ensures.ofReturned session value later (isBefore _ holds) ran)
  ofThrown session value later holds ran :=
    isThrown _ (ensures.ofThrown session value later (isBefore _ holds) ran)

/-- A step ensures the same after more. -/
theorem Ensures.imp
    {earlier : Host → Prop}
    {step : SessionM α}
    (ensures : Ensures before step returned thrown)
    (isBefore : ∀ host, earlier host → before host) :
    Ensures earlier step returned thrown :=
  ensures.weaken isBefore (fun _ _ => id) fun _ => id

/-- A step that throws nothing may be said to leave anything when it throws. -/
theorem Ensures.ofNever
    {laterReturned : α → Host → Prop}
    {step : SessionM α}
    (ensures : Ensures before step returned never)
    (isReturned : ∀ value host, returned value host → laterReturned value host) :
    Ensures before step laterReturned thrown :=
  ensures.weaken (fun _ => id) isReturned fun _ => False.elim

/-- What holds whatever the host is may be taken for granted. -/
theorem ensures_of_fact
    {fact : Prop}
    {step : SessionM α}
    (ensures : fact → Ensures before step returned thrown) :
    Ensures (fun host => fact ∧ before host) step returned thrown where
  ofReturned session value later holds ran :=
    (ensures holds.1).ofReturned session value later holds.2 ran
  ofThrown session value later holds ran :=
    (ensures holds.1).ofThrown session value later holds.2 ran

/-- Anything may be said of what never happens. -/
theorem ensures_of_never
    {step : SessionM α} :
    Ensures never step returned thrown where
  ofReturned _ _ _ holds _ := holds.elim
  ofThrown _ _ _ holds _ := holds.elim

theorem ensures_pure
    {value : α}
    (isReturned : ∀ host, before host → returned value host) :
    Ensures before (pure value) returned thrown where
  ofReturned session result later holds ran := by
    cases ran
    exact isReturned _ holds
  ofThrown session thrownValue later holds ran := by cases ran

/-- What one step ensures, the next one may rely on. -/
theorem Ensures.bind
    {first : SessionM α}
    {next : α → SessionM β}
    {between : α → Host → Prop}
    {returned : β → Host → Prop}
    (ensuresFirst : Ensures before first between thrown)
    (ensuresNext : ∀ value, Ensures (between value) (next value) returned thrown) :
    Ensures before (first >>= next) returned thrown where
  ofReturned session value later holds ran := by
    rw [run_bind] at ran
    split at ran
    next middleValue middle firstRan =>
      exact (ensuresNext middleValue).ofReturned middle value later
        (ensuresFirst.ofReturned session middleValue middle holds firstRan) ran
    next => cases ran
  ofThrown session value later holds ran := by
    rw [run_bind] at ran
    split at ran
    next middleValue middle firstRan =>
      exact (ensuresNext middleValue).ofThrown middle value later
        (ensuresFirst.ofReturned session middleValue middle holds firstRan) ran
    next interruption middle firstRan =>
      cases ran
      exact ensuresFirst.ofThrown session value later holds firstRan

theorem ensures_throw
    {value : Value}
    (isThrown : ∀ host, before host → thrown host) :
    Ensures before (throw (.thrown value) : SessionM α) returned thrown where
  ofReturned session result later holds ran := by cases ran
  ofThrown session thrownValue later holds ran := by
    cases ran
    exact isThrown _ holds

theorem ensures_crashed : Ensures before (throw .crashed : SessionM α) returned thrown where
  ofReturned session result later holds ran := by cases ran
  ofThrown session value later holds ran := by cases ran

theorem ensures_stuck : Ensures before (throw .stuck : SessionM α) returned thrown where
  ofReturned session result later holds ran := by cases ran
  ofThrown session value later holds ran := by cases ran

theorem ensures_theHost :
    Ensures before theHost (fun seen host => seen = host ∧ before host) thrown where
  ofReturned session value later holds ran := by
    cases ran
    exact ⟨rfl, holds⟩
  ofThrown session value later holds ran := by cases ran

theorem ensures_changeHost
    {change : Host → Host}
    (returned : Unit → Host → Prop)
    (isReturned : ∀ host, before host → returned () (change host)) :
    Ensures before (changeHost change) returned thrown where
  ofReturned session value later holds ran := by
    cases ran
    exact isReturned _ holds
  ofThrown session value later holds ran := by cases ran

theorem ensures_askHost
    {request : Host → α × Host}
    (returned : α → Host → Prop)
    (isReturned : ∀ host, before host → returned (request host).1 (request host).2) :
    Ensures before (askHost request) returned thrown where
  ofReturned session value later holds ran := by
    cases ran
    exact isReturned _ holds
  ofThrown session value later holds ran := by cases ran

theorem ensures_get : Ensures before (get : SessionM Session) (fun _ => before) thrown where
  ofReturned session value later holds ran := by
    cases ran
    exact holds
  ofThrown session value later holds ran := by cases ran

theorem ensures_modify
    {change : Session → Session}
    (leaves : ∀ session, (change session).host = session.host) :
    Ensures before (modify change : SessionM Unit) (fun _ => before) thrown where
  ofReturned session value later holds ran := by
    cases ran
    exact (leaves session).symm ▸ holds
  ofThrown session value later holds ran := by cases ran

/-! ## Catching -/

/-- A step that is caught goes on with its handler where it was interrupted. -/
theorem run_tryCatch
    (step : SessionM α)
    (handle : Interruption → SessionM α)
    (session : Session) :
    (tryCatch step handle).run.run session =
      match step.run.run session with
      | (.ok value, later) => (.ok value, later)
      | (.error interruption, later) => (handle interruption).run.run later := by
  simp only [tryCatch, tryCatchThe, MonadExceptOf.tryCatch, ExceptT.tryCatch, ExceptT.mk,
    ExceptT.run, StateT.run, bind, StateT.bind]
  rcases step session with ⟨_ | _, later⟩ <;> rfl

/-- A caught step comes to what it returns or throws. -/
theorem run_caught
    (step : SessionM α)
    (session : Session) :
    (caught step).run.run session =
      match step.run.run session with
      | (.ok value, later) => (.ok (.ok value), later)
      | (.error (.thrown value), later) => (.ok (.error value), later)
      | (.error .crashed, later) => (.error .crashed, later)
      | (.error .stuck, later) => (.error .stuck, later) := by
  rw [caught, run_tryCatch, run_bind]
  rcases step.run.run session with ⟨(value | _ | _) | value, later⟩ <;> rfl

/-- A step that is caught is not interrupted any more. -/
theorem Ensures.caught
    {step : SessionM α}
    {after : Host → Prop}
    (ensures : Ensures before step (fun _ => after) after) :
    Ensures before (caught step) (fun _ => after) never where
  ofReturned session value later holds ran := by
    rw [run_caught] at ran
    split at ran
    next result middle stepRan =>
      cases ran
      exact ensures.ofReturned session result later holds stepRan
    next thrownValue middle stepRan =>
      cases ran
      exact ensures.ofThrown session thrownValue later holds stepRan
    all_goals cases ran
  ofThrown session value later holds ran := by
    rw [run_caught] at ran
    split at ran <;> cases ran

/-- A step whose failure is reported is not interrupted by it. -/
theorem Ensures.reported
    {step : SessionM α}
    {after : Host → Prop}
    (ensures : Ensures before step (fun _ => after) after) :
    Ensures before (reported step) (fun _ => after) never :=
  ensures.caught.bind fun _ => ensures_pure fun _ => id

/-- A step that is reported comes to what it returns, or to the words for what it throws. -/
theorem run_reported
    (step : SessionM α)
    (session : Session) :
    (reported step).run.run session =
      match step.run.run session with
      | (.ok value, later) => (.ok (.ok value), later)
      | (.error (.thrown value), later) => (.ok (.error value.thrownMessage), later)
      | (.error .crashed, later) => (.error .crashed, later)
      | (.error .stuck, later) => (.error .stuck, later) := by
  rw [reported, run_bind, run_caught]
  rcases step.run.run session with ⟨(value | _ | _) | value, later⟩ <;> rfl

/-! ## What is kept -/

/-- Steps that keep something keep it one after the other. -/
theorem Keeps.bind
    {first : SessionM α}
    {next : α → SessionM β}
    (keepsFirst : Keeps kept first)
    (keepsNext : ∀ value, Keeps kept (next value)) :
    Keeps kept (first >>= next) :=
  Ensures.bind keepsFirst keepsNext

theorem keeps_pure (value : α) : Keeps kept (pure value) :=
  ensures_pure fun _ => id

theorem keeps_raise (message : String) : Keeps kept (raise message : SessionM α) :=
  ensures_throw fun _ => id

theorem keeps_raiseType (message : String) : Keeps kept (raiseType message : SessionM α) :=
  ensures_throw fun _ => id

theorem keeps_converted (result : Except ConversionError α) : Keeps kept (converted result) := by
  cases result with
  | ok value => exact keeps_pure value
  | error error => exact keeps_raiseType _

theorem keeps_theHost : Keeps kept theHost :=
  ensures_theHost.weaken (fun _ => id) (fun _ _ => And.right) fun _ => id

theorem keeps_changeHost
    {change : Host → Host}
    (keeps : ∀ host, kept host → kept (change host)) :
    Keeps kept (changeHost change) :=
  ensures_changeHost _ keeps

/-- A request that keeps something is a step that does. -/
theorem keeps_askHost
    {request : Host → α × Host}
    (keeps : ∀ host, kept host → kept (request host).2) :
    Keeps kept (askHost request) :=
  ensures_askHost _ keeps

/-- What each step of a list keeps, all of them keep. -/
theorem keeps_mapM
    {step : α → SessionM β}
    (keeps : ∀ item, Keeps kept (step item))
    (items : List α) :
    Keeps kept (items.mapM step) := by
  induction items with
  | nil => exact keeps_pure []
  | cons item items inductionHypothesis =>
      rw [List.mapM_cons]
      exact (keeps item).bind fun _ => inductionHypothesis.bind fun _ => keeps_pure _

end Session
end ScriptHost
