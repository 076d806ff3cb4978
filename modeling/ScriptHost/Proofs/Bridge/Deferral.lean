import ScriptHost.Proofs.Bridge.Offers

/-!
# Events that wait for the next pass

What a sink tells the bridge during a pass is meant to wait for the next one. It does wait for
connections whose turn has started. What is appended for a connection before its turn is
delivered in the same pass, behind what was queued when the pass began; so it depends on the
order of the turns what waits. With a single connection everything waits.
-/

namespace ScriptHost
namespace Bridge

/-- Everything that happens in a pass waits for the next one: the pass delivers what was
queued when it began, and what was appended during it is queued at its end. -/
def World.Defers (world last : World) : Prop :=
  ∀ events, last.history = world.history ++ events → ∀ id,
    deliveredFor id events = (world.bridge.stateOf id).queue ∧
      (last.bridge.stateOf id).queue =
        appended (world.bridge.stateOf id) (noticesFor id events)

/-- A pass takes what is appended for a connection before its turn, and leaves the rest. -/
structure SplitsAtTurns
    (world : World)
    (events : List Happening)
    (last : World) : Prop where
  deliveredFor_eq : ∀ id, deliveredFor id events =
    (world.bridge.stateOf id).queue ++
      appended (world.bridge.stateOf id) (noticesFor id (beforeTurn id events))
  appended_eq : ∀ id, appended (world.bridge.stateOf id) (noticesFor id events) =
    appended (world.bridge.stateOf id) (noticesFor id (beforeTurn id events)) ++
      (last.bridge.stateOf id).queue

theorem offered_of_not_mem
    {events : List Happening}
    (neverClears : .told .clear ∉ events)
    (start : Bridge)
    (id : ConnectionId) :
    offered start id events =
      (start.stateOf id).queue ++ appended (start.stateOf id) (noticesFor id events) := by
  rw [offered, fullState, untilClear_of_not_mem neverClears, queue_noticedAll]

/-- What was delivered meanwhile and what is queued is what was queued and what was appended. -/
theorem Faithful.delivered_append_queue
    {limit : Nat}
    {past events : List Happening}
    {bridge next : Bridge}
    (before : Faithful limit ⟨bridge, past⟩)
    (after : Faithful limit ⟨next, past ++ events⟩)
    (id : ConnectionId) :
    deliveredFor id events ++ (next.stateOf id).queue =
      (bridge.stateOf id).queue ++ appended (bridge.stateOf id) (noticesFor id events) := by
  have isTold := (after.agrees id).events_eq
  have isMeant := ((before.agrees id).noticedAll (noticesFor id events)).events_eq
  rw [courseOf_append, deliveredFor_append, List.append_assoc] at isTold
  rw [← queue_noticedAll]
  exact List.append_cancel_left (isTold.trans isMeant.symm)

theorem Pass.splitsAtTurns
    {limit : Nat}
    {past : List Happening}
    {world last : World}
    {report : PassReport}
    (pass : Pass world report last)
    (isIdle : world.bridge.dispatching = false)
    (faithful : Faithful limit ⟨world.bridge, past⟩)
    (tracksOn : world.TracksOn last) :
    ∃ events, last.history = world.history ++ events ∧ SplitsAtTurns world events last := by
  obtain ⟨events, isHistory, remembers, isOffered⟩ := pass.delivers_offered isIdle faithful
  have neverClears := tracksOn events isHistory
  have isDelivered : ∀ id, deliveredFor id events = (world.bridge.stateOf id).queue ++
      appended (world.bridge.stateOf id) (noticesFor id (beforeTurn id events)) := by
    intro id
    rw [isOffered id, offered_of_not_mem]
    exact fun clears => neverClears ((beforeTurn_isPrefix id events).subset clears)
  refine ⟨events, isHistory, isDelivered, ?_⟩
  intro id
  rw [remembered_of_not_mem neverClears] at remembers
  have isConserved := faithful.delivered_append_queue remembers id
  rw [isDelivered id, List.append_assoc] at isConserved
  exact (List.append_cancel_left isConserved).symm

/-- Everything waits if nothing is appended for a connection before its turn. -/
theorem SplitsAtTurns.defers_iff
    {world last : World}
    {events : List Happening}
    (splits : SplitsAtTurns world events last)
    (isHistory : last.history = world.history ++ events) :
    world.Defers last ↔ ∀ id,
      appended (world.bridge.stateOf id) (noticesFor id (beforeTurn id events)) = [] := by
  constructor
  · intro defers id
    have isDelivered := (defers events isHistory id).1
    rw [splits.deliveredFor_eq id] at isDelivered
    exact List.append_right_eq_self.mp isDelivered
  · intro noneBefore others isOthers id
    obtain rfl : others = events := List.append_cancel_left (isOthers.symm.trans isHistory)
    have isDelivered := splits.deliveredFor_eq id
    have isLeft := splits.appended_eq id
    rw [noneBefore id] at isDelivered isLeft
    exact ⟨isDelivered.trans (List.append_nil _), isLeft.symm⟩

/-- If there is but one connection, nothing happens before its turn. -/
theorem Pass.beforeTurn_eq_nil
    {limit : Nat}
    {past : List Happening}
    {world last : World}
    {report : PassReport}
    (pass : Pass world report last)
    (isIdle : world.bridge.dispatching = false)
    (faithful : Faithful limit ⟨world.bridge, past⟩)
    (isSingle : world.bridge.tracked.length ≤ 1)
    {events : List Happening}
    (isHistory : last.history = world.history ++ events)
    (id : ConnectionId) :
    beforeTurn id events = [] := by
  cases pass with
  | nested isRunning => cases isRunning.symm.trans isIdle
  | @runs unmarked _ order _ isOrder visit =>
      have begins := faithful.underway isOrder
      rw [← isOrder.length_eq] at isSingle
      cases visit with
      | ends =>
          rw [List.append_right_eq_self.mp isHistory.symm]
          rfl
      | @turns turned key rest _ middle _ _ middleReport _ turn visit =>
          obtain rfl : rest = [] := List.length_eq_zero_iff.mp
            (Nat.le_zero.mp (Nat.le_of_succ_le_succ isSingle))
          cases visit
          obtain ⟨more, isMore, -, -, others, isHead⟩ :=
            turn.delivers_offered begins List.mem_cons_self rfl
          obtain rfl : events = more := List.append_cancel_left (isHistory.symm.trans isMore)
          by_cases same : id = turned
          · obtain rfl := same
            rcases isHead with rfl | ⟨event, rest, rfl⟩
            · rfl
            · exact @beforeTurn_append_delivered id [] rfl event rest
          · exact beforeTurn_of_deliveredFor_eq_nil (others id same)

section Runs

open Stateful

/-- What a sink reports during a pass on a bridge that came about by any calls waits for the
next pass, but for what is appended for a connection before its turn, which is delivered in
the same pass. So everything waits just if nothing is appended for a connection before its
turn, as when there is but one connection. -/
theorem dispatch_defers_iff
    {m : Type → Type}
    [Monad m]
    {σ : Type}
    [Stateful m σ]
    {view : σ → World}
    {calls : List (Call m)}
    {access : Access m}
    {limit : Nat}
    {start before after : σ}
    {report : PassReport}
    (callsObey : ∀ call ∈ calls, call.Obeys fun state world => world = view state)
    (isNew : view start = ⟨.new limit, []⟩)
    (hasRun : Returns (runAll calls) start () before)
    (obeys : access.Obeys fun state world => world = view state)
    (returned : Returns (dispatch access) before report after)
    (tracksOn : (view before).TracksOn (view after)) :
    ∃ events, (view after).history = (view before).history ++ events ∧
      SplitsAtTurns (view before) events (view after) ∧
      ((view before).Defers (view after) ↔ ∀ id,
        appended ((view before).bridge.stateOf id) (noticesFor id (beforeTurn id events)) = []) ∧
      ((view before).bridge.trackedConnections ≤ 1 → (view before).Defers (view after)) := by
  obtain ⟨world, life, rfl⟩ := life_of_runAll callsObey .begins rfl hasRun
  rw [isNew] at life
  obtain ⟨isIdle, -, past, -, faithful, -⟩ := life.remembers rfl (faithful_new limit)
  obtain ⟨last, pass, rfl⟩ := obeys.pass rfl returned
  obtain ⟨events, isHistory, splits⟩ := pass.splitsAtTurns isIdle faithful tracksOn
  have defersIff := splits.defers_iff isHistory
  refine ⟨events, isHistory, splits, defersIff, ?_⟩
  intro isSingle
  rw [defersIff]
  intro id
  rw [pass.beforeTurn_eq_nil isIdle faithful isSingle isHistory]
  exact appended_nil _

/-- A peer that ends another connection when its own begins. -/
def dismiss
    (id other : ConnectionId)
    (called : ConnectionId) : ConnectionEvent → List Input
  | .connected => if called = id then [.disconnect other] else []
  | .received _ | .disconnected => []

/-- Two connections that have begun. -/
def twoPeers : List (Call (StateM World)) :=
  [.connect ⟨"left"⟩, .connect ⟨"right"⟩].map tellCall

/-- A pass in which one peer ends the connection of another. -/
def dismissPass (world : World) : PassReport × World :=
  (dispatch (replyingAccess (dismiss ⟨"left"⟩ ⟨"right"⟩))).run world

theorem dismissPass_defers_iff :
    let before := ((runAll twoPeers).run ⟨.new 64, []⟩).2
    let after := (dismissPass before).2
    ∃ events, after.history = before.history ++ events ∧
      SplitsAtTurns before events after ∧
      (before.Defers after ↔ ∀ id,
        appended (before.bridge.stateOf id) (noticesFor id (beforeTurn id events)) = []) ∧
      (before.bridge.trackedConnections ≤ 1 → before.Defers after) := by
  intro before after
  have callsObey : ∀ call ∈ twoPeers, call.Obeys fun state world => world = state := by
    intro call member
    obtain ⟨input, -, rfl⟩ := List.mem_map.mp member
    exact obeys_tellCall input
  have neverClears : .told .clear ∉ after.history := by decide +kernel
  have tracksOn : before.TracksOn after := by
    intro events isEvents clears
    rw [isEvents] at neverClears
    exact neverClears (List.mem_append_right _ clears)
  have hasRun := returns_run (runAll twoPeers) (World.mk (.new 64) [])
  have returned : Returns _ before (dismissPass before).1 after :=
    returns_run (dispatch (replyingAccess (dismiss ⟨"left"⟩ ⟨"right"⟩))) before
  -- Elaborated on its own, so that the view is known before the worlds are compared.
  have split := dispatch_defers_iff callsObey rfl hasRun (obeys_replyingAccess _) returned tracksOn
  exact split

/-- The event of the connection that was ended does not wait. -/
theorem not_defers_dismissPass :
    let before := ((runAll twoPeers).run ⟨.new 64, []⟩).2
    ¬ before.Defers (dismissPass before).2 := by
  intro before defers
  have isHistory : (dismissPass before).2.history = before.history ++
      (delivery ⟨"left"⟩ .connected [.disconnect ⟨"right"⟩] false ++
        delivery ⟨"right"⟩ .connected [] false ++
        delivery ⟨"right"⟩ .disconnected [] false) := by
    decide +kernel
  have isDelivered := (defers _ isHistory ⟨"right"⟩).1
  revert isDelivered
  decide +kernel

end Runs

end Bridge
end ScriptHost
