import ScriptHost.Proofs.Bridge.Queues

/-!
# Separation of connections

The connections of a bridge share its map, the mark that a pass is running, and every pass.
Still, what the bridge does for a connection is what it does when it hears of no other one.
So it hands out the same events in every pass, and knows the same of the connection
afterwards, whatever is reported about others and in whatever order a pass visits them.
-/

namespace ScriptHost
namespace Bridge

/-! ## One connection on its own -/

/-- Something that a bridge is asked for: to hear something, or to make a pass. -/
inductive Operation
  | tell (input : Input)
  | pass
  deriving DecidableEq

/-- A report concerns the connection that it is about. A pass concerns all. -/
def Operation.concerns (id : ConnectionId) : Operation → Bool
  | tell input => (input.notice? id).isSome
  | pass => true

/-- The state of a connection after a notice. A connection that is not tracked is tracked
once it begins; no other notice about it is heeded. -/
def heeded
    (limit : Nat)
    (state? : Option ConnectionState) : Notice → Option ConnectionState
  | .begins => some (state?.getD (.fresh limit)).connect
  | .ends => state?.map ConnectionState.disconnect
  | .brings chunk => state?.map fun state => state.receive chunk

/-- The events that are queued for a connection. -/
def queued (state? : Option ConnectionState) : List ConnectionEvent :=
  state?.elim [] ConnectionState.queue

/-- The state of a connection once all that was queued is delivered. A connection that is
over is forgotten. -/
def drained (state : ConnectionState) : Option ConnectionState :=
  if state.connected then some { state with queue := [] } else none

/-- What a bridge does for a connection if there are no others: the events that it hands out
in each pass, and the state in which it leaves the connection. -/
def alone
    (limit : Nat)
    (id : ConnectionId) :
    Option ConnectionState → List Operation →
      List (List ConnectionEvent) × Option ConnectionState
  | state?, [] => ([], state?)
  | state?, .tell input :: operations =>
      alone limit id ((input.notice? id).elim state? (heeded limit state?)) operations
  | state?, .pass :: operations =>
      let (passes, last?) := alone limit id (state?.bind drained) operations
      (queued state? :: passes, last?)

/-- What does not concern a connection makes no difference to it. -/
theorem alone_filter_concerns
    (limit : Nat)
    (id : ConnectionId)
    (state? : Option ConnectionState)
    (operations : List Operation) :
    alone limit id state? (operations.filter (Operation.concerns id)) =
      alone limit id state? operations := by
  induction operations generalizing state? with
  | nil => rfl
  | cons operation operations inductionHypothesis =>
      cases operation with
      | pass =>
          rw [List.filter_cons_of_pos rfl, alone, alone, inductionHypothesis]
      | tell input =>
          cases isNotice : input.notice? id with
          | none =>
              rw [List.filter_cons_of_neg (by simp [Operation.concerns, isNotice]),
                inductionHypothesis, alone, isNotice, Option.elim_none]
          | some notice =>
              rw [List.filter_cons_of_pos (by simp [Operation.concerns, isNotice]), alone,
                alone, inductionHypothesis]

/-! ## Reports -/

/-- A connection heeds what it is told, as long as the bridge is not cleared. -/
theorem Sound.state?_onBridge
    {bridge : Bridge}
    (sound : bridge.Sound)
    {input : Input}
    (tracksOn : input ≠ .clear)
    (id : ConnectionId) :
    (input.onBridge bridge).state? id =
      (input.notice? id).elim (bridge.state? id) (heeded bridge.limit (bridge.state? id)) := by
  cases input with
  | connect other =>
      rw [Input.onBridge, sound.state?_onConnected, Input.notice?]
      by_cases same : id = other
      · rw [if_pos same, if_pos same, same]
        rfl
      · rw [if_neg same, if_neg same, Option.elim_none]
  | disconnect other =>
      rw [Input.onBridge, onDisconnected, sound.state?_update, Input.notice?]
      by_cases same : id = other
      · rw [if_pos same, if_pos same, same]
        rfl
      · rw [if_neg same, if_neg same, Option.elim_none]
  | receive other chunk =>
      rw [Input.onBridge, onBytesReceived, sound.state?_update, Input.notice?]
      by_cases same : id = other
      · rw [if_pos same, if_pos same, same]
        rfl
      · rw [if_neg same, if_neg same, Option.elim_none]
  | clear => exact absurd rfl tracksOn

/-! ## Passes in which nothing is told -/

/-- Nothing is told between two worlds. -/
def World.Silent (world last : World) : Prop :=
  ∃ events, last.history = world.history ++ events ∧ ∀ input, .told input ∉ events

namespace World.Silent

variable {world middle last : World}

theorem refl (world : World) : world.Silent world :=
  ⟨[], (List.append_nil _).symm, fun _ => List.not_mem_nil⟩

/-- What is silent in two parts is silent. -/
theorem trans
    (before : world.Silent middle)
    (after : middle.Silent last) :
    world.Silent last := by
  obtain ⟨first, isFirst, noneFirst⟩ := before
  obtain ⟨second, isSecond, noneSecond⟩ := after
  refine ⟨first ++ second, by rw [isSecond, isFirst, List.append_assoc], ?_⟩
  intro input member
  rcases List.mem_append.mp member with isBefore | isAfter
  · exact noneFirst input isBefore
  · exact noneSecond input isAfter

/-- What is silent throughout is silent in every part. -/
theorem split
    (silent : world.Silent last)
    (before : world.history <+: middle.history)
    (after : middle.history <+: last.history) :
    world.Silent middle ∧ middle.Silent last := by
  obtain ⟨events, isWhole, noneTold⟩ := silent
  obtain ⟨first, isFirst⟩ := before
  obtain ⟨second, isSecond⟩ := after
  have isEvents : events = first ++ second := by
    rw [← isSecond, ← isFirst, List.append_assoc] at isWhole
    exact (List.append_cancel_left isWhole).symm
  subst isEvents
  exact ⟨⟨first, isFirst.symm, fun input member =>
      noneTold input (List.mem_append_left _ member)⟩,
    ⟨second, isSecond.symm, fun input member =>
      noneTold input (List.mem_append_right _ member)⟩⟩

/-- What is silent tracks on. -/
theorem tracksOn (silent : world.Silent last) : world.TracksOn last := by
  obtain ⟨events, isWhole, noneTold⟩ := silent
  intro others isOthers
  rw [isWhole, List.append_cancel_left_eq] at isOthers
  exact isOthers ▸ noneTold .clear

/-- A sink that tells nothing leaves the bridge as it is. -/
theorem bridge_delivery
    {id : ConnectionId}
    {event : ConnectionEvent}
    {inputs : List Input}
    {succeeded : Bool}
    (silent : world.Silent (world.noteAll (delivery id event inputs succeeded))) :
    (world.noteAll (delivery id event inputs succeeded)).bridge = world.bridge := by
  obtain ⟨events, isWhole, noneTold⟩ := silent
  rw [World.history_noteAll, List.append_cancel_left_eq] at isWhole
  subst isWhole
  cases inputs with
  | nil => rfl
  | cons input inputs => exact absurd (by simp [delivery]) (noneTold input)

end World.Silent

/-- What a part of a pass does in which nothing is told: it hands out all that is queued for
the connections that it visits, forgets those that are over, and leaves the others alone. -/
structure Drains
    (visited : List ConnectionId)
    (world last : World) : Prop where
  sound : last.bridge.Sound
  limit_eq : last.bridge.limit = world.bridge.limit
  key?_eq : ∀ ⦃id : ConnectionId⦄, id ∉ visited → last.bridge.key? id = world.bridge.key? id
  state?_eq : ∀ id, last.bridge.state? id =
    if id ∈ visited then (world.bridge.state? id).bind drained else world.bridge.state? id
  handsOut : ∃ events, last.history = world.history ++ events ∧ ∀ id, deliveredFor id events =
    if id ∈ visited then queued (world.bridge.state? id) else []

namespace Drains

theorem none
    {world : World}
    (sound : world.bridge.Sound) :
    Drains [] world world where
  sound := sound
  limit_eq := rfl
  key?_eq _ _ := rfl
  state?_eq _ := (if_neg List.not_mem_nil).symm
  handsOut := ⟨[], (List.append_nil _).symm, fun _ => (if_neg List.not_mem_nil).symm⟩

/-- Connections can be drained one after the other. -/
theorem trans
    {first second : List ConnectionId}
    {world middle last : World}
    (before : Drains first world middle)
    (after : Drains second middle last)
    (apart : first.Disjoint second) :
    Drains (first ++ second) world last where
  sound := after.sound
  limit_eq := after.limit_eq.trans before.limit_eq
  key?_eq id notVisited := by
    rw [List.mem_append, not_or] at notVisited
    exact (after.key?_eq notVisited.2).trans (before.key?_eq notVisited.1)
  state?_eq id := by
    rw [after.state?_eq, before.state?_eq]
    by_cases isFirst : id ∈ first
    · rw [if_pos isFirst, if_neg (apart isFirst), if_pos (List.mem_append_left _ isFirst)]
    · simp only [isFirst, if_false, List.mem_append, false_or]
  handsOut := by
    obtain ⟨events, isEvents, areHandedOut⟩ := before.handsOut
    obtain ⟨more, isMore, alsoHandedOut⟩ := after.handsOut
    refine ⟨events ++ more, by rw [isMore, isEvents, List.append_assoc], ?_⟩
    intro id
    rw [deliveredFor_append, areHandedOut, alsoHandedOut, before.state?_eq]
    by_cases isFirst : id ∈ first
    · rw [if_pos isFirst, if_neg (apart isFirst), if_pos (List.mem_append_left _ isFirst),
        List.append_nil]
    · simp only [isFirst, if_false, List.nil_append, List.mem_append, false_or]

end Drains

/-- While nothing is told, a turn takes events from the queue of its connection and does
nothing else to the bridge. -/
theorem Turn.state?_eq
    {id : ConnectionId}
    {key : StateKey}
    {budget : Nat}
    {world last : World}
    {report lastReport : PassReport}
    (turn : Turn id key budget world report last lastReport)
    (silent : world.Silent last)
    (sound : world.bridge.Sound)
    (found : world.bridge.key? id = some key) :
    last.bridge.limit = world.bridge.limit ∧
      (∀ other, last.bridge.key? other = world.bridge.key? other) ∧
      ∀ other, last.bridge.state? other =
        if other = id then (world.bridge.state? id).map fun state => skip state budget
        else world.bridge.state? other := by
  induction turn with
  | spent world report =>
      refine ⟨rfl, fun _ => rfl, fun other => ?_⟩
      by_cases same : other = id
      · rw [if_pos same, same]
        exact Option.map_id.symm ▸ rfl
      · rw [if_neg same]
  | @runsOut world budget report isEmpty =>
      refine ⟨rfl, fun _ => rfl, fun other => ?_⟩
      by_cases same : other = id
      · have isSkipped : skip (world.bridge.stateAt key) (budget + 1) =
            world.bridge.stateAt key := by
          rw [skip, popAt_eq_none_iff.mp isEmpty, List.drop_nil, ← popAt_eq_none_iff.mp isEmpty]
        rw [if_pos same, same, state?, found, Option.map_some, Option.map_some, isSkipped]
      · rw [if_neg same]
  | @delivers world last bridge event budget report lastReport inputs succeeded isNext turn
      inductionHypothesis =>
      have before : world.history <+: ({ world with bridge := bridge }.noteAll
          (delivery id event inputs succeeded)).history := by
        rw [World.history_noteAll]
        exact List.prefix_append ..
      obtain ⟨silentNow, silentLater⟩ := silent.split before turn.history_prefix
      have isBridge := @World.Silent.bridge_delivery { world with bridge := bridge } id event
        inputs succeeded silentNow
      obtain ⟨queue, isQueue, rfl⟩ := popAt_eq_some_iff.mp isNext
      rw [isBridge] at inductionHypothesis
      obtain ⟨limit_eq, keys, states⟩ :=
        inductionHypothesis silentLater (sound.updateAt _ _) found
      refine ⟨limit_eq, keys, fun other => ?_⟩
      have isTaken : { world.bridge.stateAt key with queue := queue } =
          skip (world.bridge.stateAt key) 1 := by
        rw [skip, isQueue, List.drop_one, List.tail_cons]
      rw [states other, sound.state?_updateAt found, if_pos rfl]
      by_cases same : other = id
      · rw [if_pos same, if_pos same, state?, found, Option.map_some, Option.map_some,
          Option.map_some, Option.map_some, isTaken, skip_skip, Nat.add_comm]
      · rw [if_neg same, if_neg same, sound.state?_updateAt found, if_neg same]

/-- A turn and what follows it drain its connection. -/
theorem Turn.drains
    {id : ConnectionId}
    {key : StateKey}
    {world last : World}
    {report lastReport : PassReport}
    (turn : Turn id key (world.bridge.stateAt key).queue.length world report last lastReport)
    (silent : world.Silent last)
    (sound : world.bridge.Sound)
    (found : world.bridge.key? id = some key) :
    Drains [id] world { last with bridge := last.bridge.retireIfIdle id } := by
  obtain ⟨events, progress, -, isDelivered, -⟩ :=
    turn.delivers_queue silent.tracksOn sound found
  obtain ⟨limit_eq, keys, states⟩ := turn.state?_eq silent sound found
  have isState : world.bridge.state? id = some (world.bridge.stateAt key) := by
    rw [state?, found, Option.map_some]
  have isSkipped : last.bridge.state? id =
      some { world.bridge.stateAt key with queue := [] } := by
    rw [states, if_pos rfl, isState, Option.map_some, skip, List.drop_length]
  refine ⟨progress.sound.retireIfIdle id, (limit_retireIfIdle ..).trans limit_eq, ?_, ?_,
    events, progress.history_eq, ?_⟩
  · intro other isOther
    exact (key?_retireIfIdle _ fun same => isOther (List.mem_singleton.mpr same)).trans
      (keys other)
  · intro other
    rw [state?_retireIfIdle]
    by_cases same : other = id
    · rw [if_pos (List.mem_singleton.mpr same), same, isSkipped, isState, Option.bind_some,
        drained, Option.any_some, ConnectionState.isIdle]
      cases connected : (world.bridge.stateAt key).connected <;> simp [connected]
    · rw [if_neg fun both => same both.1, if_neg fun member => same (List.mem_singleton.mp member),
        states, if_neg same]
  · intro other
    by_cases same : other = id
    · rw [if_pos (List.mem_singleton.mpr same), same, isDelivered, isState,
        stateAt_of_key?_eq_some found]
      rfl
    · rw [if_neg fun member => same (List.mem_singleton.mp member)]
      exact progress.deliveredFor_eq fun member => same (List.mem_singleton.mp member)

/-- A visit drains the connections that it visits. -/
theorem Visit.drains
    {order : List (ConnectionId × StateKey)}
    {world last : World}
    {report lastReport : PassReport}
    (visit : Visit order world report last lastReport)
    (silent : world.Silent last)
    (sound : world.bridge.Sound)
    (distinct : (order.map Prod.fst).Nodup)
    (areTracked : ∀ entry ∈ order, world.bridge.key? entry.1 = some entry.2) :
    Drains (order.map Prod.fst) world last := by
  induction visit with
  | ends world report => exact .none sound
  | @turns id key rest world middle last report middleReport lastReport turn visit
      inductionHypothesis =>
      obtain ⟨silentNow, silentLater⟩ := silent.split turn.history_prefix visit.history_prefix
      have first := turn.drains silentNow sound (areTracked _ List.mem_cons_self)
      obtain ⟨isFirst, distinct⟩ := List.nodup_cons.mp distinct
      have isApart : [id].Disjoint (rest.map Prod.fst) := by
        intro other isId member
        exact isFirst (List.mem_singleton.mp isId ▸ member)
      refine first.trans (inductionHypothesis silentLater first.sound distinct ?_) isApart
      intro entry member
      refine (first.key?_eq fun isId => ?_).trans
        (areTracked entry (List.mem_cons_of_mem _ member))
      exact isApart isId (List.mem_map_of_mem member)

/-- A pass in which nothing is told hands out all that is queued for every connection, and
forgets those that are over. -/
structure DrainsAll (world last : World) : Prop where
  sound : last.bridge.Sound
  isIdle : last.bridge.dispatching = false
  limit_eq : last.bridge.limit = world.bridge.limit
  state?_eq : ∀ id, last.bridge.state? id = (world.bridge.state? id).bind drained
  handsOut : ∃ events, last.history = world.history ++ events ∧
    ∀ id, deliveredFor id events = queued (world.bridge.state? id)

/-- A pass that finds nobody dispatching drains all connections. -/
theorem Pass.drainsAll
    {world last : World}
    {report : PassReport}
    (pass : Pass world report last)
    (isIdle : world.bridge.dispatching = false)
    (silent : world.Silent last)
    (sound : world.bridge.Sound) :
    DrainsAll world last := by
  cases pass with
  | nested isRunning => cases isRunning.symm.trans isIdle
  | @runs unmarked _ order _ isOrder visit =>
      have distinct : (order.map Prod.fst).Nodup :=
        (isOrder.map Prod.fst).nodup_iff.mpr sound.nodup_names
      have drains := visit.drains silent (sound.mark true) distinct fun entry member =>
        sound.key?_of_mem (isOrder.subset member)
      have untracked : ∀ id, id ∉ order.map Prod.fst → world.bridge.state? id = none := by
        intro id notVisited
        rw [(isOrder.map Prod.fst).mem_iff] at notVisited
        rw [state?, (key?_eq_none_iff ..).mpr notVisited, Option.map_none]
      obtain ⟨events, isEvents, areHandedOut⟩ := drains.handsOut
      refine ⟨drains.sound.mark false, rfl, drains.limit_eq, ?_, events, isEvents, ?_⟩
      · intro id
        refine (drains.state?_eq id).trans ?_
        by_cases isVisited : id ∈ order.map Prod.fst
        · rw [if_pos isVisited]
          rfl
        · rw [if_neg isVisited, untracked id isVisited]
          exact untracked id isVisited
      · intro id
        rw [areHandedOut]
        by_cases isVisited : id ∈ order.map Prod.fst
        · rw [if_pos isVisited]
          rfl
        · rw [if_neg isVisited, untracked id isVisited]
          rfl

/-! ## Whole runs -/

section Runs

open Stateful

variable {m : Type → Type} [Monad m] {σ : Type} [Stateful m σ] {view : σ → World}

/-- What a call asks for. -/
def Call.operation : Call m → Operation
  | tell input _ => .tell input
  | dispatch _ => .pass

/-- The sink of a host tells the bridge nothing while it is called. -/
def Access.IsQuiet
    (access : Access m)
    (view : σ → World) : Prop :=
  ∀ ⦃id event before succeeded after⦄, Returns (access.sink id event) before succeeded after →
    (view before).Silent (view after)

/-- A call with a quiet sink, if it has one. -/
def Call.IsQuiet
    (view : σ → World) : Call m → Prop
  | tell _ _ => True
  | dispatch access => access.IsQuiet view

/-- With a quiet sink, nothing is told in a pass. -/
theorem Access.Obeys.silent
    {access : Access m}
    (obeys : access.Obeys fun state world => world = view state)
    (isQuiet : access.IsQuiet view)
    (start : World) :
    access.Obeys fun state world => world = view state ∧ start.Silent world where
  bridge := by
    rintro before value after world returned ⟨isShown, silent⟩
    obtain ⟨isBridge, isShown⟩ := obeys.bridge returned isShown
    exact ⟨isBridge, isShown, silent⟩
  setBridge := by
    rintro bridge before value after world returned ⟨isShown, silent⟩
    exact ⟨obeys.setBridge returned isShown, silent⟩
  arrange := by
    rintro list before order after world returned ⟨isShown, silent⟩
    obtain ⟨isOrder, isShown⟩ := obeys.arrange returned isShown
    exact ⟨isOrder, isShown, silent⟩
  sink := by
    rintro id event before succeeded after world returned ⟨rfl, silent⟩ isRunning
    obtain ⟨inputs, isShown⟩ := obeys.sink returned rfl isRunning
    exact ⟨inputs, isShown, isShown ▸ silent.trans (isQuiet returned)⟩

/-- Calls return one after the other. What happens in each pass is listed. -/
inductive Runs (view : σ → World) :
    List (Call m) → σ → List (List Happening) → σ → Prop
  | ends (state : σ) : Runs view [] state [] state
  | tells
      {input : Input}
      {act : m Unit}
      {calls : List (Call m)}
      {before between after : σ}
      {passes : List (List Happening)}
      (returned : Returns act before () between)
      (rest : Runs view calls between passes after) :
      Runs view (.tell input act :: calls) before passes after
  | dispatches
      {access : Access m}
      {calls : List (Call m)}
      {before between after : σ}
      {report : PassReport}
      {happenings : List Happening}
      {passes : List (List Happening)}
      (returned : Returns (dispatch access) before report between)
      (isHistory : (view between).history = (view before).history ++ happenings)
      (rest : Runs view calls between passes after) :
      Runs view (.dispatch access :: calls) before (happenings :: passes) after

/-- Calls that run return. -/
theorem Runs.returns
    {calls : List (Call m)}
    {before after : σ}
    {passes : List (List Happening)}
    (runs : Runs view calls before passes after) :
    Returns (runAll calls) before () after := by
  induction runs with
  | ends state => exact (returns_pure_iff ..).mpr ⟨rfl, rfl⟩
  | tells returned rest inductionHypothesis =>
      exact (returns_bind_iff ..).mpr ⟨(), _, returned, inductionHypothesis⟩
  | dispatches returned isHistory rest inductionHypothesis =>
      refine (returns_bind_iff ..).mpr ⟨(), _, (returns_bind_iff ..).mpr ?_, inductionHypothesis⟩
      exact ⟨_, _, returned, (returns_pure_iff ..).mpr ⟨rfl, rfl⟩⟩

/-- Every run of calls is listed. -/
theorem exists_runs
    {calls : List (Call m)}
    {before after : σ}
    (obeys : ∀ call ∈ calls, call.Obeys fun state world => world = view state)
    (returned : Returns (runAll calls) before () after) :
    ∃ passes, Runs view calls before passes after := by
  induction calls generalizing before with
  | nil =>
      rw [runAll, returns_pure_iff] at returned
      obtain ⟨-, rfl⟩ := returned
      exact ⟨[], .ends after⟩
  | cons call calls inductionHypothesis =>
      rw [runAll, returns_bind_iff] at returned
      obtain ⟨_, between, hasRun, returned⟩ := returned
      obtain ⟨passes, rest⟩ := inductionHypothesis
        (fun other member => obeys other (List.mem_cons_of_mem _ member)) returned
      have obeysFirst := obeys call List.mem_cons_self
      cases call with
      | tell input act => exact ⟨passes, .tells hasRun rest⟩
      | dispatch access =>
          rw [Call.run, returns_bind_iff] at hasRun
          obtain ⟨report, dispatched, hasDispatched, hasRun⟩ := hasRun
          rw [returns_pure_iff] at hasRun
          obtain ⟨-, rfl⟩ := hasRun
          obtain ⟨last, pass, rfl⟩ := Access.Obeys.pass obeysFirst rfl hasDispatched
          obtain ⟨happenings, isHistory⟩ := pass.history_prefix
          exact ⟨happenings :: passes, .dispatches hasDispatched isHistory.symm rest⟩

/-- What a run of calls hands out for a connection, and the state in which it leaves it, is
what there would be if there were no other connection. -/
theorem Runs.eq_alone
    {calls : List (Call m)}
    {before after : σ}
    {passes : List (List Happening)}
    (runs : Runs view calls before passes after)
    (obey : ∀ call ∈ calls, call.Obeys fun state world => world = view state)
    (areQuiet : ∀ call ∈ calls, call.IsQuiet view)
    (neverClears : .tell .clear ∉ calls.map Call.operation)
    (sound : (view before).bridge.Sound)
    (isIdle : (view before).bridge.dispatching = false)
    (id : ConnectionId) :
    (passes.map (deliveredFor id), (view after).bridge.state? id) =
      alone (view before).bridge.limit id ((view before).bridge.state? id)
        (calls.map Call.operation) := by
  induction runs with
  | ends state => rfl
  | @tells input act calls before between after passes returned rest inductionHypothesis =>
      rw [List.forall_mem_cons] at obey areQuiet
      rw [List.map_cons, List.mem_cons, not_or] at neverClears
      have tracksOn : input ≠ .clear := by
        rintro rfl
        exact neverClears.1 rfl
      have isNoted : (view before).note (.told input) = view between := obey.1 returned rfl
      have isBridge : (view between).bridge = input.onBridge (view before).bridge :=
        congrArg World.bridge isNoted.symm
      rw [inductionHypothesis obey.2 areQuiet.2 neverClears.2
          (isBridge ▸ sound.onBridge input)
          (isBridge ▸ (dispatching_onBridge (.told input) _).trans isIdle),
        isBridge, sound.state?_onBridge tracksOn, List.map_cons, Call.operation, alone]
      exact congrArg (alone · id _ _) (limit_onBridge (.told input) _)
  | @dispatches access calls before between after report happenings passes returned isHistory
      rest inductionHypothesis =>
      rw [List.forall_mem_cons] at obey areQuiet
      rw [List.map_cons, List.mem_cons, not_or] at neverClears
      obtain ⟨last, pass, rfl, silent⟩ := (Access.Obeys.silent obey.1 areQuiet.1
        (view before)).pass ⟨rfl, .refl _⟩ returned
      have drains := pass.drainsAll isIdle silent sound
      obtain ⟨events, isEvents, areHandedOut⟩ := drains.handsOut
      have isSame : happenings = events :=
        List.append_cancel_left (isHistory.symm.trans isEvents)
      have later := inductionHypothesis obey.2 areQuiet.2 neverClears.2 drains.sound
        drains.isIdle
      rw [drains.limit_eq, drains.state?_eq] at later
      rw [List.map_cons, List.map_cons, Call.operation, alone, ← later, isSame, areHandedOut]

/-- Connections do not influence each other. Of two hosts, let one be asked for everything
that the other is asked for, except what concerns other connections than a given one. Both
hand out the same events for it in each pass and know the same of it afterwards, whether it
is connected, what is queued, and which bytes of a packet have come, whatever the others sent
and in whatever orders the passes visit the connections. -/
theorem connections_are_separate
    {n : Type → Type}
    [Monad n]
    {τ : Type}
    [Stateful n τ]
    {aloneView : τ → World}
    {calls : List (Call m)}
    {aloneCalls : List (Call n)}
    {limit : Nat}
    {before after : σ}
    {aloneBefore aloneAfter : τ}
    {passes alonePasses : List (List Happening)}
    {id : ConnectionId}
    (obey : ∀ call ∈ calls, call.Obeys fun state world => world = view state)
    (areQuiet : ∀ call ∈ calls, call.IsQuiet view)
    (aloneObey : ∀ call ∈ aloneCalls, call.Obeys fun state world => world = aloneView state)
    (aloneAreQuiet : ∀ call ∈ aloneCalls, call.IsQuiet aloneView)
    (neverClears : .tell .clear ∉ calls.map Call.operation)
    (isAlone : aloneCalls.map Call.operation =
      (calls.map Call.operation).filter (Operation.concerns id))
    (isNew : view before = ⟨.new limit, []⟩)
    (aloneIsNew : aloneView aloneBefore = ⟨.new limit, []⟩)
    (runs : Runs view calls before passes after)
    (aloneRuns : Runs aloneView aloneCalls aloneBefore alonePasses aloneAfter) :
    passes.map (deliveredFor id) = alonePasses.map (deliveredFor id) ∧
      (view after).bridge.state? id = (aloneView aloneAfter).bridge.state? id := by
  have aloneNeverClears : .tell .clear ∉ aloneCalls.map Call.operation := by
    rw [isAlone]
    exact fun clears => neverClears (List.mem_of_mem_filter clears)
  have isDone := runs.eq_alone obey areQuiet neverClears (isNew ▸ sound_new limit)
    (isNew ▸ rfl) id
  have isDoneAlone := aloneRuns.eq_alone aloneObey aloneAreQuiet aloneNeverClears
    (aloneIsNew ▸ sound_new limit) (aloneIsNew ▸ rfl) id
  rw [isAlone, alone_filter_concerns, aloneIsNew] at isDoneAlone
  rw [isNew, ← isDoneAlone] at isDone
  exact Prod.mk.inj isDone

theorem isQuiet_quietAccess : quietAccess.IsQuiet id := by
  intro name event before succeeded after returned
  cases returned
  exact ⟨delivery name event [] true, World.history_noteAll .., by simp [delivery]⟩

/-- A quiet host that visits the connections in the opposite order. -/
def backwardAccess : Access (StateM World) :=
  { quietAccess with arrange := fun order => pure order.reverse }

theorem obeys_backwardAccess : backwardAccess.Obeys fun state world => world = state where
  bridge := obeys_quietAccess.bridge
  setBridge := obeys_quietAccess.setBridge
  arrange := by
    rintro order before reversed after _ returned rfl
    cases returned
    exact ⟨List.reverse_perm order, rfl⟩
  sink := obeys_quietAccess.sink

/-- Two peers, one of which sends what is no packet and goes before the other has sent all of
its own. -/
def noisyCalls : List (Call (StateM World)) :=
  [.connect ⟨"peer"⟩, .connect ⟨"noise"⟩, .receive ⟨"noise"⟩ [0, 0, 0, 0, 7],
    .receive ⟨"peer"⟩ [6, 0, 0]].map tellCall ++ .dispatch backwardAccess ::
  [.disconnect ⟨"noise"⟩, .receive ⟨"peer"⟩ [0, 0, 66, 5]].map tellCall ++
    [.dispatch backwardAccess]

/-- The same without the one that is noisy. -/
def quietCalls : List (Call (StateM World)) :=
  [.connect ⟨"peer"⟩, .receive ⟨"peer"⟩ [6, 0, 0]].map tellCall ++ .dispatch quietAccess ::
  [.receive ⟨"peer"⟩ [0, 0, 66, 5]].map tellCall ++ [.dispatch quietAccess]

theorem noisyCalls_are_separate :
    ∃ passes alonePasses,
      Runs id noisyCalls ⟨.new 64, []⟩ passes ((runAll noisyCalls).run ⟨.new 64, []⟩).2 ∧
      Runs id quietCalls ⟨.new 64, []⟩ alonePasses ((runAll quietCalls).run ⟨.new 64, []⟩).2 ∧
      passes.map (deliveredFor ⟨"peer"⟩) = alonePasses.map (deliveredFor ⟨"peer"⟩) ∧
      ((runAll noisyCalls).run ⟨.new 64, []⟩).2.bridge.state? ⟨"peer"⟩ =
        ((runAll quietCalls).run ⟨.new 64, []⟩).2.bridge.state? ⟨"peer"⟩ := by
  have obey : ∀ call ∈ noisyCalls, call.Obeys fun state world => world = id state := by
    simp only [noisyCalls, List.map_cons, List.map_nil, List.cons_append, List.nil_append,
      List.forall_mem_cons, List.not_mem_nil, false_implies, implies_true, and_true]
    exact ⟨obeys_tellCall _, obeys_tellCall _, obeys_tellCall _, obeys_tellCall _,
      obeys_backwardAccess, obeys_tellCall _, obeys_tellCall _, obeys_backwardAccess⟩
  have aloneObey : ∀ call ∈ quietCalls, call.Obeys fun state world => world = id state := by
    simp only [quietCalls, List.map_cons, List.map_nil, List.cons_append, List.nil_append,
      List.forall_mem_cons, List.not_mem_nil, false_implies, implies_true, and_true]
    exact ⟨obeys_tellCall _, obeys_tellCall _, obeys_quietAccess, obeys_tellCall _,
      obeys_quietAccess⟩
  have areQuiet : ∀ call ∈ noisyCalls, call.IsQuiet id := by
    simp only [noisyCalls, List.map_cons, List.map_nil, List.cons_append, List.nil_append,
      List.forall_mem_cons, List.not_mem_nil, false_implies, implies_true, and_true]
    exact ⟨trivial, trivial, trivial, trivial, isQuiet_quietAccess, trivial, trivial,
      isQuiet_quietAccess⟩
  have aloneAreQuiet : ∀ call ∈ quietCalls, call.IsQuiet id := by
    simp only [quietCalls, List.map_cons, List.map_nil, List.cons_append, List.nil_append,
      List.forall_mem_cons, List.not_mem_nil, false_implies, implies_true, and_true]
    exact ⟨trivial, trivial, isQuiet_quietAccess, trivial, isQuiet_quietAccess⟩
  obtain ⟨passes, runs⟩ := exists_runs obey (returns_run (runAll noisyCalls) ⟨.new 64, []⟩)
  obtain ⟨alonePasses, aloneRuns⟩ :=
    exists_runs aloneObey (returns_run (runAll quietCalls) ⟨.new 64, []⟩)
  have neverClears : .tell .clear ∉ noisyCalls.map Call.operation := by decide
  have isAlone : quietCalls.map Call.operation =
      (noisyCalls.map Call.operation).filter (Operation.concerns ⟨"peer"⟩) := by decide
  have separate := connections_are_separate obey areQuiet aloneObey aloneAreQuiet neverClears
    isAlone rfl rfl runs aloneRuns
  exact ⟨passes, alonePasses, runs, aloneRuns, separate⟩

example :
    let asked := quietCalls.map Call.operation
    alone 64 ⟨"peer"⟩ none asked =
      ([[.connected], [.received (.bytes [66])]], some ⟨⟨64, [5]⟩, [], true⟩) := by
  decide +kernel

end Runs

end Bridge
end ScriptHost
