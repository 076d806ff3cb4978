import ScriptHost.Proofs.Bridge.Clearing
import ScriptHost.Proofs.Bridge.Interleavings
import ScriptHost.Proofs.Bridge.Separation

/-!
# Retirement of connections

A bridge keeps track of a connection only while it goes on or has an event left to deliver. In
the midst of a pass this may fail for one connection, whose turn it is; when the turn is over,
the connection is forgotten if nothing came of it. What a sink does meanwhile makes no
difference: a report never makes an end of what is live, and a state that the pass holds after
a clear is not tracked. So a bridge takes no more room than the connections that go on and the
events that are queued.
-/

namespace ScriptHost
namespace Bridge

/-- What is live stays live, whatever is reported. -/
theorem isLive_noticed
    {state : ConnectionState}
    (isLive : IsLive state)
    (notice : Notice) :
    IsLive (noticed state notice) := by
  rcases isLive with connected | isQueued
  · cases notice with
    | begins => exact .inl (by simp [noticed, ConnectionState.connect, connected])
    | ends => exact .inr (by simp [noticed, ConnectionState.disconnect, connected])
    | brings chunk => exact .inl (by simp [noticed, ConnectionState.receive, connected])
  · right
    intro isEmpty
    have isPrefix := queue_prefix_noticed state notice
    rw [isEmpty] at isPrefix
    exact isQueued (List.prefix_nil.mp isPrefix)

/-- A connection that begins is live. -/
theorem isLive_connect (state : ConnectionState) : IsLive state.connect := by
  left
  cases connected : state.connected <;> simp [ConnectionState.connect, connected]

/-! ## Between turns -/

/-- What is tracked is live, but perhaps for some connections. -/
def LiveBut
    (bridge : Bridge)
    (spared : List ConnectionId) : Prop :=
  ∀ ⦃id state⦄, id ∉ spared → bridge.state? id = some state → IsLive state

namespace LiveBut

variable {bridge : Bridge} {spared : List ConnectionId}

theorem mono
    (live : bridge.LiveBut spared)
    {more : List ConnectionId}
    (isMore : spared ⊆ more) :
    bridge.LiveBut more :=
  fun _ _ notSpared found => live (fun isSpared => notSpared (isMore isSpared)) found

theorem tell
    (live : bridge.LiveBut spared)
    (sound : bridge.Sound)
    (input : Input) :
    (input.onBridge bridge).LiveBut spared := by
  intro id state notSpared found
  by_cases isClear : input = .clear
  · subst isClear
    cases found
  · rw [sound.state?_onBridge isClear] at found
    cases isNotice : input.notice? id with
    | none =>
        rw [isNotice, Option.elim_none] at found
        exact live notSpared found
    | some notice =>
        rw [isNotice, Option.elim_some] at found
        cases notice with
        | begins =>
            cases found
            exact isLive_connect _
        | ends =>
            obtain ⟨before, wasTracked, rfl⟩ := Option.map_eq_some_iff.mp found
            exact isLive_noticed (live notSpared wasTracked) .ends
        | brings chunk =>
            obtain ⟨before, wasTracked, rfl⟩ := Option.map_eq_some_iff.mp found
            exact isLive_noticed (live notSpared wasTracked) (.brings chunk)

theorem noteAll
    {world : World}
    (live : world.bridge.LiveBut spared)
    (sound : world.bridge.Sound)
    (happenings : List Happening) :
    (world.noteAll happenings).bridge.LiveBut spared := by
  induction happenings generalizing world with
  | nil => exact live
  | cons happening happenings inductionHypothesis =>
      cases happening with
      | told input =>
          exact @inductionHypothesis (world.note (.told input)) (live.tell sound input)
            (sound.onBridge input)
      | delivered id event => exact @inductionHypothesis (world.note _) live sound
      | answered succeeded => exact @inductionHypothesis (world.note _) live sound

/-- At the end of its turn, a connection is forgotten if it is not live. -/
theorem retire
    {id : ConnectionId}
    (live : bridge.LiveBut [id]) :
    (bridge.retireIfIdle id).LiveBut [] := by
  intro other state _ found
  rw [state?_retireIfIdle] at found
  split at found
  · cases found
  · rename_i isKept
    by_cases same : other = id
    · subst same
      rw [isLive_iff]
      intro isIdle
      exact isKept ⟨rfl, by rw [found]; exact isIdle⟩
    · exact live (fun member => same (List.mem_singleton.mp member)) found

end LiveBut

/-- The state that a pass holds is tracked under the name of its connection, or not at all. -/
theorem Awaits.state?_updateAt
    {start bridge : Bridge}
    {events : List Happening}
    {id : ConnectionId}
    {key : StateKey}
    (awaits : Awaits start events bridge id key)
    (sound : bridge.Sound)
    (change : ConnectionState → ConnectionState)
    {other : ConnectionId}
    (isOther : other ≠ id) :
    (bridge.updateAt key change).state? other = bridge.state? other := by
  by_cases clears : .told .clear ∈ events
  · have sameKeys : (bridge.updateAt key change).key? other = bridge.key? other := rfl
    rw [state?, sameKeys, state?]
    cases found : bridge.key? other with
    | none => rfl
    | some otherKey =>
        have isOtherKey := (awaits.isOrphan clears).ne_of_key? found
        rw [Option.map_some, Option.map_some, stateAt_updateAt bridge awaits.isMade,
          if_neg (Ne.symm isOtherKey)]
  · rw [sound.state?_updateAt (awaits.found clears), if_neg isOther]

/-! ## Passes -/

/-- In the turn of a connection all others stay live, whatever the sink does. -/
theorem Turn.liveBut
    {limit : Nat}
    {past events : List Happening}
    {start : Bridge}
    {entries : List (ConnectionId × StateKey)}
    {id : ConnectionId}
    {key : StateKey}
    {budget : Nat}
    {world last : World}
    {report lastReport : PassReport}
    (turn : Turn id key budget world report last lastReport)
    (underway : Underway limit past start entries events world.bridge)
    (member : (id, key) ∈ entries)
    (live : world.bridge.LiveBut [id]) :
    ∃ more, Underway limit past start entries (events ++ more) last.bridge ∧
      last.bridge.LiveBut [id] := by
  induction turn generalizing events with
  | spent | runsOut =>
      refine ⟨[], ?_, live⟩
      rw [List.append_nil]
      exact underway
  | @delivers world last next event budget report lastReport inputs succeeded isNext turn
      inductionHypothesis =>
      have awaits := underway.awaits id key member
      have sound := underway.faithful.sound
      have handedOut := underway.callSink member isNext inputs succeeded
      obtain ⟨queue, -, rfl⟩ := popAt_eq_some_iff.mp isNext
      -- The state that loses an event is that of the connection whose turn it is, or of none.
      have liveNext : (world.bridge.updateAt key fun state =>
          { state with queue := queue }).LiveBut [id] := by
        intro other state notSpared found
        rw [awaits.state?_updateAt sound _ fun same =>
          notSpared (List.mem_singleton.mpr same)] at found
        exact live notSpared found
      obtain ⟨more, underwayLast, liveLast⟩ := inductionHypothesis handedOut
        (liveNext.noteAll (sound.updateAt ..) (delivery id event inputs succeeded))
      refine ⟨delivery id event inputs succeeded ++ more, ?_, liveLast⟩
      rw [← List.append_assoc]
      exact underwayLast

theorem Visit.liveBut
    {limit : Nat}
    {past events : List Happening}
    {start : Bridge}
    {order : List (ConnectionId × StateKey)}
    {world last : World}
    {report lastReport : PassReport}
    (visit : Visit order world report last lastReport)
    (underway : Underway limit past start order events world.bridge)
    (live : world.bridge.LiveBut []) :
    last.bridge.LiveBut [] := by
  induction visit generalizing events with
  | ends => exact live
  | turns turn visit inductionHypothesis =>
      obtain ⟨more, underwayMiddle, liveMiddle⟩ :=
        turn.liveBut underway List.mem_cons_self (live.mono (List.nil_subset _))
      exact inductionHypothesis underwayMiddle.retire liveMiddle.retire

/-- After a pass, all that is tracked is live again. -/
theorem Pass.liveBut
    {limit : Nat}
    {past : List Happening}
    {world last : World}
    {report : PassReport}
    (pass : Pass world report last)
    (faithful : Faithful limit ⟨world.bridge, past⟩)
    (live : world.bridge.LiveBut []) :
    last.bridge.LiveBut [] := by
  cases pass with
  | nested => exact live
  | runs isIdle isOrder visit => exact visit.liveBut (faithful.underway isOrder) live

theorem Life.liveBut
    {limit : Nat}
    {last : World}
    (life : Life ⟨.new limit, []⟩ last) :
    last.bridge.LiveBut [] := by
  induction life with
  | begins =>
      intro id state _ found
      cases found
  | isTold life input inductionHypothesis => exact inductionHypothesis.tell life.sound.1 input
  | passes life pass inductionHypothesis =>
      obtain ⟨-, -, known, -, faithful, -⟩ := life.remembers rfl (faithful_new limit)
      exact pass.liveBut faithful inductionHypothesis

/-! ## What a bridge counts -/

theorem Sound.mem_connectedIds
    {bridge : Bridge}
    (sound : bridge.Sound)
    (id : ConnectionId) :
    id ∈ bridge.connectedIds ↔ bridge.isConnected id = true := by
  rw [connectedIds, isConnected, Option.any_eq_true, List.mem_map]
  constructor
  · rintro ⟨⟨_, key⟩, member, rfl⟩
    rw [List.mem_filter] at member
    refine ⟨bridge.stateAt key, ?_, member.2⟩
    rw [state?, sound.key?_of_mem member.1, Option.map_some]
  · rintro ⟨state, found, connected⟩
    obtain ⟨key, isKey, rfl⟩ := Option.map_eq_some_iff.mp found
    exact ⟨(id, key), List.mem_filter.mpr ⟨mem_tracked_of_key?_eq_some isKey, connected⟩, rfl⟩

theorem length_le_of_isLive
    (bridge : Bridge)
    (entries : List (ConnectionId × StateKey))
    (areLive : ∀ entry ∈ entries, IsLive (bridge.stateAt entry.2)) :
    entries.length ≤
      (entries.filter fun entry => (bridge.stateAt entry.2).connected).length +
        (entries.flatMap fun entry => (bridge.stateAt entry.2).queue).length := by
  induction entries with
  | nil => exact Nat.zero_le _
  | cons entry entries inductionHypothesis =>
      rw [List.forall_mem_cons] at areLive
      have rest := inductionHypothesis areLive.2
      rw [List.flatMap_cons, List.length_append, List.length_cons, List.filter_cons]
      rcases areLive.1 with connected | isQueued
      · rw [if_pos connected, List.length_cons]
        omega
      · have isSome := List.length_pos_iff.mpr isQueued
        split
        · rw [List.length_cons]
          omega
        · omega

/-- Every connection that is tracked goes on or has an event queued. -/
theorem LiveBut.trackedConnections_le
    {bridge : Bridge}
    (live : bridge.LiveBut [])
    (sound : bridge.Sound) :
    bridge.trackedConnections ≤ bridge.connectedIds.length + bridge.pendingEvents := by
  rw [connectedIds, List.length_map]
  apply length_le_of_isLive
  intro entry member
  refine @live entry.1 _ List.not_mem_nil ?_
  rw [state?, sound.key?_of_mem member, Option.map_some]

/-- A connection that is over holds no byte of an incomplete packet. -/
theorem Course.Agrees.buffer_eq_nil
    {limit : Nat}
    {course : Course}
    {delivered : List ConnectionEvent}
    {state : ConnectionState}
    (agrees : course.Agrees limit delivered state)
    (isOver : state.connected = false) :
    state.decoder.buffer = [] := by
  have isNone := agrees.connected_eq
  rw [isOver, eq_comm, Option.isSome_eq_false_iff, Option.isNone_iff_eq_none] at isNone
  rw [agrees.decoder_eq, isNone]
  rfl

/-- Nothing is kept that is not needed: what is tracked is live, a connection that is over
holds no bytes, and one that is not tracked does not go on. -/
structure KeepsLittle (bridge : Bridge) : Prop where
  isLive : ∀ ⦃id state⦄, bridge.state? id = some state → IsLive state
  buffer_eq : ∀ ⦃id state⦄, bridge.state? id = some state → state.connected = false →
    state.decoder.buffer = []
  notConnected : ∀ ⦃id⦄, bridge.state? id = none →
    bridge.isConnected id = false ∧ id ∉ bridge.connectedIds
  trackedConnections_le :
    bridge.trackedConnections ≤ bridge.connectedIds.length + bridge.pendingEvents

theorem Life.keepsLittle
    {limit : Nat}
    {last : World}
    (life : Life ⟨.new limit, []⟩ last) :
    last.bridge.KeepsLittle := by
  have sound := life.sound.1
  have live := life.liveBut
  obtain ⟨-, -, known, -, faithful, -⟩ := life.remembers rfl (faithful_new limit)
  refine ⟨fun id state => live List.not_mem_nil, ?_, ?_, live.trackedConnections_le sound⟩
  · intro id state found
    have isState : last.bridge.stateOf id = state := by rw [stateOf, found, Option.getD_some]
    exact isState ▸ (faithful.agrees id).buffer_eq_nil
  · intro id absent
    have isOver : last.bridge.isConnected id = false := by rw [isConnected, absent]; rfl
    rw [sound.mem_connectedIds, isOver]
    exact ⟨rfl, Bool.false_ne_true⟩

/-- If no connection goes on, a pass in which nothing is told leaves nothing to track. -/
theorem DrainsAll.trackedConnections_eq
    {world last : World}
    (drains : DrainsAll world last)
    (sound : world.bridge.Sound)
    (areOver : world.bridge.connectedIds = []) :
    last.bridge.trackedConnections = 0 := by
  rw [trackedConnections, List.length_eq_zero_iff, List.eq_nil_iff_forall_not_mem]
  rintro ⟨id, key⟩ member
  have isLeft : last.bridge.state? id = some (last.bridge.stateAt key) := by
    rw [state?, drains.sound.key?_of_mem member, Option.map_some]
  rw [drains.state?_eq] at isLeft
  obtain ⟨state, found, isDrained⟩ := Option.bind_eq_some_iff.mp isLeft
  have isOver : state.connected ≠ true := by
    intro connected
    have goesOn : id ∈ world.bridge.connectedIds :=
      (sound.mem_connectedIds id).mpr (by rw [isConnected, found]; exact connected)
    rw [areOver] at goesOn
    cases goesOn
  rw [drained, if_neg isOver] at isDrained
  cases isDrained

section Runs

open Stateful

variable {m : Type → Type} [Monad m] {σ : Type} [Stateful m σ] {view : σ → World}

/-- Whatever calls are made on a bridge, and whatever sinks do while they are called, a bridge
on which no pass is running keeps nothing that is not needed. Once every connection is over, a
pass in which nothing is told leaves nothing to keep. -/
theorem runAll_keepsLittle
    {calls : List (Call m)}
    {limit : Nat}
    {start before : σ}
    (callsObey : ∀ call ∈ calls, call.Obeys fun state world => world = view state)
    (isNew : view start = ⟨.new limit, []⟩)
    (hasRun : Returns (runAll calls) start () before) :
    (view before).bridge.KeepsLittle ∧
      ∀ (access : Access m) (report : PassReport) (after : σ),
        access.Obeys (fun state world => world = view state) →
        Returns (dispatch access) before report after →
        (view before).Silent (view after) → (view before).bridge.connectedIds = [] →
        (view after).bridge.trackedConnections = 0 := by
  obtain ⟨world, life, rfl⟩ := life_of_runAll callsObey .begins rfl hasRun
  rw [isNew] at life
  obtain ⟨sound, isIdle⟩ := life.sound
  refine ⟨life.keepsLittle, ?_⟩
  intro access report after obeys returned silent areOver
  obtain ⟨last, pass, rfl⟩ := obeys.pass rfl returned
  exact (pass.drainsAll isIdle silent sound).trackedConnections_eq sound areOver

/-- A peer begins anew in the midst of a pass, after all has been cleared, and ends. -/
def restlessPeer : List (Call (StateM World)) :=
  [tellCall (.connect ⟨"peer"⟩), .dispatch (replyingAccess (startOver ⟨"peer"⟩)),
    tellCall (.receive ⟨"peer"⟩ [6, 0]), tellCall (.disconnect ⟨"peer"⟩)]

theorem obeys_restlessPeer :
    ∀ call ∈ restlessPeer, call.Obeys fun state world => world = state := by
  simp only [restlessPeer, List.forall_mem_cons]
  exact ⟨obeys_tellCall _, obeys_replyingAccess _, obeys_tellCall _, obeys_tellCall _,
    fun _ member => nomatch member⟩

theorem restlessPeer_keepsLittle :
    let before := ((runAll restlessPeer).run ⟨.new 64, []⟩).2
    let after := ((dispatch quietAccess).run before).2
    before.bridge.KeepsLittle ∧ before.Silent after ∧ before.bridge.connectedIds = [] ∧
      before.bridge.trackedConnections = 1 ∧ after.bridge.trackedConnections = 0 := by
  intro before after
  have keepsLittle := runAll_keepsLittle obeys_restlessPeer rfl
    (returns_run (runAll restlessPeer) (World.mk (.new 64) []))
  have returned : Returns (dispatch quietAccess) before _ after :=
    returns_run (dispatch quietAccess) before
  have isHistory : after.history = before.history ++
      (delivery ⟨"peer"⟩ .connected [] true ++ delivery ⟨"peer"⟩ .disconnected [] true) := by
    decide +kernel
  have silent : before.Silent after := by
    refine ⟨_, isHistory, ?_⟩
    intro input member
    simp [delivery] at member
  have areOver : before.bridge.connectedIds = [] := by decide +kernel
  exact ⟨keepsLittle.1, silent, areOver, by decide +kernel,
    keepsLittle.2 quietAccess _ after obeys_quietAccess returned silent areOver⟩

end Runs

end Bridge
end ScriptHost
