import ScriptHost.Proofs.Bridge.Passes
import ScriptHost.Proofs.Frame

/-!
# Epochs of a connection

An epoch of a connection begins when a link reports that the connection has begun, and
ends when a link reports that it is over. What a bridge hands out for a connection, with
what it has still queued, tells of its epochs one after the other: what was received in an
epoch is what a new decoder finds in the chunks of this epoch alone.
-/

namespace ScriptHost
namespace Bridge

/-- What a link reports about one connection. -/
inductive Notice
  | begins
  | ends
  | brings (chunk : Bytes)

/-- What an input reports about a connection. -/
def Input.notice? (id : ConnectionId) : Input → Option Notice
  | connect other => if id = other then some .begins else none
  | disconnect other => if id = other then some .ends else none
  | receive other chunk => if id = other then some (.brings chunk) else none
  | clear => none

/-- The chunks of the epochs that are over, and of the epoch that is not. -/
structure Course where
  past : List (List Bytes)
  current? : Option (List Bytes)

/-- The events of an epoch that is not over. -/
def epochEvents
    (limit : Nat)
    (chunks : List Bytes) : List ConnectionEvent :=
  .connected :: ((FrameDecoder.new limit).pushAll chunks).1.map .received

namespace Course

/-- A connection that has never begun. -/
def empty : Course :=
  ⟨[], none⟩

/-- A notice that comes when it has nothing to say changes nothing. -/
def step : Course → Notice → Course
  | ⟨past, none⟩, .begins => ⟨past, some []⟩
  | ⟨past, some chunks⟩, .ends => ⟨past ++ [chunks], none⟩
  | ⟨past, some chunks⟩, .brings chunk => ⟨past, some (chunks ++ [chunk])⟩
  | course, _ => course

/-- The events of all epochs, in order. -/
def events
    (limit : Nat)
    (course : Course) : List ConnectionEvent :=
  (course.past.flatMap fun chunks => epochEvents limit chunks ++ [.disconnected]) ++
    course.current?.elim [] (epochEvents limit)

end Course

/-- An event at which an epoch begins or ends. -/
def isBoundary : ConnectionEvent → Bool
  | .received _ => false
  | .connected | .disconnected => true

/-- Within an epoch, the connection begins once. -/
theorem filter_isBoundary_epochEvents
    (limit : Nat)
    (chunks : List Bytes) :
    (epochEvents limit chunks).filter isBoundary = [.connected] := by
  have noneReceived : (((FrameDecoder.new limit).pushAll chunks).1.map
      ConnectionEvent.received).filter isBoundary = [] := by
    rw [List.filter_eq_nil_iff]
    simp [isBoundary]
  rw [epochEvents, List.filter_cons_of_pos rfl, noneReceived]

/-- Connects and disconnects alternate. -/
theorem Course.filter_isBoundary_events
    (limit : Nat)
    (course : Course) :
    (course.events limit).filter isBoundary =
      (List.replicate course.past.length [.connected, .disconnected]).flatten ++
        (course.current?.map fun _ => .connected).toList := by
  obtain ⟨past, current?⟩ := course
  rw [events, List.filter_append]
  congr 1
  · induction past with
    | nil => rfl
    | cons chunks past inductionHypothesis =>
        rw [List.flatMap_cons, List.filter_append, List.filter_append,
          filter_isBoundary_epochEvents, inductionHypothesis]
        rfl
  · cases current? with
    | none => rfl
    | some chunks => exact filter_isBoundary_epochEvents limit chunks

/-! ## One state and one course -/

/-- The state of a connection after a notice. -/
def noticed (state : ConnectionState) : Notice → ConnectionState
  | .begins => state.connect
  | .ends => state.disconnect
  | .brings chunk => state.receive chunk

/-- A state agrees with the course of its connection: it holds the decoder of the epoch
that is not over, and the events of the course that are not delivered. -/
structure Course.Agrees
    (limit : Nat)
    (course : Course)
    (delivered : List ConnectionEvent)
    (state : ConnectionState) : Prop where
  connected_eq : state.connected = course.current?.isSome
  decoder_eq : state.decoder =
    ((FrameDecoder.new limit).pushAll (course.current?.getD [])).2
  events_eq : delivered ++ state.queue = course.events limit

namespace Course

variable {limit : Nat} {course : Course} {delivered : List ConnectionEvent}
  {state : ConnectionState}

/-- The fresh state of a connection agrees with a course on which nothing happened. -/
theorem agrees_fresh (limit : Nat) : empty.Agrees limit [] (.fresh limit) :=
  ⟨rfl, rfl, rfl⟩

/-- A connection that begins agrees with its course. -/
theorem Agrees.connect
    (agrees : course.Agrees limit delivered state) :
    (course.step .begins).Agrees limit delivered state.connect := by
  obtain ⟨past, current?⟩ := course
  cases current? with
  | some chunks =>
      have isConnected : state.connected = true := agrees.connected_eq
      rw [ConnectionState.connect, if_pos isConnected]
      exact agrees
  | none =>
      have isOver : state.connected = false := agrees.connected_eq
      rw [ConnectionState.connect, if_neg (Bool.eq_false_iff.mp isOver)]
      refine ⟨rfl, agrees.decoder_eq, ?_⟩
      rw [← List.append_assoc, agrees.events_eq, events, events, Option.elim_none,
        List.append_nil]
      rfl

/-- A connection that ends agrees with its course. -/
theorem Agrees.disconnect
    (agrees : course.Agrees limit delivered state) :
    (course.step .ends).Agrees limit delivered state.disconnect := by
  obtain ⟨past, current?⟩ := course
  have isCleared : state.decoder.clear = .new limit := by
    rw [agrees.decoder_eq, FrameDecoder.clear_pushAll_new]
  cases current? with
  | none =>
      have isOver : state.connected = false := agrees.connected_eq
      rw [ConnectionState.disconnect, if_neg (Bool.eq_false_iff.mp isOver)]
      exact ⟨agrees.connected_eq, isCleared, agrees.events_eq⟩
  | some chunks =>
      have isConnected : state.connected = true := agrees.connected_eq
      rw [ConnectionState.disconnect, if_pos isConnected]
      refine ⟨rfl, isCleared, ?_⟩
      rw [← List.append_assoc, agrees.events_eq]
      simp only [events, step, List.flatMap_append, List.flatMap_singleton, Option.elim_some,
        Option.elim_none, List.append_assoc, List.append_nil]

/-- A connection that receives bytes agrees with its course. -/
theorem Agrees.receive
    (agrees : course.Agrees limit delivered state)
    (chunk : Bytes) :
    (course.step (.brings chunk)).Agrees limit delivered (state.receive chunk) := by
  obtain ⟨past, current?⟩ := course
  cases current? with
  | none =>
      have isOver : state.connected = false := agrees.connected_eq
      rw [ConnectionState.receive, if_neg (Bool.eq_false_iff.mp isOver)]
      exact agrees
  | some chunks =>
      have isConnected : state.connected = true := agrees.connected_eq
      have isDecoder : state.decoder = ((FrameDecoder.new limit).pushAll chunks).2 :=
        agrees.decoder_eq
      rw [ConnectionState.receive, if_pos isConnected]
      refine ⟨isConnected, ?_, ?_⟩
      · rw [isDecoder, step, Option.getD_some, FrameDecoder.pushAll_append]
        rfl
      · rw [← List.append_assoc, agrees.events_eq, isDecoder]
        simp only [events, step, epochEvents, Option.elim_some, FrameDecoder.pushAll_append,
          FrameDecoder.pushAll, List.map_append, List.append_nil, List.append_assoc,
          List.cons_append]

/-- A notice changes the state of a connection as it changes its course. -/
theorem Agrees.notice
    (agrees : course.Agrees limit delivered state)
    (notice : Notice) :
    (course.step notice).Agrees limit delivered (noticed state notice) := by
  cases notice with
  | begins => exact agrees.connect
  | ends => exact agrees.disconnect
  | brings chunk => exact agrees.receive chunk

/-- A connection agrees with its course when an event moves from its queue to the sink. -/
theorem Agrees.deliver
    (agrees : course.Agrees limit delivered state)
    {event : ConnectionEvent}
    {queue : List ConnectionEvent}
    (isQueue : state.queue = event :: queue) :
    course.Agrees limit (delivered ++ [event]) { state with queue := queue } := by
  refine ⟨agrees.connected_eq, agrees.decoder_eq, ?_⟩
  rw [← agrees.events_eq, isQueue, List.append_assoc, List.singleton_append]

/-- A connection that is over holds no byte of an earlier epoch. -/
theorem Agrees.eq_fresh_of_isIdle
    (agrees : course.Agrees limit delivered state)
    (isIdle : state.isIdle = true) :
    state = .fresh limit := by
  obtain ⟨decoder, queue, connected⟩ := state
  obtain ⟨past, current?⟩ := course
  have isConnected := agrees.connected_eq
  have isDecoder := agrees.decoder_eq
  cases current? with
  | some chunks =>
      cases isConnected
      cases isIdle
  | none =>
      cases isConnected
      cases isDecoder
      cases queue with
      | nil => rfl
      | cons event queue => cases isIdle

end Course

/-! ## All states and their courses -/

/-- What is reported about a connection in something that happens. -/
def Happening.notice? (id : ConnectionId) : Happening → Option Notice
  | told input => input.notice? id
  | delivered _ _ | answered _ => none

/-- The event that is delivered for a connection in something that happens. -/
def Happening.event? (id : ConnectionId) : Happening → Option ConnectionEvent
  | delivered other event => if id = other then some event else none
  | told _ | answered _ => none

/-- The course of a connection, by what was reported about it. -/
def courseOf
    (id : ConnectionId)
    (history : List Happening) : Course :=
  (history.filterMap (Happening.notice? id)).foldl Course.step .empty

/-- The events that were delivered for a connection, in order. -/
def deliveredFor
    (id : ConnectionId)
    (history : List Happening) : List ConnectionEvent :=
  history.filterMap (Happening.event? id)

/-- The course of a connection goes on with what it is told next. -/
theorem courseOf_concat
    (id : ConnectionId)
    (history : List Happening)
    (happening : Happening) :
    courseOf id (history ++ [happening]) =
      (happening.notice? id).elim (courseOf id history) (courseOf id history).step := by
  rw [courseOf, List.filterMap_append, List.foldl_append]
  cases isNoticed : happening.notice? id with
  | none =>
      rw [List.filterMap_cons_none isNoticed]
      rfl
  | some notice =>
      rw [List.filterMap_cons_some isNoticed]
      rfl

/-- A delivery adds its event to what was delivered. -/
theorem deliveredFor_concat
    (id : ConnectionId)
    (history : List Happening)
    (happening : Happening) :
    deliveredFor id (history ++ [happening]) =
      deliveredFor id history ++ (happening.event? id).toList := by
  rw [deliveredFor, List.filterMap_append]
  cases isEvent : happening.event? id with
  | none =>
      rw [List.filterMap_cons_none isEvent]
      rfl
  | some event =>
      rw [List.filterMap_cons_some isEvent]
      rfl

/-- A bridge stays sound whatever it is told. -/
theorem Sound.onBridge
    {bridge : Bridge}
    (sound : bridge.Sound)
    (input : Input) :
    (input.onBridge bridge).Sound := by
  cases input with
  | connect id => exact (sound.track id).update id _
  | disconnect id => exact sound.update id _
  | receive id chunk => exact sound.update id _
  | clear => exact ⟨List.nodup_nil, List.nodup_nil, fun _ member => nomatch member⟩

/-- A connection hears what it is told, as long as the bridge is not cleared. -/
theorem Sound.stateOf_onBridge
    {bridge : Bridge}
    (sound : bridge.Sound)
    {input : Input}
    (tracksOn : input ≠ .clear)
    (id : ConnectionId) :
    (input.onBridge bridge).stateOf id =
      (input.notice? id).elim (bridge.stateOf id) (noticed (bridge.stateOf id)) := by
  cases input with
  | connect other =>
      rw [Input.onBridge, sound.stateOf_onConnected, Input.notice?]
      split <;> rfl
  | disconnect other =>
      rw [Input.onBridge, sound.stateOf_onDisconnected, Input.notice?]
      split <;> rfl
  | receive other chunk =>
      rw [Input.onBridge, sound.stateOf_onBytesReceived, Input.notice?]
      split <;> rfl
  | clear => exact absurd rfl tracksOn

/-- The bridge knows of every connection what it was told. -/
structure Faithful
    (limit : Nat)
    (world : World) : Prop where
  sound : world.bridge.Sound
  limit_eq : world.bridge.limit = limit
  agrees : ∀ id, (courseOf id world.history).Agrees limit
    (deliveredFor id world.history) (world.bridge.stateOf id)

/-- A bridge to which nothing happened is faithful. -/
theorem faithful_new (limit : Nat) : Faithful limit ⟨.new limit, []⟩ where
  sound := sound_new limit
  limit_eq := rfl
  agrees _ := Course.agrees_fresh limit

namespace Faithful

variable {limit : Nat} {world : World}

/-- A bridge stays faithful when it is told something. -/
theorem tell
    (faithful : Faithful limit world)
    {input : Input}
    (tracksOn : input ≠ .clear) :
    Faithful limit (world.note (.told input)) where
  sound := faithful.sound.onBridge input
  limit_eq := (limit_onBridge ..).trans faithful.limit_eq
  agrees id := by
    have agrees := faithful.agrees id
    have isState : (world.note (.told input)).bridge.stateOf id =
        (input.notice? id).elim (world.bridge.stateOf id) (noticed (world.bridge.stateOf id)) :=
      faithful.sound.stateOf_onBridge tracksOn id
    rw [isState, World.note, courseOf_concat, deliveredFor_concat, Happening.notice?,
      Happening.event?, Option.toList_none, List.append_nil]
    cases input.notice? id with
    | none => exact agrees
    | some notice => exact agrees.notice notice

/-- A bridge stays faithful when a sink returns. -/
theorem answer
    (faithful : Faithful limit world)
    (succeeded : Bool) :
    Faithful limit (world.note (.answered succeeded)) where
  sound := faithful.sound
  limit_eq := faithful.limit_eq
  agrees id := by
    rw [World.note, courseOf_concat, deliveredFor_concat, Happening.notice?,
      Happening.event?, Option.toList_none, List.append_nil]
    exact faithful.agrees id

/-- The oldest event of a connection that is tracked is delivered. -/
theorem deliver
    (faithful : Faithful limit world)
    {id : ConnectionId}
    {key : StateKey}
    {event : ConnectionEvent}
    {bridge : Bridge}
    (found : world.bridge.key? id = some key)
    (isNext : world.bridge.popAt key = some (event, bridge)) :
    Faithful limit ({ world with bridge := bridge }.note (.delivered id event)) := by
  obtain ⟨queue, isQueue, rfl⟩ := popAt_eq_some_iff.mp isNext
  rw [stateAt_of_key?_eq_some found] at isQueue
  refine ⟨faithful.sound.updateAt _ _, faithful.limit_eq, ?_⟩
  intro other
  have agrees := faithful.agrees other
  have isState := faithful.sound.stateOf_updateAt found
    (fun state => { state with queue := queue }) other
  rw [World.note, courseOf_concat, deliveredFor_concat, Happening.notice?, Happening.event?]
  change (courseOf other world.history).Agrees limit _
    ((world.bridge.updateAt key fun state => { state with queue := queue }).stateOf other)
  rw [isState]
  by_cases same : other = id
  · rw [if_pos same, if_pos same]
    exact agrees.deliver (same ▸ isQueue)
  · rw [if_neg same, if_neg same, Option.toList_none, List.append_nil]
    exact agrees

/-- A bridge stays faithful when a connection is retired. -/
theorem retire
    (faithful : Faithful limit world)
    (id : ConnectionId) :
    Faithful limit { world with bridge := world.bridge.retireIfIdle id } where
  sound := faithful.sound.retireIfIdle id
  limit_eq := (limit_retireIfIdle ..).trans faithful.limit_eq
  agrees other := by
    have isKept := stateOf_retireIfIdle id (fun isIdle =>
      faithful.limit_eq ▸ (faithful.agrees id).eq_fresh_of_isIdle isIdle) other
    rw [isKept]
    exact faithful.agrees other

/-- A bridge stays faithful when a pass begins or ends. -/
theorem mark
    (faithful : Faithful limit world)
    (dispatching : Bool) :
    Faithful limit { world with bridge := world.bridge.mark dispatching } :=
  ⟨⟨faithful.sound.nodup_names, faithful.sound.nodup_keys, faithful.sound.isMade⟩,
    faithful.limit_eq, faithful.agrees⟩

end Faithful

/-! ## Passes -/

/-- What is tracked stays tracked, with the state that it has. -/
def KeepsTrack (earlier later : Bridge) : Prop :=
  ∀ ⦃id : ConnectionId⦄ ⦃key : StateKey⦄,
    earlier.key? id = some key → later.key? id = some key

/-- A bridge that is not cleared loses no connection. -/
theorem keepsTrack_onBridge
    (bridge : Bridge)
    {input : Input}
    (tracksOn : input ≠ .clear) :
    bridge.KeepsTrack (input.onBridge bridge) := by
  intro id key found
  cases input with
  | connect other => exact (key?_update ..).trans (key?_track_of_eq_some other found)
  | disconnect other => exact (key?_update ..).trans found
  | receive other chunk => exact (key?_update ..).trans found
  | clear => exact absurd rfl tracksOn

namespace Faithful

variable {limit : Nat} {world : World}

/-- A bridge stays faithful when a sink tells it several things. -/
theorem tellAll
    (faithful : Faithful limit world)
    {inputs : List Input}
    (tracksOn : .clear ∉ inputs) :
    Faithful limit (world.noteAll (inputs.map .told)) ∧
      world.bridge.KeepsTrack (world.noteAll (inputs.map .told)).bridge := by
  induction inputs generalizing world with
  | nil => exact ⟨faithful, fun _ _ found => found⟩
  | cons input inputs inductionHypothesis =>
      rw [List.mem_cons, not_or] at tracksOn
      obtain ⟨isOther, tracksOn⟩ := tracksOn
      obtain ⟨faithfulAfter, keepsTrack⟩ :=
        inductionHypothesis (faithful.tell (Ne.symm isOther)) tracksOn
      refine ⟨faithfulAfter, ?_⟩
      intro id key found
      apply keepsTrack
      exact keepsTrack_onBridge _ (Ne.symm isOther) found

/-- The sink is called with the oldest event of a connection, and tells the bridge things. -/
theorem callSink
    (faithful : Faithful limit world)
    {id : ConnectionId}
    {key : StateKey}
    {event : ConnectionEvent}
    {bridge : Bridge}
    (found : world.bridge.key? id = some key)
    (isNext : world.bridge.popAt key = some (event, bridge))
    {inputs : List Input}
    (tracksOn : .clear ∉ inputs)
    (succeeded : Bool) :
    Faithful limit ({ world with bridge := bridge }.noteAll
        (delivery id event inputs succeeded)) ∧
      world.bridge.KeepsTrack ({ world with bridge := bridge }.noteAll
        (delivery id event inputs succeeded)).bridge := by
  obtain ⟨told, keepsTrack⟩ := (faithful.deliver found isNext).tellAll tracksOn
  rw [World.noteAll_delivery]
  refine ⟨told.answer succeeded, ?_⟩
  intro other otherKey otherFound
  apply keepsTrack
  obtain ⟨queue, -, rfl⟩ := popAt_eq_some_iff.mp isNext
  exact otherFound

end Faithful

/-- A bridge stays faithful in a turn, and loses no connection. -/
theorem Turn.faithful
    {limit : Nat}
    {id : ConnectionId}
    {key : StateKey}
    {budget : Nat}
    {world last : World}
    {report lastReport : PassReport}
    (turn : Turn id key budget world report last lastReport)
    (neverClears : .told .clear ∉ last.history)
    (faithful : Faithful limit world)
    (found : world.bridge.key? id = some key) :
    Faithful limit last ∧ world.bridge.KeepsTrack last.bridge := by
  induction turn with
  | spent | runsOut => exact ⟨faithful, fun _ _ found => found⟩
  | delivers inputs succeeded isNext turn inductionHypothesis =>
      have tracksOn : .clear ∉ inputs := by
        intro clears
        apply neverClears
        apply turn.history_prefix.subset
        simp [delivery, clears]
      obtain ⟨faithfulAfter, keepsTrack⟩ :=
        faithful.callSink found isNext tracksOn succeeded
      obtain ⟨faithfulLast, keepsOn⟩ :=
        inductionHypothesis neverClears faithfulAfter (keepsTrack found)
      exact ⟨faithfulLast, fun _ _ found => keepsOn (keepsTrack found)⟩

/-- A pass may forget a connection at the end of its turn. Those whose turn is still to
come stay tracked. -/
theorem Visit.faithful
    {limit : Nat}
    {order : List (ConnectionId × StateKey)}
    {world last : World}
    {report lastReport : PassReport}
    (visit : Visit order world report last lastReport)
    (neverClears : .told .clear ∉ last.history)
    (faithful : Faithful limit world)
    (distinct : (order.map Prod.fst).Nodup)
    (areTracked : ∀ entry ∈ order, world.bridge.key? entry.1 = some entry.2) :
    Faithful limit last := by
  induction visit with
  | ends => exact faithful
  | @turns id key rest world middle last report middleReport lastReport turn visit
      inductionHypothesis =>
      have neverClearsInTurn : .told .clear ∉ middle.history := by
        intro clears
        apply neverClears
        exact visit.history_prefix.subset clears
      obtain ⟨faithfulMiddle, keepsTrack⟩ :=
        turn.faithful neverClearsInTurn faithful (areTracked _ List.mem_cons_self)
      obtain ⟨isFirst, distinct⟩ := List.nodup_cons.mp distinct
      apply inductionHypothesis neverClears (faithfulMiddle.retire id) distinct
      intro entry member
      have isOther : entry.1 ≠ id := by
        rintro rfl
        exact isFirst (List.mem_map.mpr ⟨entry, member, rfl⟩)
      exact (key?_retireIfIdle _ isOther).trans
        (keepsTrack (areTracked entry (List.mem_cons_of_mem _ member)))

/-- A bridge stays faithful in a pass. -/
theorem Pass.faithful
    {limit : Nat}
    {world last : World}
    {report : PassReport}
    (pass : Pass world report last)
    (neverClears : .told .clear ∉ last.history)
    (faithful : Faithful limit world) :
    Faithful limit last := by
  cases pass with
  | nested => exact faithful
  | runs isIdle isOrder visit =>
      refine (visit.faithful neverClears (faithful.mark true) ?_ ?_).mark false
      · exact (isOrder.map Prod.fst).nodup_iff.mpr faithful.sound.nodup_names
      · exact fun entry member => faithful.sound.key?_of_mem (isOrder.subset member)

/-- A bridge stays faithful all its life. -/
theorem Life.faithful
    {limit : Nat}
    {start last : World}
    (life : Life start last)
    (neverClears : .told .clear ∉ last.history)
    (faithful : Faithful limit start) :
    Faithful limit last := by
  induction life with
  | begins => exact faithful
  | isTold life input inductionHypothesis =>
      rw [World.note, List.mem_append, not_or, List.mem_singleton] at neverClears
      obtain ⟨neverClearsBefore, isOther⟩ := neverClears
      have tracksOn : input ≠ .clear := by
        rintro rfl
        exact isOther rfl
      exact (inductionHypothesis neverClearsBefore).tell tracksOn
  | @passes world next report life pass inductionHypothesis =>
      have neverClearsBefore : .told .clear ∉ world.history := by
        intro clears
        apply neverClears
        exact pass.history_prefix.subset clears
      exact pass.faithful neverClears (inductionHypothesis neverClearsBefore)

/-! ## Whole runs -/

section Runs

open Stateful

/-- What was delivered for a connection, and what is still queued for it, tells of its
epochs one after the other, whatever the sinks do. In each epoch, what was received is what
a new decoder finds in the chunks of this epoch. Connects and disconnects alternate. -/
theorem runAll_delivers_epochs
    {m : Type → Type}
    [Monad m]
    {σ : Type}
    [Stateful m σ]
    {view : σ → World}
    {calls : List (Call m)}
    {limit : Nat}
    {before after : σ}
    (obeys : ∀ call ∈ calls, call.Obeys fun state world => world = view state)
    (isNew : view before = ⟨.new limit, []⟩)
    (returned : Returns (runAll calls) before () after)
    (neverClears : .told .clear ∉ (view after).history)
    (id : ConnectionId) :
    let told := deliveredFor id (view after).history ++ ((view after).bridge.stateOf id).queue
    let course := courseOf id (view after).history
    told = course.events limit ∧
      told.filter isBoundary =
        (List.replicate course.past.length [.connected, .disconnected]).flatten ++
          (course.current?.map fun _ => .connected).toList := by
  obtain ⟨last, life, rfl⟩ := life_of_runAll obeys .begins rfl returned
  have faithful := life.faithful neverClears (isNew ▸ faithful_new limit)
  have isTold := (faithful.agrees id).events_eq
  exact ⟨isTold, isTold ▸ Course.filter_isBoundary_events limit _⟩

/-- A host whose state is its world, with a sink that does nothing. -/
def quietAccess : Access (StateM World) where
  bridge := return (← get).bridge
  setBridge bridge := modify fun world => { world with bridge := bridge }
  arrange := pure
  sink id event := modifyGet fun world => (true, world.noteAll (delivery id event [] true))

/-- A sink that tries to start another pass, replies, and fails. -/
def replyingAccess
    (replies : ConnectionId → ConnectionEvent → List Input) : Access (StateM World) :=
  { quietAccess with
    sink := fun id event => do
      modify fun world => world.note (.delivered id event)
      let _ ← dispatch quietAccess
      modifyGet fun world =>
        (false, (world.noteAll ((replies id event).map .told)).note (.answered false)) }

/-- The host is told something. -/
def tellCall (input : Input) : Call (StateM World) :=
  .tell input (modify fun world => world.note (.told input))

theorem obeys_quietAccess : quietAccess.Obeys fun state world => world = state where
  bridge := by
    rintro before value after _ returned rfl
    cases returned
    exact ⟨rfl, rfl⟩
  setBridge := by
    rintro bridge before value after _ returned rfl
    cases returned
    rfl
  arrange := by
    rintro list before order after _ returned rfl
    cases returned
    exact ⟨.refl _, rfl⟩
  sink := by
    rintro id event before succeeded after _ returned rfl -
    cases returned
    exact ⟨[], rfl⟩

/-- A sink that replies to events is lawful. -/
theorem obeys_replyingAccess (replies : ConnectionId → ConnectionEvent → List Input) :
    (replyingAccess replies).Obeys fun state world => world = state where
  bridge := obeys_quietAccess.bridge
  setBridge := obeys_quietAccess.setBridge
  arrange := obeys_quietAccess.arrange
  sink := by
    rintro id event before succeeded after _ returned rfl isRunning
    simp only [replyingAccess, returns_bind_iff] at returned
    obtain ⟨_, handedOut, hasNoted, report, dispatched, hasDispatched, returned⟩ := returned
    cases hasNoted
    obtain ⟨_, pass, rfl⟩ := obeys_quietAccess.pass rfl hasDispatched
    obtain ⟨rfl, -⟩ := pass.eq_of_dispatching isRunning
    cases returned
    exact ⟨replies id event, World.noteAll_delivery ..⟩

theorem obeys_tellCall (input : Input) :
    (tellCall input).Obeys fun state world => world = state := by
  rintro before value after _ returned rfl
  cases returned
  rfl

/-- A peer that hangs up when it hears something. -/
def hangUp
    (id : ConnectionId) : ConnectionEvent → List Input
  | .received _ => [.disconnect id]
  | .connected | .disconnected => []

/-- A connection that ends within a packet, is forgotten, and begins again. -/
def rejoinCalls (id : ConnectionId) : List (Call (StateM World)) :=
  [.connect id, .receive id [6, 0, 0], .disconnect id].map tellCall ++
    .dispatch (replyingAccess hangUp) ::
    [.receive id [0, 65], .connect id, .connect id, .receive id [6, 0, 0, 0, 0, 66]].map
      tellCall ++ [.dispatch (replyingAccess hangUp)]

theorem obeys_rejoinCalls (id : ConnectionId) :
    ∀ call ∈ rejoinCalls id, call.Obeys fun state world => world = state := by
  intro call member
  simp only [rejoinCalls, List.mem_append, List.mem_cons, List.mem_map, List.not_mem_nil,
    or_false] at member
  rcases member with (⟨input, -, rfl⟩ | rfl | ⟨input, -, rfl⟩) | rfl
  · exact obeys_tellCall input
  · exact obeys_replyingAccess hangUp
  · exact obeys_tellCall input
  · exact obeys_replyingAccess hangUp

/-- A connection that begins again in a pass is delivered as two epochs. -/
theorem rejoinCalls_deliver_epochs :
    let last := ((runAll (rejoinCalls ⟨"peer"⟩)).run ⟨.new 64, []⟩).2
    let told := deliveredFor ⟨"peer"⟩ last.history ++ (last.bridge.stateOf ⟨"peer"⟩).queue
    let course := courseOf ⟨"peer"⟩ last.history
    told = course.events 64 ∧
      told.filter isBoundary =
        (List.replicate course.past.length [.connected, .disconnected]).flatten ++
          (course.current?.map fun _ => .connected).toList :=
  runAll_delivers_epochs (obeys_rejoinCalls ⟨"peer"⟩) rfl
    (returns_run (runAll (rejoinCalls ⟨"peer"⟩)) ⟨.new 64, []⟩) (by decide +kernel) ⟨"peer"⟩

example :
    let last := ((runAll (rejoinCalls ⟨"peer"⟩)).run ⟨.new 64, []⟩).2
    (last.bridge.stateOf ⟨"peer"⟩).queue = [.disconnected] ∧
      deliveredFor ⟨"peer"⟩ last.history =
        [.connected, .disconnected, .connected, .received (.bytes [66])] := by
  decide +kernel

end Runs

end Bridge
end ScriptHost
