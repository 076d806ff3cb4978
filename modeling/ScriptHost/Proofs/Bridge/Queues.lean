import ScriptHost.Proofs.Bridge.Epochs

/-!
# Queues of a bridge

What a bridge is told about a connection is appended to its queue, behind what is queued
already, also while the sink is called. So the turn of a connection delivers what was
queued when it started, in order, and leaves what was appended meanwhile; nothing is
delivered for it in the rest of the pass. Over a run, what was delivered and what is queued
are what would be queued if nothing were ever delivered.
-/

namespace ScriptHost
namespace Bridge

/-! ## One queue -/

/-- A state without its oldest events. -/
def skip
    (state : ConnectionState)
    (count : Nat) : ConnectionState :=
  { state with queue := state.queue.drop count }

/-- The state of a connection after several notices. -/
def noticedAll
    (state : ConnectionState)
    (notices : List Notice) : ConnectionState :=
  notices.foldl noticed state

/-- The events that notices append to a queue, whatever is in it. -/
def appended
    (state : ConnectionState)
    (notices : List Notice) : List ConnectionEvent :=
  (noticedAll (skip state state.queue.length) notices).queue

/-- A notice appends to the queue. -/
theorem queue_prefix_noticed
    (state : ConnectionState)
    (notice : Notice) :
    state.queue <+: (noticed state notice).queue := by
  cases notice with
  | begins =>
      rw [noticed, ConnectionState.connect]
      split
      · exact List.prefix_refl _
      · exact List.prefix_append _ _
  | ends =>
      rw [noticed, ConnectionState.disconnect]
      split
      · exact List.prefix_append _ _
      · exact List.prefix_refl _
  | brings chunk =>
      rw [noticed, ConnectionState.receive]
      split
      · exact List.prefix_append _ _
      · exact List.prefix_refl _

/-- It does not matter whether events are taken before or after a notice. -/
theorem noticed_skip
    {state : ConnectionState}
    {count : Nat}
    (isQueued : count ≤ state.queue.length)
    (notice : Notice) :
    noticed (skip state count) notice = skip (noticed state notice) count := by
  cases notice with
  | begins =>
      cases connected : state.connected <;>
        simp [noticed, skip, ConnectionState.connect, connected,
          List.drop_append_of_le_length isQueued]
  | ends =>
      cases connected : state.connected <;>
        simp [noticed, skip, ConnectionState.disconnect, connected,
          List.drop_append_of_le_length isQueued]
  | brings chunk =>
      cases connected : state.connected <;>
        simp [noticed, skip, ConnectionState.receive, connected,
          List.drop_append_of_le_length isQueued]

/-- What a state is told only adds to the end of its queue. -/
theorem queue_prefix_noticedAll
    (state : ConnectionState)
    (notices : List Notice) :
    state.queue <+: (noticedAll state notices).queue := by
  induction notices generalizing state with
  | nil => exact List.prefix_refl _
  | cons notice notices inductionHypothesis =>
      exact (queue_prefix_noticed state notice).trans (inductionHypothesis _)

/-- What is taken from the front of a queue does not matter to what is told later. -/
theorem noticedAll_skip
    {state : ConnectionState}
    {count : Nat}
    (isQueued : count ≤ state.queue.length)
    (notices : List Notice) :
    noticedAll (skip state count) notices = skip (noticedAll state notices) count := by
  induction notices generalizing state with
  | nil => rfl
  | cons notice notices inductionHypothesis =>
      have isStillQueued := Nat.le_trans isQueued (queue_prefix_noticed state notice).length_le
      rw [noticedAll, List.foldl_cons, noticed_skip isQueued]
      exact inductionHypothesis isStillQueued

/-- What notices append stands behind what was queued. -/
theorem queue_noticedAll
    (state : ConnectionState)
    (notices : List Notice) :
    (noticedAll state notices).queue = state.queue ++ appended state notices := by
  rw [appended, noticedAll_skip (Nat.le_refl _)]
  exact (List.prefix_iff_eq_append.mp (queue_prefix_noticedAll state notices)).symm

@[simp] theorem appended_nil (state : ConnectionState) : appended state [] = [] :=
  List.drop_length

@[simp] theorem skip_skip
    (state : ConnectionState)
    (first second : Nat) :
    skip (skip state first) second = skip state (first + second) := by
  simp [skip]

/-- The reports about a connection, in order. -/
def noticesFor
    (id : ConnectionId)
    (history : List Happening) : List Notice :=
  history.filterMap (Happening.notice? id)

/-- What a connection is told is told in the order of time. -/
theorem noticesFor_append
    (id : ConnectionId)
    (first second : List Happening) :
    noticesFor id (first ++ second) = noticesFor id first ++ noticesFor id second :=
  List.filterMap_append

/-- The course of a connection goes on with what it is told. -/
theorem courseOf_append
    (id : ConnectionId)
    (first second : List Happening) :
    courseOf id (first ++ second) =
      (noticesFor id second).foldl Course.step (courseOf id first) := by
  rw [courseOf, List.filterMap_append, List.foldl_append]
  rfl

theorem noticesFor_told_cons
    (id : ConnectionId)
    (input : Input)
    (history : List Happening) :
    noticesFor id (.told input :: history) =
      (input.notice? id).toList ++ noticesFor id history := by
  rw [noticesFor, List.filterMap_cons, Happening.notice?]
  cases input.notice? id <;> rfl

theorem deliveredFor_append
    (id : ConnectionId)
    (first second : List Happening) :
    deliveredFor id (first ++ second) = deliveredFor id first ++ deliveredFor id second :=
  List.filterMap_append

/-! ## One delivery -/

/-- A sink is called. -/
def Happening.isDelivery : Happening → Bool
  | delivered _ _ => true
  | _ => false

/-- A sink fails. -/
def Happening.isFailure : Happening → Bool
  | answered succeeded => !succeeded
  | _ => false

/-- In a delivery the sink is given one event of one connection. -/
theorem deliveredFor_delivery
    (id other : ConnectionId)
    (event : ConnectionEvent)
    (inputs : List Input)
    (succeeded : Bool) :
    deliveredFor other (delivery id event inputs succeeded) =
      if other = id then [event] else [] := by
  have noneTold : (inputs.map Happening.told).filterMap (Happening.event? other) = [] := by
    rw [List.filterMap_map, List.filterMap_eq_nil_iff]
    exact fun input _ => rfl
  rw [deliveredFor, delivery, List.filterMap_cons, List.filterMap_append, noneTold]
  by_cases same : other = id <;> simp [Happening.event?, same]

/-- In a delivery connections are told what the sink tells them. -/
theorem noticesFor_delivery
    (id other : ConnectionId)
    (event : ConnectionEvent)
    (inputs : List Input)
    (succeeded : Bool) :
    noticesFor other (delivery id event inputs succeeded) =
      noticesFor other (inputs.map .told) := by
  rw [noticesFor, delivery, List.filterMap_cons_none rfl, List.filterMap_append,
    List.filterMap_cons_none rfl, List.filterMap_nil, List.append_nil, noticesFor]

/-- A delivery counts as one. -/
theorem countP_isDelivery_delivery
    (id : ConnectionId)
    (event : ConnectionEvent)
    (inputs : List Input)
    (succeeded : Bool) :
    (delivery id event inputs succeeded).countP Happening.isDelivery = 1 := by
  simp [delivery, Happening.isDelivery, List.countP_cons, List.countP_map]

/-- A delivery fails if its sink does not succeed. -/
theorem countP_isFailure_delivery
    (id : ConnectionId)
    (event : ConnectionEvent)
    (inputs : List Input)
    (succeeded : Bool) :
    (delivery id event inputs succeeded).countP Happening.isFailure =
      if succeeded then 0 else 1 := by
  cases succeeded <;> simp [delivery, Happening.isFailure, List.countP_map]

/-- Nothing is cleared between two worlds. -/
def World.TracksOn (world last : World) : Prop :=
  ∀ events, last.history = world.history ++ events → .told .clear ∉ events

/-- What is tracked throughout is tracked in every part of the time. -/
theorem World.TracksOn.split
    {world middle last : World}
    (tracksOn : world.TracksOn last)
    (before : world.history <+: middle.history)
    (after : middle.history <+: last.history) :
    world.TracksOn middle ∧ middle.TracksOn last := by
  obtain ⟨first, isFirst⟩ := before
  obtain ⟨second, isSecond⟩ := after
  have isWhole : last.history = world.history ++ (first ++ second) := by
    rw [← List.append_assoc, isFirst, isSecond]
  have neverCleared := tracksOn _ isWhole
  rw [List.mem_append, not_or] at neverCleared
  constructor
  · intro events isEvents
    rw [isEvents, List.append_cancel_left_eq] at isFirst
    exact isFirst ▸ neverCleared.1
  · intro events isEvents
    rw [isEvents, List.append_cancel_left_eq] at isSecond
    exact isSecond ▸ neverCleared.2

/-- What part of a pass does that visits some connections: it delivers for no others and
keeps track of them, and it counts the calls of the sink. -/
structure Progress
    (visited : List ConnectionId)
    (world : World)
    (report : PassReport)
    (events : List Happening)
    (last : World)
    (lastReport : PassReport) : Prop where
  history_eq : last.history = world.history ++ events
  sound : last.bridge.Sound
  key?_eq : ∀ ⦃id key⦄, id ∉ visited → world.bridge.key? id = some key →
    last.bridge.key? id = some key
  deliveredFor_eq : ∀ ⦃id⦄, id ∉ visited → deliveredFor id events = []
  delivered_eq : lastReport.delivered = report.delivered + events.countP Happening.isDelivery
  failures_eq : lastReport.failures = report.failures + events.countP Happening.isFailure

namespace Progress

variable {visited : List ConnectionId} {world middle last : World}
  {report middleReport lastReport : PassReport} {events : List Happening}

/-- Where nothing happens, nothing is delivered. -/
theorem none
    (sound : world.bridge.Sound)
    (visited : List ConnectionId)
    (report : PassReport) :
    Progress visited world report [] world report :=
  ⟨(List.append_nil _).symm, sound, fun _ _ _ found => found, fun _ _ => rfl, rfl, rfl⟩

/-- A pass that visits more has made the same progress. -/
theorem mono
    {also : List ConnectionId}
    (progress : Progress visited world report events last lastReport)
    (isMore : visited ⊆ also) :
    Progress also world report events last lastReport :=
  { progress with
    key?_eq := fun _ _ notVisited => progress.key?_eq fun isVisited => notVisited (isMore isVisited)
    deliveredFor_eq := fun _ notVisited =>
      progress.deliveredFor_eq fun isVisited => notVisited (isMore isVisited) }

/-- Progress is made step by step. -/
theorem trans
    {more : List Happening}
    (before : Progress visited world report events middle middleReport)
    (after : Progress visited middle middleReport more last lastReport) :
    Progress visited world report (events ++ more) last lastReport where
  history_eq := by rw [after.history_eq, before.history_eq, List.append_assoc]
  sound := after.sound
  key?_eq id key notVisited found := after.key?_eq notVisited (before.key?_eq notVisited found)
  deliveredFor_eq id notVisited := by
    rw [deliveredFor_append, before.deliveredFor_eq notVisited, after.deliveredFor_eq notVisited,
      List.append_nil]
  delivered_eq := by
    rw [after.delivered_eq, before.delivered_eq, List.countP_append, Nat.add_assoc]
  failures_eq := by
    rw [after.failures_eq, before.failures_eq, List.countP_append, Nat.add_assoc]

/-- A connection may be forgotten at the end of its turn. -/
theorem retire
    {id : ConnectionId}
    (progress : Progress visited world report events last lastReport)
    (isVisited : id ∈ visited) :
    Progress visited world report events
      { last with bridge := last.bridge.retireIfIdle id } lastReport :=
  { progress with
    sound := progress.sound.retireIfIdle id
    key?_eq := fun other key notVisited found => by
      have isOther : other ≠ id := by
        rintro rfl
        exact notVisited isVisited
      exact (key?_retireIfIdle _ isOther).trans (progress.key?_eq notVisited found) }

end Progress

/-- What a bridge is told leaves it sound and tracking what it tracks. -/
theorem Sound.tellAll
    {world : World}
    (sound : world.bridge.Sound)
    {inputs : List Input}
    (tracksOn : .clear ∉ inputs) :
    (world.noteAll (inputs.map .told)).bridge.Sound ∧
      world.bridge.KeepsTrack (world.noteAll (inputs.map .told)).bridge ∧
      ∀ id, (world.noteAll (inputs.map .told)).bridge.stateOf id =
        noticedAll (world.bridge.stateOf id) (noticesFor id (inputs.map .told)) := by
  induction inputs generalizing world with
  | nil => exact ⟨sound, fun _ _ found => found, fun _ => rfl⟩
  | cons input inputs inductionHypothesis =>
      rw [List.mem_cons, not_or] at tracksOn
      obtain ⟨isOther, tracksOn⟩ := tracksOn
      obtain ⟨soundAfter, keepsTrack, states⟩ :=
        @inductionHypothesis (world.note (.told input)) (sound.onBridge input) tracksOn
      refine ⟨soundAfter, ?_, ?_⟩
      · intro id key found
        exact keepsTrack (keepsTrack_onBridge _ (Ne.symm isOther) found)
      · intro id
        refine (states id).trans ?_
        have isState : (world.note (.told input)).bridge.stateOf id =
            (input.notice? id).elim (world.bridge.stateOf id)
              (noticed (world.bridge.stateOf id)) :=
          sound.stateOf_onBridge (Ne.symm isOther) id
        rw [isState, List.map_cons, noticesFor_told_cons]
        cases input.notice? id <;> rfl

/-- A delivery takes the oldest event of a connection and appends what the sink tells the
bridge about it. -/
theorem Sound.deliver
    {world : World}
    (sound : world.bridge.Sound)
    {id : ConnectionId}
    {key : StateKey}
    {event : ConnectionEvent}
    {bridge : Bridge}
    (found : world.bridge.key? id = some key)
    (isNext : world.bridge.popAt key = some (event, bridge))
    {inputs : List Input}
    (tracksOn : .clear ∉ inputs)
    (succeeded : Bool)
    (report : PassReport) :
    let next := { world with bridge := bridge }.noteAll (delivery id event inputs succeeded)
    Progress [id] world report (delivery id event inputs succeeded) next
        (report.record succeeded) ∧
      next.bridge.key? id = some key ∧
      (world.bridge.stateOf id).queue.head? = some event ∧
      next.bridge.stateOf id = noticedAll (skip (world.bridge.stateOf id) 1)
        (noticesFor id (delivery id event inputs succeeded)) := by
  obtain ⟨queue, isQueue, isBridge⟩ := popAt_eq_some_iff.mp isNext
  rw [stateAt_of_key?_eq_some found] at isQueue
  have soundTaken : bridge.Sound := isBridge ▸ sound.updateAt key _
  have isTaken : bridge.stateOf id = skip (world.bridge.stateOf id) 1 := by
    rw [isBridge, sound.stateOf_updateAt found, if_pos rfl, skip, isQueue]
    rfl
  have keepsKeys : world.bridge.KeepsTrack bridge := by
    rw [isBridge]
    exact fun _ _ found => found
  obtain ⟨soundAfter, keepsTrack, states⟩ :=
    @Sound.tellAll ({ world with bridge := bridge }.note (.delivered id event)) soundTaken
      inputs tracksOn
  intro next
  have sameBridge : next.bridge =
      (({ world with bridge := bridge }.note (.delivered id event)).noteAll
        (inputs.map .told)).bridge := by
    change (World.noteAll _ _).bridge = _
    rw [World.noteAll_delivery]
    rfl
  refine ⟨⟨World.history_noteAll .., sameBridge ▸ soundAfter, ?_, ?_, ?_, ?_⟩, ?_, ?_, ?_⟩
  · intro other otherKey isOther otherFound
    rw [sameBridge]
    exact keepsTrack (keepsKeys otherFound)
  · intro other isOther
    rw [deliveredFor_delivery, if_neg (fun same => isOther (List.mem_singleton.mpr same))]
  · rw [countP_isDelivery_delivery]
    rfl
  · rw [countP_isFailure_delivery]
    cases succeeded <;> rfl
  · rw [sameBridge]
    exact keepsTrack (keepsKeys found)
  · rw [isQueue]
    rfl
  · rw [sameBridge, states, noticesFor_delivery, ← isTaken]
    rfl

/-! ## One pass -/

/-- A turn delivers the oldest events of its connection, as many as its budget says, in
order. -/
theorem Turn.progress
    {id : ConnectionId}
    {key : StateKey}
    {budget : Nat}
    {world last : World}
    {report lastReport : PassReport}
    (turn : Turn id key budget world report last lastReport)
    (tracksOn : world.TracksOn last)
    (sound : world.bridge.Sound)
    (found : world.bridge.key? id = some key)
    (isQueued : budget ≤ (world.bridge.stateOf id).queue.length) :
    ∃ events, Progress [id] world report events last lastReport ∧
      last.bridge.key? id = some key ∧
      deliveredFor id events = (world.bridge.stateOf id).queue.take budget ∧
      last.bridge.stateOf id =
        noticedAll (skip (world.bridge.stateOf id) budget) (noticesFor id events) := by
  induction turn with
  | spent world report => exact ⟨[], .none sound _ _, found, List.take_zero.symm, rfl⟩
  | @runsOut world budget report isEmpty =>
      rw [popAt, stateAt_of_key?_eq_some found] at isEmpty
      cases isQueue : (world.bridge.stateOf id).queue with
      | nil =>
          rw [isQueue] at isQueued
          cases isQueued
      | cons event queue =>
          rw [isQueue] at isEmpty
          cases isEmpty
  | @delivers world last bridge event budget report lastReport inputs succeeded isNext turn
      inductionHypothesis =>
      have before : world.history <+: ({ world with bridge := bridge }.noteAll
          (delivery id event inputs succeeded)).history := by
        rw [World.history_noteAll]
        exact List.prefix_append ..
      obtain ⟨tracksOnNow, tracksOnLater⟩ := tracksOn.split before turn.history_prefix
      have noClear : .clear ∉ inputs := by
        intro clears
        apply tracksOnNow _ (World.history_noteAll ..)
        simp [delivery, clears]
      obtain ⟨progress, stillFound, isFirst, isState⟩ :=
        sound.deliver found isNext noClear succeeded report
      have stillQueued : budget ≤ (skip (world.bridge.stateOf id) 1).queue.length := by
        rw [skip, List.length_drop]
        exact Nat.le_sub_one_of_lt isQueued
      obtain ⟨rest, isGrown⟩ := queue_prefix_noticedAll (skip (world.bridge.stateOf id) 1)
        (noticesFor id (delivery id event inputs succeeded))
      obtain ⟨events, later, lastFound, isDelivered, isLast⟩ := inductionHypothesis tracksOnLater
        progress.sound stillFound (by
          rw [isState, ← isGrown, List.length_append]
          exact Nat.le_add_right_of_le stillQueued)
      refine ⟨_, progress.trans later, lastFound, ?_, ?_⟩
      · rw [isState, ← isGrown, List.take_append_of_le_length stillQueued] at isDelivered
        obtain ⟨queue, isQueue⟩ := List.head?_eq_some_iff.mp isFirst
        rw [deliveredFor_append, deliveredFor_delivery, if_pos rfl, isDelivered, skip, isQueue]
        rfl
      · rw [isLast, isState, ← noticedAll_skip stillQueued, skip_skip, noticesFor_append,
          Nat.add_comm]
        exact List.foldl_append.symm

/-- A turn whose budget is what is queued delivers just that, and leaves what was appended
meanwhile. -/
theorem Turn.delivers_queue
    {id : ConnectionId}
    {key : StateKey}
    {world last : World}
    {report lastReport : PassReport}
    (turn : Turn id key (world.bridge.stateAt key).queue.length world report last lastReport)
    (tracksOn : world.TracksOn last)
    (sound : world.bridge.Sound)
    (found : world.bridge.key? id = some key) :
    ∃ events, Progress [id] world report events last lastReport ∧
      last.bridge.key? id = some key ∧
      deliveredFor id events = (world.bridge.stateOf id).queue ∧
      (last.bridge.stateOf id).queue =
        appended (world.bridge.stateOf id) (noticesFor id events) := by
  rw [stateAt_of_key?_eq_some found] at turn
  obtain ⟨events, progress, lastFound, isDelivered, isLast⟩ :=
    turn.progress tracksOn sound found (Nat.le_refl _)
  rw [List.take_length] at isDelivered
  exact ⟨events, progress, lastFound, isDelivered, congrArg ConnectionState.queue isLast⟩

/-- A visit delivers of each connection what was queued at its turn. -/
theorem Visit.progress
    {order : List (ConnectionId × StateKey)}
    {world last : World}
    {report lastReport : PassReport}
    (visit : Visit order world report last lastReport)
    (tracksOn : world.TracksOn last)
    (sound : world.bridge.Sound)
    (distinct : (order.map Prod.fst).Nodup)
    (areTracked : ∀ entry ∈ order, world.bridge.key? entry.1 = some entry.2) :
    ∃ events, Progress (order.map Prod.fst) world report events last lastReport := by
  induction visit with
  | ends world report => exact ⟨[], .none sound _ _⟩
  | @turns id key rest world middle last report middleReport lastReport turn visit
      inductionHypothesis =>
      obtain ⟨tracksOnNow, tracksOnLater⟩ :=
        tracksOn.split turn.history_prefix visit.history_prefix
      obtain ⟨events, progress, -, -⟩ := turn.delivers_queue tracksOnNow sound
        (areTracked _ List.mem_cons_self)
      obtain ⟨isFirst, distinct⟩ := List.nodup_cons.mp distinct
      have retired := progress.retire (List.mem_singleton.mpr rfl)
      obtain ⟨more, later⟩ := inductionHypothesis tracksOnLater retired.sound distinct (by
        intro entry member
        refine retired.key?_eq ?_ (areTracked entry (List.mem_cons_of_mem _ member))
        intro same
        exact isFirst (List.mem_map.mpr ⟨entry, member, List.mem_singleton.mp same⟩))
      refine ⟨events ++ more, (retired.mono ?_).trans (later.mono ?_)⟩
      · exact List.cons_subset_cons _ (List.nil_subset _)
      · exact List.subset_cons_self ..

/-- A pass that visits a connection comes to its turn at some time. -/
theorem Visit.split
    {earlier later : List (ConnectionId × StateKey)}
    {id : ConnectionId}
    {key : StateKey}
    {world last : World}
    {report lastReport : PassReport}
    (visit : Visit (earlier ++ (id, key) :: later) world report last lastReport) :
    ∃ first firstReport turned turnedReport, Visit earlier world report first firstReport ∧
      Turn id key (first.bridge.stateAt key).queue.length first firstReport
        turned turnedReport ∧
      Visit later { turned with bridge := turned.bridge.retireIfIdle id } turnedReport
        last lastReport := by
  induction earlier generalizing world report with
  | nil =>
      cases visit with
      | turns turn visit => exact ⟨_, _, _, _, .ends _ _, turn, visit⟩
  | cons entry earlier inductionHypothesis =>
      cases visit with
      | turns turn visit =>
          obtain ⟨first, firstReport, turned, turnedReport, before, itsTurn, after⟩ :=
            inductionHypothesis visit
          exact ⟨first, firstReport, turned, turnedReport, .turns turn before, itsTurn, after⟩

/-- The turn of a connection in a visit, from `first` to `turned`. The sink is handed what is
queued for the connection at its beginning, in order and nothing for any other; what is
queued at its end was appended during it. In the rest of the visit, nothing is delivered for
the connection. -/
def DeliversQueue
    (order : List (ConnectionId × StateKey))
    (world last : World)
    (report : PassReport)
    (id : ConnectionId)
    (key : StateKey) : Prop :=
  ∃ earlier later first firstReport turned turnedReport,
    order = earlier ++ (id, key) :: later ∧
    Visit earlier world .zero first firstReport ∧
    Turn id key (first.bridge.stateOf id).queue.length first firstReport turned turnedReport ∧
    Visit later { turned with bridge := turned.bridge.retireIfIdle id } turnedReport
      last report ∧
    ∃ before during after, first.history = world.history ++ before ∧
      turned.history = first.history ++ during ∧ last.history = turned.history ++ after ∧
      deliveredFor id before = [] ∧ deliveredFor id after = [] ∧
      deliveredFor id during = (first.bridge.stateOf id).queue ∧
      (∀ other, other ≠ id → deliveredFor other during = []) ∧
      (turned.bridge.stateOf id).queue =
        appended (first.bridge.stateOf id) (noticesFor id during)

/-- A visit delivers the queue that a connection has at its turn. -/
theorem Visit.deliversQueue
    {order : List (ConnectionId × StateKey)}
    {world last : World}
    {report : PassReport}
    {id : ConnectionId}
    {key : StateKey}
    (visit : Visit order world .zero last report)
    (tracksOn : world.TracksOn last)
    (sound : world.bridge.Sound)
    (distinct : (order.map Prod.fst).Nodup)
    (areTracked : ∀ entry ∈ order, world.bridge.key? entry.1 = some entry.2)
    (isVisited : (id, key) ∈ order) :
    DeliversQueue order world last report id key := by
  obtain ⟨earlier, later, rfl⟩ := List.append_of_mem isVisited
  obtain ⟨first, firstReport, turned, turnedReport, visitBefore, turn, visitAfter⟩ := visit.split
  obtain ⟨tracksOnBefore, tracksOn⟩ := tracksOn.split visitBefore.history_prefix
    (turn.history_prefix.trans visitAfter.history_prefix)
  obtain ⟨tracksOnDuring, tracksOnAfter⟩ :=
    tracksOn.split turn.history_prefix visitAfter.history_prefix
  rw [List.map_append, List.map_cons, List.nodup_append', List.nodup_cons] at distinct
  obtain ⟨distinctBefore, ⟨notAfter, distinctAfter⟩, apart⟩ := distinct
  have notBefore : id ∉ earlier.map Prod.fst := fun member => apart member List.mem_cons_self
  obtain ⟨before, progressBefore⟩ := visitBefore.progress tracksOnBefore sound distinctBefore
    fun entry member => areTracked entry (List.mem_append_left _ member)
  have found := progressBefore.key?_eq notBefore
    (areTracked (id, key) (List.mem_append_right _ List.mem_cons_self))
  obtain ⟨during, progressDuring, -, isDelivered, isLeft⟩ :=
    turn.delivers_queue tracksOnDuring progressBefore.sound found
  have retired := progressDuring.retire (List.mem_singleton.mpr rfl)
  obtain ⟨after, progressAfter⟩ := visitAfter.progress tracksOnAfter retired.sound
    distinctAfter (by
      intro entry member
      have isEntry : entry.1 ∈ later.map Prod.fst := List.mem_map_of_mem member
      refine retired.key?_eq ?_ (progressBefore.key?_eq ?_ (areTracked entry
        (List.mem_append_right _ (List.mem_cons_of_mem _ member))))
      · intro isFirst
        exact notAfter (List.mem_singleton.mp isFirst ▸ isEntry)
      · intro isEarlier
        exact apart isEarlier (List.mem_cons_of_mem _ isEntry))
  rw [stateAt_of_key?_eq_some found] at turn
  refine ⟨earlier, later, first, firstReport, turned, turnedReport, rfl, visitBefore, turn,
    visitAfter, before, during, after, progressBefore.history_eq, progressDuring.history_eq,
    progressAfter.history_eq, progressBefore.deliveredFor_eq notBefore,
    progressAfter.deliveredFor_eq notAfter, isDelivered, ?_, isLeft⟩
  intro other isOther
  exact progressDuring.deliveredFor_eq fun same => isOther (List.mem_singleton.mp same)

/-- A pass delivers for every connection that is tracked when it begins what is queued when
its turn starts, and for no other. It counts the calls of the sink, and those that failed. -/
structure DeliversQueues
    (world : World)
    (report : PassReport)
    (last : World) : Prop where
  turns : ∃ order unmarked, order.Perm world.bridge.tracked ∧
    last = { unmarked with bridge := unmarked.bridge.mark false } ∧
    ∀ id key, world.bridge.key? id = some key →
      DeliversQueue order { world with bridge := world.bridge.mark true } unmarked report id key
  others : ∀ id events, world.bridge.key? id = none → last.history = world.history ++ events →
    deliveredFor id events = []
  counts : ∀ events, last.history = world.history ++ events →
    report.delivered = events.countP Happening.isDelivery ∧
      report.failures = events.countP Happening.isFailure

theorem Sound.mark
    {bridge : Bridge}
    (sound : bridge.Sound)
    (dispatching : Bool) :
    (bridge.mark dispatching).Sound :=
  ⟨sound.nodup_names, sound.nodup_keys, sound.isMade⟩

/-- A pass delivers the queues that connections have at their turns. -/
theorem Pass.deliversQueues
    {world last : World}
    {report : PassReport}
    (pass : Pass world report last)
    (isIdle : world.bridge.dispatching = false)
    (tracksOn : world.TracksOn last)
    (sound : world.bridge.Sound) :
    DeliversQueues world report last := by
  cases pass with
  | nested isRunning => cases isRunning.symm.trans isIdle
  | @runs unmarked _ order _ isOrder visit =>
      have distinct : (order.map Prod.fst).Nodup :=
        (isOrder.map Prod.fst).nodup_iff.mpr sound.nodup_names
      have areTracked : ∀ entry ∈ order, (world.bridge.mark true).key? entry.1 = some entry.2 :=
        fun entry member => sound.key?_of_mem (isOrder.subset member)
      obtain ⟨events, progress⟩ := visit.progress tracksOn (sound.mark true) distinct areTracked
      have isEvents : ∀ others, unmarked.history = world.history ++ others → others = events := by
        intro others isOthers
        exact List.append_cancel_left (isOthers.symm.trans progress.history_eq)
      refine ⟨⟨order, unmarked, isOrder, rfl, ?_⟩, ?_, ?_⟩
      · intro id key found
        exact visit.deliversQueue tracksOn (sound.mark true) distinct areTracked
          (isOrder.symm.subset (mem_tracked_of_key?_eq_some found))
      · intro id others absent isOthers
        rw [isEvents others isOthers]
        apply progress.deliveredFor_eq
        rw [(isOrder.map Prod.fst).mem_iff]
        exact (key?_eq_none_iff ..).mp absent
      · intro others isOthers
        rw [isEvents others isOthers, progress.delivered_eq, progress.failures_eq]
        exact ⟨Nat.zero_add _, Nat.zero_add _⟩

/-! ## Whole runs -/

/-- A bridge stays sound whatever happens to it. -/
theorem Sound.noteAll
    {world : World}
    (sound : world.bridge.Sound)
    (happenings : List Happening) :
    (world.noteAll happenings).bridge.Sound := by
  induction happenings generalizing world with
  | nil => exact sound
  | cons happening happenings inductionHypothesis =>
      apply @inductionHypothesis (world.note happening)
      cases happening with
      | told input => exact sound.onBridge input
      | delivered | answered => exact sound

/-- A bridge stays sound in a turn. -/
theorem Turn.sound
    {id : ConnectionId}
    {key : StateKey}
    {budget : Nat}
    {world last : World}
    {report lastReport : PassReport}
    (turn : Turn id key budget world report last lastReport)
    (sound : world.bridge.Sound) :
    last.bridge.Sound := by
  induction turn with
  | spent | runsOut => exact sound
  | delivers inputs succeeded isNext turn inductionHypothesis =>
      apply inductionHypothesis
      obtain ⟨queue, -, rfl⟩ := popAt_eq_some_iff.mp isNext
      exact Sound.noteAll (sound.updateAt _ _) _

/-- A bridge stays sound in a visit. -/
theorem Visit.sound
    {order : List (ConnectionId × StateKey)}
    {world last : World}
    {report lastReport : PassReport}
    (visit : Visit order world report last lastReport)
    (sound : world.bridge.Sound) :
    last.bridge.Sound := by
  induction visit with
  | ends => exact sound
  | turns turn visit inductionHypothesis =>
      exact inductionHypothesis ((turn.sound sound).retireIfIdle _)

/-- Between calls from outside, a bridge is sound and no pass is running. -/
theorem Life.sound
    {limit : Nat}
    {last : World}
    (life : Life ⟨.new limit, []⟩ last) :
    last.bridge.Sound ∧ last.bridge.dispatching = false := by
  induction life with
  | begins => exact ⟨sound_new limit, rfl⟩
  | isTold life input inductionHypothesis =>
      exact ⟨inductionHypothesis.1.onBridge input,
        (dispatching_onBridge (.told input) _).trans inductionHypothesis.2⟩
  | passes life pass inductionHypothesis =>
      obtain ⟨sound, isIdle⟩ := inductionHypothesis
      cases pass with
      | nested => exact ⟨sound, isIdle⟩
      | runs isIdle isOrder visit => exact ⟨(visit.sound (sound.mark true)).mark false, rfl⟩

/-- A state agrees with its course after whatever it is told. -/
theorem Course.Agrees.noticedAll
    {limit : Nat}
    {course : Course}
    {delivered : List ConnectionEvent}
    {state : ConnectionState}
    (agrees : course.Agrees limit delivered state)
    (notices : List Notice) :
    (notices.foldl Course.step course).Agrees limit delivered
      (Bridge.noticedAll state notices) := by
  induction notices generalizing course state with
  | nil => exact agrees
  | cons notice notices inductionHypothesis => exact inductionHypothesis (agrees.notice notice)

/-- What was delivered and what is queued is what would be queued if nothing had been
delivered. -/
theorem Faithful.appended_eq
    {limit : Nat}
    {world : World}
    (faithful : Faithful limit world)
    (id : ConnectionId) :
    deliveredFor id world.history ++ (world.bridge.stateOf id).queue =
      appended (.fresh limit) (noticesFor id world.history) := by
  rw [(faithful.agrees id).events_eq]
  exact ((Course.agrees_fresh limit).noticedAll (noticesFor id world.history)).events_eq.symm

section Runs

open Stateful

/-- What comes of calls while a pass is made is what the bridge is told: a pass within the pass
does nothing. -/
theorem Life.exists_told
    {start last : World}
    (life : Life start last)
    (isRunning : start.bridge.dispatching = true) :
    ∃ inputs : List Input, last = start.noteAll (inputs.map .told) := by
  induction life with
  | begins => exact ⟨[], rfl⟩
  | isTold _ input inductionHypothesis =>
      obtain ⟨inputs, rfl⟩ := inductionHypothesis
      refine ⟨inputs ++ [input], ?_⟩
      rw [List.map_append, World.noteAll_append]
      rfl
  | passes _ pass inductionHypothesis =>
      obtain ⟨inputs, rfl⟩ := inductionHypothesis
      have stillRunning := (World.dispatching_noteAll start (inputs.map .told)).trans isRunning
      obtain ⟨rfl, -⟩ := pass.eq_of_dispatching stillRunning
      exact ⟨inputs, rfl⟩

/-- A sink that is called may make any calls itself, also for a pass of its own: all that comes
of them is what the bridge is told. -/
theorem told_of_runAll
    {m : Type → Type}
    [Monad m]
    {σ : Type}
    [Stateful m σ]
    {shows : σ → World → Prop}
    {calls : List (Call m)}
    {world : World}
    {before after : σ}
    (obeys : ∀ call ∈ calls, call.Obeys shows)
    (isShown : shows before world)
    (isRunning : world.bridge.dispatching = true)
    (returned : Returns (runAll calls) before () after) :
    ∃ inputs : List Input, shows after (world.noteAll (inputs.map .told)) := by
  obtain ⟨last, life, isShown⟩ := life_of_runAll obeys .begins isShown returned
  obtain ⟨inputs, rfl⟩ := life.exists_told isRunning
  exact ⟨inputs, isShown⟩

/-- Whatever a sink tells the bridge while it is called, and whether or not it succeeds, a
pass on a bridge that came about by any calls delivers just what is queued for a connection
when its turn starts. Over a run in which nothing is cleared, every event that is appended to
a queue is delivered once, in the order in which they were appended, or still queued. -/
theorem dispatch_delivers_queues
    {m : Type → Type}
    [Monad m]
    {σ : Type}
    [Stateful m σ]
    {view : σ → World}
    {calls : List (Call m)}
    {access : Access m}
    {limit : Nat}
    {start before after : σ}
    {report : PassReport}
    (callsObey : ∀ call ∈ calls, call.Obeys fun state world => world = view state)
    (isNew : view start = ⟨.new limit, []⟩)
    (hasRun : Returns (runAll calls) start () before)
    (obeys : access.Obeys fun state world => world = view state)
    (returned : Returns (dispatch access) before report after)
    (tracksOn : (view before).TracksOn (view after)) :
    DeliversQueues (view before) report (view after) ∧
      (.told .clear ∉ (view before).history → ∀ id,
        deliveredFor id (view before).history ++ ((view before).bridge.stateOf id).queue =
          appended (.fresh limit) (noticesFor id (view before).history)) := by
  obtain ⟨world, life, rfl⟩ := life_of_runAll callsObey .begins rfl hasRun
  rw [isNew] at life
  obtain ⟨sound, isIdle⟩ := life.sound
  obtain ⟨last, pass, rfl⟩ := obeys.pass rfl returned
  refine ⟨pass.deliversQueues isIdle tracksOn sound, ?_⟩
  intro neverClears id
  exact (life.faithful neverClears (faithful_new limit)).appended_eq id

/-- A host whose sink makes calls and then succeeds or fails. -/
def callingAccess
    (calls : ConnectionId → ConnectionEvent → List (Call (StateM World)))
    (succeeds : ConnectionId → ConnectionEvent → Bool) : Access (StateM World) :=
  { quietAccess with
    sink := fun id event => do
      modify fun world => world.note (.delivered id event)
      runAll (calls id event)
      modifyGet fun world => (succeeds id event, world.note (.answered (succeeds id event))) }

/-- Sinks that make lawful calls are lawful. -/
theorem obeys_callingAccess
    {calls : ConnectionId → ConnectionEvent → List (Call (StateM World))}
    (obeys : ∀ id event, ∀ call ∈ calls id event, call.Obeys fun state world => world = state)
    (succeeds : ConnectionId → ConnectionEvent → Bool) :
    (callingAccess calls succeeds).Obeys fun state world => world = state where
  bridge := obeys_quietAccess.bridge
  setBridge := obeys_quietAccess.setBridge
  arrange := obeys_quietAccess.arrange
  sink := by
    rintro id event before succeeded after world returned rfl isRunning
    simp only [callingAccess, returns_bind_iff] at returned
    obtain ⟨_, handedOut, hasNoted, _, called, hasCalled, returned⟩ := returned
    cases hasNoted
    have stillRunning : (world.note (.delivered id event)).bridge.dispatching = true := isRunning
    obtain ⟨inputs, rfl⟩ := told_of_runAll (obeys id event) rfl stillRunning hasCalled
    cases returned
    exact ⟨inputs, World.noteAll_delivery ..⟩

/-- A peer that begins anew when it has begun, talks to another one, and tries to start
another pass. -/
def crossTalk
    (id other : ConnectionId)
    (called : ConnectionId) : ConnectionEvent → List (Call (StateM World))
  | .connected =>
      if called = id then
        [tellCall (.disconnect id), tellCall (.connect id),
          tellCall (.receive other [6, 0, 0, 0, 0, 66]), .dispatch quietAccess]
      else []
  | .received _ | .disconnected => []

theorem obeys_crossTalk
    (id other called : ConnectionId)
    (event : ConnectionEvent) :
    ∀ call ∈ crossTalk id other called event, call.Obeys fun state world => world = state := by
  cases event with
  | connected =>
      rw [crossTalk]
      split
      · simp only [List.forall_mem_cons]
        exact ⟨obeys_tellCall _, obeys_tellCall _, obeys_tellCall _, obeys_quietAccess,
          fun _ member => nomatch member⟩
      · exact fun _ member => nomatch member
  | received | disconnected => exact fun _ member => nomatch member

/-- A pass over two peers, one of which talks to the other while it is called and fails. -/
def crossTalkPass (world : World) : PassReport × World :=
  (dispatch (callingAccess (crossTalk ⟨"left"⟩ ⟨"right"⟩)
    fun id _ => id != ⟨"left"⟩)).run world

theorem crossTalkPass_delivers_queues :
    let before := ((runAll ([.connect ⟨"left"⟩, .connect ⟨"right"⟩].map tellCall)).run
      ⟨.new 64, []⟩).2
    DeliversQueues before (crossTalkPass before).1 (crossTalkPass before).2 ∧
      (.told .clear ∉ before.history → ∀ id,
        deliveredFor id before.history ++ (before.bridge.stateOf id).queue =
          appended (.fresh 64) (noticesFor id before.history)) := by
  intro before
  have callsObey : ∀ call ∈ [.connect ⟨"left"⟩, .connect ⟨"right"⟩].map tellCall,
      call.Obeys fun state world => world = state := by
    intro call member
    obtain ⟨input, -, rfl⟩ := List.mem_map.mp member
    exact obeys_tellCall input
  have neverClears : .told .clear ∉ (crossTalkPass before).2.history := by decide +kernel
  have tracksOn : before.TracksOn (crossTalkPass before).2 := by
    intro events isEvents clears
    rw [isEvents] at neverClears
    exact neverClears (List.mem_append_right _ clears)
  have hasRun := returns_run (runAll ([.connect ⟨"left"⟩, .connect ⟨"right"⟩].map tellCall))
    (World.mk (.new 64) [])
  have returned : Returns _ before (crossTalkPass before).1 (crossTalkPass before).2 :=
    returns_run (dispatch (callingAccess (crossTalk ⟨"left"⟩ ⟨"right"⟩) _)) before
  have accessObeys := obeys_callingAccess (obeys_crossTalk ⟨"left"⟩ ⟨"right"⟩)
    fun id _ => id != ⟨"left"⟩
  -- Elaborated on its own, so that the view is known before the worlds are compared.
  have delivered := dispatch_delivers_queues callsObey rfl hasRun accessObeys returned tracksOn
  exact delivered

example :
    let before := ((runAll ([.connect ⟨"left"⟩, .connect ⟨"right"⟩].map tellCall)).run
      ⟨.new 64, []⟩).2
    (crossTalkPass before).1 = ⟨3, 1⟩ ∧
      ((crossTalkPass before).2.bridge.stateOf ⟨"left"⟩).queue = [.disconnected, .connected] ∧
      ((crossTalkPass before).2.bridge.stateOf ⟨"right"⟩).queue = [] := by
  decide +kernel

end Runs

end Bridge
end ScriptHost
