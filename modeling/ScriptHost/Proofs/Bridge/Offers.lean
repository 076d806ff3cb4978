import ScriptHost.Proofs.Bridge.Snapshots

/-!
# Offers of a pass

A pass delivers for each connection what is queued for it when its turn starts, or when the
bridge is cleared for the first time, if that is earlier. Meanwhile the bridge knows of every
connection what was reported about it since the last clear, and nothing else; what the pass
still delivers from the states that it holds is not known to it.
-/

namespace ScriptHost
namespace Bridge

/-! ## All connections in a pass -/

namespace Faithful

variable {limit : Nat} {world : World}

/-- A bridge that is cleared begins anew. -/
theorem clear (faithful : Faithful limit world) : Faithful limit ⟨world.bridge.clear, []⟩ where
  sound := faithful.sound.onBridge .clear
  limit_eq := faithful.limit_eq
  agrees id := by
    have isFresh : world.bridge.clear.stateOf id = .fresh limit :=
      congrArg ConnectionState.fresh faithful.limit_eq
    rw [isFresh]
    exact Course.agrees_fresh limit

/-- A bridge does not know of the states that no name leads to. -/
theorem updateAt_of_isOrphan
    (faithful : Faithful limit world)
    {key : StateKey}
    (isOrphan : world.bridge.IsOrphan key)
    (isMade : key < world.bridge.states.size)
    (change : ConnectionState → ConnectionState) :
    Faithful limit { world with bridge := world.bridge.updateAt key change } where
  sound := faithful.sound.updateAt key change
  limit_eq := faithful.limit_eq
  agrees id := by
    rw [isOrphan.stateOf_updateAt isMade]
    exact faithful.agrees id

end Faithful

/-- A pass is under way. The bridge knows what it has to know, and the turns of some
connections are not over. -/
structure Underway
    (limit : Nat)
    (past : List Happening)
    (start : Bridge)
    (entries : List (ConnectionId × StateKey))
    (events : List Happening)
    (bridge : Bridge) : Prop where
  faithful : Faithful limit ⟨bridge, remembered past events⟩
  nodup_names : (entries.map Prod.fst).Nodup
  nodup_keys : (entries.map Prod.snd).Nodup
  awaits : ∀ id key, (id, key) ∈ entries → Awaits start events bridge id key

namespace Underway

variable {limit : Nat} {past events : List Happening} {start bridge : Bridge}
  {entries : List (ConnectionId × StateKey)} {id : ConnectionId} {key : StateKey}

theorem tell
    (underway : Underway limit past start entries events bridge)
    (input : Input) :
    Underway limit past start entries (events ++ [.told input]) (input.onBridge bridge) where
  faithful := by
    by_cases isClear : input = .clear
    · subst isClear
      rw [remembered_concat_clear]
      exact underway.faithful.clear
    · have isOther : Happening.told input ≠ .told .clear := by
        intro same
        cases same
        exact isClear rfl
      rw [remembered_concat isOther fun _ => rfl]
      exact underway.faithful.tell isClear
  nodup_names := underway.nodup_names
  nodup_keys := underway.nodup_keys
  awaits id key member := (underway.awaits id key member).tell underway.faithful.sound input

theorem tellAll
    {world : World}
    (underway : Underway limit past start entries events world.bridge)
    (inputs : List Input) :
    Underway limit past start entries (events ++ inputs.map .told)
      (world.noteAll (inputs.map .told)).bridge := by
  induction inputs generalizing world events with
  | nil =>
      rw [List.map_nil, List.append_nil]
      exact underway
  | cons input inputs inductionHypothesis =>
      have toldAll := @inductionHypothesis _ (world.note (.told input)) (underway.tell input)
      rw [List.append_assoc, List.singleton_append] at toldAll
      exact toldAll

theorem answer
    (underway : Underway limit past start entries events bridge)
    (succeeded : Bool) :
    Underway limit past start entries (events ++ [.answered succeeded]) bridge where
  faithful := by
    rw [remembered_concat Happening.noConfusion fun _ => rfl]
    exact underway.faithful.answer succeeded
  nodup_names := underway.nodup_names
  nodup_keys := underway.nodup_keys
  awaits id key member := (underway.awaits id key member).answer succeeded

/-- Names and keys belong together. -/
theorem eq_iff_eq
    (underway : Underway limit past start entries events bridge)
    {other : ConnectionId}
    {otherKey : StateKey}
    (member : (id, key) ∈ entries)
    (otherMember : (other, otherKey) ∈ entries) :
    id = other ↔ key = otherKey := by
  constructor
  · intro same
    exact congrArg Prod.snd
      (List.inj_on_of_nodup_map underway.nodup_names member otherMember same)
  · intro same
    exact congrArg Prod.fst
      (List.inj_on_of_nodup_map underway.nodup_keys member otherMember same)

theorem deliver
    (underway : Underway limit past start entries events bridge)
    (member : (id, key) ∈ entries)
    {event : ConnectionEvent}
    {next : Bridge}
    (isNext : bridge.popAt key = some (event, next)) :
    Underway limit past start entries (events ++ [.delivered id event]) next where
  faithful := by
    have awaits := underway.awaits id key member
    by_cases clears : .told .clear ∈ events
    · obtain ⟨queue, -, rfl⟩ := popAt_eq_some_iff.mp isNext
      rw [remembered_concat_delivered clears]
      exact underway.faithful.updateAt_of_isOrphan (awaits.isOrphan clears) awaits.isMade _
    · rw [remembered_concat Happening.noConfusion fun clearsNow => absurd clearsNow clears]
      exact underway.faithful.deliver (awaits.found clears) isNext
  nodup_names := underway.nodup_names
  nodup_keys := underway.nodup_keys
  awaits other otherKey otherMember :=
    (underway.awaits other otherKey otherMember).deliver (underway.awaits id key member)
      (underway.eq_iff_eq otherMember member) isNext

/-- The sink is called with the oldest event of a connection, and tells the bridge things. -/
theorem callSink
    {world : World}
    (underway : Underway limit past start entries events world.bridge)
    (member : (id, key) ∈ entries)
    {event : ConnectionEvent}
    {next : Bridge}
    (isNext : world.bridge.popAt key = some (event, next))
    (inputs : List Input)
    (succeeded : Bool) :
    Underway limit past start entries (events ++ delivery id event inputs succeeded)
      ({ world with bridge := next }.noteAll (delivery id event inputs succeeded)).bridge := by
  have handedOut := underway.deliver member isNext
  have hasTold := @tellAll limit past _ start entries
    ({ world with bridge := next }.note (.delivered id event)) handedOut inputs
  have isSplit : events ++ delivery id event inputs succeeded =
      events ++ [.delivered id event] ++ inputs.map .told ++ [.answered succeeded] := by
    simp [delivery]
  rw [World.noteAll_delivery, isSplit]
  exact hasTold.answer succeeded

theorem retire
    (underway : Underway limit past start ((id, key) :: entries) events bridge) :
    Underway limit past start entries events (bridge.retireIfIdle id) where
  faithful := underway.faithful.retire id
  nodup_names := underway.nodup_names.tail
  nodup_keys := underway.nodup_keys.tail
  awaits other otherKey member := by
    refine (underway.awaits other otherKey (List.mem_cons_of_mem _ member)).retire ?_
    rintro rfl
    exact (List.nodup_cons.mp underway.nodup_names).1 (List.mem_map.mpr ⟨_, member, rfl⟩)

end Underway

/-- A turn delivers as many events as its budget says, whatever becomes of the bridge. -/
theorem Turn.underway
    {limit : Nat}
    {past events : List Happening}
    {start : Bridge}
    {entries : List (ConnectionId × StateKey)}
    {id : ConnectionId}
    {key : StateKey}
    {budget : Nat}
    {world last : World}
    {report lastReport : PassReport}
    (turn : Turn id key budget world report last lastReport)
    (underway : Underway limit past start entries events world.bridge)
    (member : (id, key) ∈ entries)
    (isQueued : (deliveredFor id events).length + budget ≤ (offered start id events).length) :
    ∃ more, last.history = world.history ++ more ∧
      Underway limit past start entries (events ++ more) last.bridge ∧
      (deliveredFor id more).length = budget ∧
      (∀ other, other ≠ id → deliveredFor other more = []) ∧
      (more = [] ∨ ∃ event rest, more = .delivered id event :: rest) := by
  induction turn generalizing events with
  | spent world report =>
      refine ⟨[], (List.append_nil _).symm, ?_, rfl, fun _ _ => rfl, .inl rfl⟩
      rw [List.append_nil]
      exact underway
  | @runsOut world budget report isEmpty =>
      have isSpent : (offered start id events).drop (deliveredFor id events).length = [] := by
        rw [popAt_eq_none_iff, (underway.awaits id key member).stateAt_eq] at isEmpty
        exact isEmpty
      have isShort := Nat.le_trans isQueued (List.drop_eq_nil_iff.mp isSpent)
      exact absurd isShort (by omega)
  | @delivers world last next event budget report lastReport inputs succeeded isNext turn
      inductionHypothesis =>
      have isOne : (deliveredFor id (delivery id event inputs succeeded)).length = 1 := by
        rw [deliveredFor_delivery, if_pos rfl]
        rfl
      have stillQueued : (deliveredFor id (events ++ delivery id event inputs succeeded)).length +
          budget ≤ (offered start id (events ++ delivery id event inputs succeeded)).length := by
        refine Nat.le_trans ?_ (offered_isPrefix start id events _).length_le
        rw [deliveredFor_append, List.length_append, isOne]
        omega
      obtain ⟨more, isHistory, underwayLast, isSpent, others, -⟩ :=
        inductionHypothesis (underway.callSink member isNext inputs succeeded) stillQueued
      refine ⟨delivery id event inputs succeeded ++ more, ?_, ?_, ?_, ?_, ?_⟩
      · rw [isHistory, World.history_noteAll, List.append_assoc]
      · rw [← List.append_assoc]
        exact underwayLast
      · rw [deliveredFor_append, List.length_append, isOne, isSpent, Nat.add_comm]
      · intro other isOther
        rw [deliveredFor_append, deliveredFor_delivery, if_neg isOther, others other isOther]
        rfl
      · exact .inr ⟨event, _, rfl⟩

/-- The turn of a connection delivers what is queued for it when it starts. -/
theorem Turn.delivers_offered
    {limit : Nat}
    {past events : List Happening}
    {start : Bridge}
    {entries : List (ConnectionId × StateKey)}
    {id : ConnectionId}
    {key : StateKey}
    {world last : World}
    {report lastReport : PassReport}
    (turn : Turn id key (world.bridge.stateAt key).queue.length world report last lastReport)
    (underway : Underway limit past start entries events world.bridge)
    (member : (id, key) ∈ entries)
    (isFirst : deliveredFor id events = []) :
    ∃ more, last.history = world.history ++ more ∧
      Underway limit past start entries (events ++ more) last.bridge ∧
      deliveredFor id more = offered start id events ∧
      (∀ other, other ≠ id → deliveredFor other more = []) ∧
      (more = [] ∨ ∃ event rest, more = .delivered id event :: rest) := by
  have isBudget : (world.bridge.stateAt key).queue.length = (offered start id events).length := by
    rw [(underway.awaits id key member).stateAt_eq, isFirst]
    rfl
  rw [isBudget] at turn
  obtain ⟨more, isHistory, underwayLast, isSpent, others, isHead⟩ :=
    turn.underway underway member (by rw [isFirst, List.length_nil, Nat.zero_add])
  refine ⟨more, isHistory, underwayLast, ?_, others, isHead⟩
  have isPrefix := (underwayLast.awaits id key member).delivered_isPrefix
  rw [deliveredFor_append, isFirst, List.nil_append] at isPrefix
  exact (List.prefix_of_prefix_length_le isPrefix (offered_isPrefix start id events more)
    (Nat.le_of_eq isSpent)).eq_of_length isSpent

/-- The turn of a connection comes in what happens after some events: nothing is delivered for
it before, and then what is queued for it, beginning at once if there is something. -/
def HasTurn
    (start : Bridge)
    (id : ConnectionId)
    (events more : List Happening) : Prop :=
  ∃ before after, more = before ++ after ∧ deliveredFor id before = [] ∧
    deliveredFor id after = offered start id (events ++ before) ∧
    (deliveredFor id after = [] ∨ ∃ event rest, after = .delivered id event :: rest)

/-- A turn that comes at once, and something that happens after it. -/
theorem hasTurn_append
    {start : Bridge}
    {id : ConnectionId}
    {events during later : List Happening}
    (isDelivered : deliveredFor id during = offered start id events)
    (isHead : during = [] ∨ ∃ event rest, during = .delivered id event :: rest)
    (noneLater : deliveredFor id later = []) :
    HasTurn start id events (during ++ later) := by
  refine ⟨[], during ++ later, rfl, rfl, ?_, ?_⟩
  · rw [deliveredFor_append, noneLater, List.append_nil, List.append_nil]
    exact isDelivered
  · rcases isHead with rfl | ⟨event, rest, rfl⟩
    · exact .inl noneLater
    · exact .inr ⟨event, _, rfl⟩

/-- A turn that comes after the turn of another connection. -/
theorem HasTurn.append_left
    {start : Bridge}
    {id : ConnectionId}
    {events during later : List Happening}
    (hasTurn : HasTurn start id (events ++ during) later)
    (noneDuring : deliveredFor id during = []) :
    HasTurn start id events (during ++ later) := by
  obtain ⟨before, after, rfl, noneBefore, isOffered, isHead⟩ := hasTurn
  refine ⟨during ++ before, after, (List.append_assoc ..).symm, ?_, ?_, isHead⟩
  · rw [deliveredFor_append, noneDuring, noneBefore]
    rfl
  · rw [← List.append_assoc]
    exact isOffered

/-- A visit delivers for every connection what is queued for it when its turn starts. -/
theorem Visit.delivers_offered
    {limit : Nat}
    {past events : List Happening}
    {start : Bridge}
    {order : List (ConnectionId × StateKey)}
    {world last : World}
    {report lastReport : PassReport}
    (visit : Visit order world report last lastReport)
    (underway : Underway limit past start order events world.bridge)
    (isFirst : ∀ id key, (id, key) ∈ order → deliveredFor id events = []) :
    ∃ more, last.history = world.history ++ more ∧
      Underway limit past start [] (events ++ more) last.bridge ∧
      (∀ id, id ∉ order.map Prod.fst → deliveredFor id more = []) ∧
      ∀ id key, (id, key) ∈ order → HasTurn start id events more := by
  induction visit generalizing events with
  | ends world report =>
      refine ⟨[], (List.append_nil _).symm, ?_, fun _ _ => rfl, fun _ _ member => nomatch member⟩
      rw [List.append_nil]
      exact underway
  | @turns id key rest world middle last report middleReport lastReport turn visit
      inductionHypothesis =>
      have isFirstNow := isFirst id key List.mem_cons_self
      obtain ⟨during, isMiddle, underwayMiddle, isDelivered, others, isHead⟩ :=
        turn.delivers_offered underway List.mem_cons_self isFirstNow
      have notLater := (List.nodup_cons.mp underway.nodup_names).1
      have isOther : ∀ other otherKey, (other, otherKey) ∈ rest → other ≠ id := by
        rintro other otherKey member rfl
        exact notLater (List.mem_map.mpr ⟨_, member, rfl⟩)
      have isFirstLater : ∀ other otherKey, (other, otherKey) ∈ rest →
          deliveredFor other (events ++ during) = [] := by
        intro other otherKey member
        rw [deliveredFor_append, isFirst other otherKey (List.mem_cons_of_mem _ member),
          others other (isOther other otherKey member)]
        rfl
      obtain ⟨later, isLast, underwayLast, noneLater, turnsLater⟩ :=
        inductionHypothesis underwayMiddle.retire isFirstLater
      refine ⟨during ++ later, ?_, ?_, ?_, ?_⟩
      · rw [isLast, isMiddle, List.append_assoc]
      · rw [← List.append_assoc]
        exact underwayLast
      · intro other isNone
        rw [List.map_cons, List.mem_cons, not_or] at isNone
        rw [deliveredFor_append, others other isNone.1, noneLater other isNone.2]
        rfl
      · intro other otherKey member
        rcases List.mem_cons.mp member with same | isLater
        · cases same
          exact hasTurn_append isDelivered isHead (noneLater id notLater)
        · exact (turnsLater other otherKey isLater).append_left
            (others other (isOther other otherKey isLater))

/-! ## Whole passes and what comes after them -/

/-- A pass begins. -/
theorem Faithful.underway
    {limit : Nat}
    {past : List Happening}
    {bridge : Bridge}
    (faithful : Faithful limit ⟨bridge, past⟩)
    {order : List (ConnectionId × StateKey)}
    (isOrder : order.Perm bridge.tracked) :
    Underway limit past bridge order [] (bridge.mark true) where
  faithful := by
    rw [remembered_of_not_mem List.not_mem_nil, List.append_nil]
    exact faithful.mark true
  nodup_names := (isOrder.map Prod.fst).nodup_iff.mpr faithful.sound.nodup_names
  nodup_keys := (isOrder.map Prod.snd).nodup_iff.mpr faithful.sound.nodup_keys
  awaits id key member := by
    have isTracked := isOrder.subset member
    exact { Awaits.begins faithful.sound (faithful.sound.key?_of_mem isTracked) with }

/-- What happens in a pass until its sink is called for a connection; nothing, if it is never
called for it. -/
def beforeTurn
    (id : ConnectionId)
    (events : List Happening) : List Happening :=
  if deliveredFor id events = [] then []
  else events.takeWhile fun happening => (happening.event? id).isNone

theorem beforeTurn_of_deliveredFor_eq_nil
    {id : ConnectionId}
    {events : List Happening}
    (isNone : deliveredFor id events = []) :
    beforeTurn id events = [] :=
  if_pos isNone

theorem beforeTurn_isPrefix
    (id : ConnectionId)
    (events : List Happening) :
    beforeTurn id events <+: events := by
  rw [beforeTurn]
  split
  · exact List.nil_prefix
  · exact List.takeWhile_prefix _

theorem beforeTurn_append_delivered
    {id : ConnectionId}
    {before : List Happening}
    (noneBefore : deliveredFor id before = [])
    (event : ConnectionEvent)
    (rest : List Happening) :
    beforeTurn id (before ++ .delivered id event :: rest) = before := by
  have isEvent : (Happening.delivered id event).event? id = some event := if_pos rfl
  rw [beforeTurn, if_neg, List.takeWhile_append_of_pos, List.takeWhile_cons, isEvent]
  · exact List.append_nil before
  · intro happening member
    rw [Option.isNone_iff_eq_none]
    exact List.filterMap_eq_nil_iff.mp noneBefore happening member
  · rw [deliveredFor_append, deliveredFor, deliveredFor, List.filterMap_cons_some isEvent]
    exact List.append_ne_nil_of_right_ne_nil _ (List.cons_ne_nil _ _)

/-- After a pass, no pass is running. -/
theorem Pass.dispatching_eq
    {world last : World}
    {report : PassReport}
    (pass : Pass world report last)
    (isIdle : world.bridge.dispatching = false) :
    last.bridge.dispatching = false := by
  cases pass with
  | nested => exact isIdle
  | runs => rfl

/-- The beginning of a turn is found again in what happened. -/
theorem HasTurn.deliveredFor_eq
    {start : Bridge}
    {id : ConnectionId}
    {events : List Happening}
    (hasTurn : HasTurn start id [] events) :
    deliveredFor id events = offered start id (beforeTurn id events) := by
  obtain ⟨before, after, rfl, noneBefore, isOffered, isHead⟩ := hasTurn
  rw [List.nil_append] at isOffered
  have isWhole : deliveredFor id (before ++ after) = deliveredFor id after := by
    rw [deliveredFor_append, noneBefore, List.nil_append]
  rcases isHead with isNone | ⟨event, rest, rfl⟩
  · have isEmpty := offered_isPrefix start id [] before
    rw [List.nil_append, ← isOffered, isNone, List.prefix_nil] at isEmpty
    rw [beforeTurn_of_deliveredFor_eq_nil (isWhole.trans isNone), isWhole, isNone, isEmpty]
  · rw [beforeTurn_append_delivered noneBefore, isWhole]
    exact isOffered

/-- A pass delivers for every connection what is queued for it when its turn starts, without
what it is told after a clear. -/
theorem Pass.delivers_offered
    {limit : Nat}
    {past : List Happening}
    {world last : World}
    {report : PassReport}
    (pass : Pass world report last)
    (isIdle : world.bridge.dispatching = false)
    (faithful : Faithful limit ⟨world.bridge, past⟩) :
    ∃ events, last.history = world.history ++ events ∧
      Faithful limit ⟨last.bridge, remembered past events⟩ ∧
      ∀ id, deliveredFor id events = offered world.bridge id (beforeTurn id events) := by
  cases pass with
  | nested isRunning => cases isRunning.symm.trans isIdle
  | @runs unmarked _ order _ isOrder visit =>
      have begins := faithful.underway isOrder
      obtain ⟨events, isHistory, underway, noneDelivered, turns⟩ :=
        visit.delivers_offered begins fun _ _ _ => rfl
      refine ⟨events, isHistory, underway.faithful.mark false, ?_⟩
      intro id
      cases found : world.bridge.key? id with
      | none =>
          have isFresh : world.bridge.stateOf id = .fresh world.bridge.limit := by
            rw [stateOf, state?, found]
            rfl
          have isNone : deliveredFor id events = [] := by
            apply noneDelivered
            rw [(isOrder.map Prod.fst).mem_iff]
            exact (key?_eq_none_iff ..).mp found
          rw [beforeTurn_of_deliveredFor_eq_nil isNone, isNone]
          exact congrArg ConnectionState.queue isFresh.symm
      | some key =>
          have isVisited := isOrder.symm.subset (mem_tracked_of_key?_eq_some found)
          exact (turns id key isVisited).deliveredFor_eq

/-- Whatever happens to it, a bridge knows all that was reported since the last clear. -/
theorem Life.remembers
    {limit : Nat}
    {past : List Happening}
    {start last : World}
    (life : Life start last)
    (isIdle : start.bridge.dispatching = false)
    (faithful : Faithful limit ⟨start.bridge, past⟩) :
    last.bridge.dispatching = false ∧
      ∃ events known, last.history = start.history ++ events ∧
        Faithful limit ⟨last.bridge, known⟩ ∧
        (.told .clear ∉ events → known = past ++ events) := by
  induction life with
  | begins =>
      exact ⟨isIdle, [], past, (List.append_nil _).symm, faithful, fun _ =>
        (List.append_nil past).symm⟩
  | @isTold world life input inductionHypothesis =>
      obtain ⟨stillIdle, events, known, isHistory, remembers, isKnown⟩ := inductionHypothesis
      refine ⟨(dispatching_onBridge (.told input) _).trans stillIdle, events ++ [.told input], ?_⟩
      have isLonger : (world.note (.told input)).history =
          start.history ++ (events ++ [.told input]) := by
        rw [World.note, isHistory, List.append_assoc]
      by_cases isClear : input = .clear
      · subst isClear
        refine ⟨[], isLonger, remembers.clear, ?_⟩
        exact fun neverClears => absurd (List.mem_append_right _ List.mem_cons_self) neverClears
      · refine ⟨known ++ [Happening.told input], isLonger, remembers.tell isClear, ?_⟩
        intro neverClears
        rw [List.mem_append, not_or] at neverClears
        rw [isKnown neverClears.1, List.append_assoc]
  | @passes world next report life pass inductionHypothesis =>
      obtain ⟨stillIdle, events, known, isHistory, remembers, isKnown⟩ := inductionHypothesis
      obtain ⟨more, isNext, remembersNext, -⟩ := pass.delivers_offered stillIdle remembers
      refine ⟨pass.dispatching_eq stillIdle, events ++ more, remembered known more, ?_,
        remembersNext, ?_⟩
      · rw [isNext, isHistory, List.append_assoc]
      · intro neverClears
        rw [List.mem_append, not_or] at neverClears
        rw [remembered_of_not_mem neverClears.2, isKnown neverClears.1, List.append_assoc]

end Bridge
end ScriptHost
