import ScriptHost.Proofs.Bridge.Queues
import Mathlib.Data.List.DropRight

/-!
# Snapshots of a pass

A pass holds on to the states that it finds when it begins, whatever becomes of the bridge
meanwhile. Until something is cleared, these are the states that are tracked, and they hear
what the bridge is told. With a clear the bridge begins anew: the states that the pass holds
hear nothing more, but it can still take events from them.
-/

namespace ScriptHost
namespace Bridge

/-! ## Clears -/

/-- What happens before the first clear. -/
def untilClear (events : List Happening) : List Happening :=
  events.takeWhile fun happening => happening != .told .clear

/-- What happens after the last clear. -/
def sinceClear (events : List Happening) : List Happening :=
  events.rtakeWhile fun happening => happening != .told .clear

/-- What happens without what is delivered. -/
def reports (events : List Happening) : List Happening :=
  events.filter fun happening => !happening.isDelivery

/-- What a bridge has to know when some events of a pass have happened. With a clear it
forgets everything, and what the pass delivers afterwards is nothing that it knows of. -/
def remembered (past events : List Happening) : List Happening :=
  if .told .clear ∈ events then reports (sinceClear events) else past ++ events

/-- Without a clear, all events come before one. -/
theorem untilClear_of_not_mem
    {events : List Happening}
    (neverClears : .told .clear ∉ events) :
    untilClear events = events := by
  rw [untilClear, List.takeWhile_eq_self_iff]
  intro happening member
  exact bne_iff_ne.mpr fun same => neverClears (same ▸ member)

/-- What comes before a clear is all that came before, and more if there was none. -/
theorem untilClear_append_of_not_mem
    {events : List Happening}
    (neverClears : .told .clear ∉ events)
    (more : List Happening) :
    untilClear (events ++ more) = events ++ untilClear more := by
  apply List.takeWhile_append_of_pos
  intro happening member
  exact bne_iff_ne.mpr fun same => neverClears (same ▸ member)

/-- Nothing that comes after a clear comes before it. -/
theorem untilClear_append_of_mem
    {events : List Happening}
    (clears : .told .clear ∈ events)
    (more : List Happening) :
    untilClear (events ++ more) = untilClear events := by
  rw [untilClear, List.takeWhile_append, if_neg]
  · rfl
  · intro isWhole
    have isAll := (List.takeWhile_prefix _).eq_of_length isWhole
    rw [List.takeWhile_eq_self_iff] at isAll
    exact bne_iff_ne.mp (isAll _ clears) rfl

/-- Without a clear, all that happened is remembered. -/
theorem remembered_of_not_mem
    {events : List Happening}
    (neverClears : .told .clear ∉ events)
    (past : List Happening) :
    remembered past events = past ++ events :=
  if_neg neverClears

/-- Nothing is remembered right after a clear. -/
theorem remembered_concat_clear (past events : List Happening) :
    remembered past (events ++ [.told .clear]) = [] := by
  rw [remembered, if_pos (List.mem_append_right _ List.mem_cons_self), sinceClear,
    List.rtakeWhile_concat_neg _ _ _ (by simp)]
  rfl

/-- What a bridge hears of is added to what it knows. -/
theorem remembered_concat
    {events : List Happening}
    {happening : Happening}
    (isOther : happening ≠ .told .clear)
    (isHeard : .told .clear ∈ events → happening.isDelivery = false)
    (past : List Happening) :
    remembered past (events ++ [happening]) = remembered past events ++ [happening] := by
  have isKept : (happening != .told .clear) = true := bne_iff_ne.mpr isOther
  by_cases clears : .told .clear ∈ events
  · have isSince : sinceClear (events ++ [happening]) = sinceClear events ++ [happening] :=
      List.rtakeWhile_concat_pos _ _ _ isKept
    rw [remembered, if_pos (List.mem_append_left _ clears), remembered, if_pos clears, isSince,
      reports, List.filter_append, List.filter_cons_of_pos (by simp [isHeard clears])]
    rfl
  · have neverClears : .told .clear ∉ events ++ [happening] := by
      rw [List.mem_append, List.mem_singleton]
      rintro (clears' | same)
      · exact clears clears'
      · exact isOther same.symm
    rw [remembered_of_not_mem neverClears, remembered_of_not_mem clears, List.append_assoc]

/-- A pass that goes on after a clear does not remember what it delivers. -/
theorem remembered_concat_delivered
    {events : List Happening}
    (clears : .told .clear ∈ events)
    (past : List Happening)
    (id : ConnectionId)
    (event : ConnectionEvent) :
    remembered past (events ++ [.delivered id event]) = remembered past events := by
  have isSince : sinceClear (events ++ [.delivered id event]) =
      sinceClear events ++ [.delivered id event] :=
    List.rtakeWhile_concat_pos _ _ _ rfl
  rw [remembered, if_pos (List.mem_append_left _ clears), remembered, if_pos clears, isSince,
    reports, List.filter_append]
  exact List.append_nil _

/-! ## States that are not tracked -/

/-- No name leads to a state. -/
def IsOrphan
    (bridge : Bridge)
    (key : StateKey) : Prop :=
  key ∉ bridge.tracked.map Prod.snd

/-- An orphan belongs to no connection. -/
theorem IsOrphan.ne_of_key?
    {bridge : Bridge}
    {key other : StateKey}
    (isOrphan : bridge.IsOrphan key)
    {id : ConnectionId}
    (found : bridge.key? id = some other) :
    key ≠ other := by
  rintro rfl
  exact isOrphan (List.mem_map_of_mem (mem_tracked_of_key?_eq_some found))

/-- A change of an orphan is seen by no connection. -/
theorem IsOrphan.stateOf_updateAt
    {bridge : Bridge}
    {key : StateKey}
    (isOrphan : bridge.IsOrphan key)
    (isMade : key < bridge.states.size)
    (change : ConnectionState → ConnectionState)
    (id : ConnectionId) :
    (bridge.updateAt key change).stateOf id = bridge.stateOf id := by
  have sameKey : (bridge.updateAt key change).key? id = bridge.key? id := rfl
  rw [stateOf, state?, sameKey, stateOf, state?]
  cases found : bridge.key? id with
  | none => rfl
  | some other =>
      rw [Option.map_some, Option.map_some, stateAt_updateAt bridge isMade,
        if_neg (isOrphan.ne_of_key? found).symm]
      rfl

/-- A change of a connection is not seen by an orphan. -/
theorem Sound.stateAt_update_of_isOrphan
    {bridge : Bridge}
    (sound : bridge.Sound)
    {key : StateKey}
    (isOrphan : bridge.IsOrphan key)
    (id : ConnectionId)
    (change : ConnectionState → ConnectionState) :
    (bridge.update id change).stateAt key = bridge.stateAt key := by
  unfold Bridge.update
  cases found : bridge.key? id with
  | none => rfl
  | some other =>
      exact (stateAt_updateAt bridge (sound.key_lt found) change key).trans
        (if_neg (isOrphan.ne_of_key? found))

@[simp] theorem tracked_update
    (bridge : Bridge)
    (id : ConnectionId)
    (change : ConnectionState → ConnectionState) :
    (bridge.update id change).tracked = bridge.tracked := by
  unfold update
  split <;> rfl

@[simp] theorem size_states_update
    (bridge : Bridge)
    (id : ConnectionId)
    (change : ConnectionState → ConnectionState) :
    (bridge.update id change).states.size = bridge.states.size := by
  unfold update
  split
  · exact Array.size_modify
  · rfl

theorem size_states_le_track
    (bridge : Bridge)
    (id : ConnectionId) :
    bridge.states.size ≤ (bridge.track id).states.size := by
  unfold track
  split
  · exact Nat.le_refl _
  · rw [Array.size_push]
    exact Nat.le_succ _

/-- A state that was made stays as it is when a connection is tracked. -/
theorem stateAt_track
    {bridge : Bridge}
    {key : StateKey}
    (isMade : key < bridge.states.size)
    (id : ConnectionId) :
    (bridge.track id).stateAt key = bridge.stateAt key := by
  unfold track
  split
  · rfl
  · rw [stateAt, stateAt, Array.getElem?_push_lt isMade, Array.getElem?_eq_getElem isMade]

/-- An orphan is not adopted when a connection is tracked. -/
theorem IsOrphan.track
    {bridge : Bridge}
    {key : StateKey}
    (isOrphan : bridge.IsOrphan key)
    (isMade : key < bridge.states.size)
    (id : ConnectionId) :
    (bridge.track id).IsOrphan key := by
  unfold Bridge.track
  split
  · exact isOrphan
  · rw [IsOrphan, List.map_append, List.mem_append]
    rintro (wasTracked | isNew)
    · exact isOrphan wasTracked
    · exact Nat.ne_of_lt isMade (List.mem_singleton.mp isNew)

/-- Whatever a bridge is told, no state is lost. -/
theorem size_states_le_onBridge
    (bridge : Bridge)
    (input : Input) :
    bridge.states.size ≤ (input.onBridge bridge).states.size := by
  cases input with
  | connect id =>
      exact (size_states_le_track bridge id).trans_eq (size_states_update ..).symm
  | disconnect id => exact (size_states_update ..).ge
  | receive id chunk => exact (size_states_update ..).ge
  | clear => exact Nat.le_refl _

/-- A state that no name leads to hears nothing. -/
theorem Sound.stateAt_onBridge_of_isOrphan
    {bridge : Bridge}
    (sound : bridge.Sound)
    {key : StateKey}
    (isOrphan : bridge.IsOrphan key)
    (isMade : key < bridge.states.size)
    (input : Input) :
    (input.onBridge bridge).stateAt key = bridge.stateAt key ∧
      (input.onBridge bridge).IsOrphan key := by
  cases input with
  | connect id =>
      have stillOrphan := isOrphan.track isMade id
      refine ⟨?_, ?_⟩
      · exact ((sound.track id).stateAt_update_of_isOrphan stillOrphan id _).trans
          (stateAt_track isMade id)
      · rw [IsOrphan, Input.onBridge, onConnected, tracked_update]
        exact stillOrphan
  | disconnect id =>
      refine ⟨sound.stateAt_update_of_isOrphan isOrphan id _, ?_⟩
      rw [IsOrphan, Input.onBridge, onDisconnected, tracked_update]
      exact isOrphan
  | receive id chunk =>
      refine ⟨sound.stateAt_update_of_isOrphan isOrphan id _, ?_⟩
      rw [IsOrphan, Input.onBridge, onBytesReceived, tracked_update]
      exact isOrphan
  | clear => exact ⟨rfl, List.not_mem_nil⟩

/-- An orphan stays one when a connection is retired. -/
theorem IsOrphan.retireIfIdle
    {bridge : Bridge}
    {key : StateKey}
    (isOrphan : bridge.IsOrphan key)
    (id : ConnectionId) :
    (bridge.retireIfIdle id).IsOrphan key := by
  unfold Bridge.retireIfIdle
  split
  · exact fun member => isOrphan ((List.filter_sublist.map Prod.snd).subset member)
  · exact isOrphan

/-- Retiring a connection leaves its state as it is. -/
theorem stateAt_retireIfIdle
    (bridge : Bridge)
    (id : ConnectionId)
    (key : StateKey) :
    (bridge.retireIfIdle id).stateAt key = bridge.stateAt key := by
  unfold retireIfIdle
  split <;> rfl

theorem size_states_retireIfIdle
    (bridge : Bridge)
    (id : ConnectionId) :
    (bridge.retireIfIdle id).states.size = bridge.states.size := by
  unfold retireIfIdle
  split <;> rfl

/-! ## What a connection is offered -/

/-- When one event more is taken, one more is skipped. -/
theorem skip_succ_of_queue_eq
    {state : ConnectionState}
    {count : Nat}
    {event : ConnectionEvent}
    {queue : List ConnectionEvent}
    (isQueue : (skip state count).queue = event :: queue) :
    skip state (count + 1) = { skip state count with queue := queue } := by
  rw [← skip_skip]
  change { skip state count with queue := (skip state count).queue.drop 1 } = _
  rw [isQueue]
  rfl

/-- The state that a pass would hold for a connection if it had delivered nothing yet. -/
def fullState
    (start : Bridge)
    (id : ConnectionId)
    (events : List Happening) : ConnectionState :=
  noticedAll (start.stateOf id) (noticesFor id (untilClear events))

/-- The events that a pass has for a connection, delivered or not. -/
def offered
    (start : Bridge)
    (id : ConnectionId)
    (events : List Happening) : List ConnectionEvent :=
  (fullState start id events).queue

section Offers

variable {start : Bridge} {id : ConnectionId} {events : List Happening}

/-- The full state of a connection does not change after a clear. -/
theorem fullState_append_of_mem
    (clears : .told .clear ∈ events)
    (more : List Happening) :
    fullState start id (events ++ more) = fullState start id events := by
  rw [fullState, untilClear_append_of_mem clears, fullState]

/-- Without a clear, the full state of a connection goes on with what it is told. -/
theorem fullState_append_of_not_mem
    (neverClears : .told .clear ∉ events)
    (more : List Happening) :
    fullState start id (events ++ more) =
      noticedAll (fullState start id events) (noticesFor id (untilClear more)) := by
  rw [fullState, untilClear_append_of_not_mem neverClears, noticesFor_append, noticedAll,
    List.foldl_append, fullState, untilClear_of_not_mem neverClears]
  rfl

/-- Nothing that happens takes an offer back. -/
theorem offered_isPrefix
    (start : Bridge)
    (id : ConnectionId)
    (events more : List Happening) :
    offered start id events <+: offered start id (events ++ more) := by
  by_cases clears : .told .clear ∈ events
  · have unchanged : offered start id (events ++ more) = offered start id events :=
      congrArg ConnectionState.queue (fullState_append_of_mem clears more)
    exact ⟨[], (List.append_nil _).trans unchanged.symm⟩
  · rw [offered, offered, fullState_append_of_not_mem clears]
    exact queue_prefix_noticedAll _ _

/-- Nothing is offered for a connection but by a report about it. -/
theorem fullState_concat_of_notice?_eq_none
    {happening : Happening}
    (isSilent : happening.notice? id = none) :
    fullState start id (events ++ [happening]) = fullState start id events := by
  by_cases clears : .told .clear ∈ events
  · exact fullState_append_of_mem clears _
  · rw [fullState_append_of_not_mem clears, untilClear, List.takeWhile_cons]
    split
    · rw [noticesFor, List.filterMap_cons_none isSilent]
      rfl
    · rfl

/-- The full state of a connection hears what is told next. -/
theorem fullState_concat_told
    (neverClears : .told .clear ∉ events)
    {input : Input}
    (isOther : input ≠ .clear) :
    fullState start id (events ++ [.told input]) =
      (input.notice? id).elim (fullState start id events)
        (noticed (fullState start id events)) := by
  have isHeard : .told .clear ∉ [Happening.told input] := by
    rw [List.mem_singleton]
    rintro same
    cases same
    exact isOther rfl
  rw [fullState_append_of_not_mem neverClears, untilClear_of_not_mem isHeard,
    noticesFor_told_cons]
  cases input.notice? id <;> rfl

end Offers

/-! ## One connection in a pass -/

/-- The turn of a connection is not over. The pass holds the state under its key, from which
it has taken what it delivered. -/
structure Awaits
    (start : Bridge)
    (events : List Happening)
    (bridge : Bridge)
    (id : ConnectionId)
    (key : StateKey) : Prop where
  isMade : key < bridge.states.size
  found : .told .clear ∉ events → bridge.key? id = some key
  isOrphan : .told .clear ∈ events → bridge.IsOrphan key
  delivered_isPrefix : deliveredFor id events <+: offered start id events
  stateAt_eq : bridge.stateAt key =
    skip (fullState start id events) (deliveredFor id events).length

namespace Awaits

variable {start bridge : Bridge} {events : List Happening} {id : ConnectionId} {key : StateKey}

/-- At the beginning of a pass, every connection that is tracked awaits its turn. -/
theorem begins
    (sound : bridge.Sound)
    (found : bridge.key? id = some key) :
    Awaits bridge [] bridge id key where
  isMade := sound.key_lt found
  found _ := found
  isOrphan clears := nomatch clears
  delivered_isPrefix := List.nil_prefix
  stateAt_eq := stateAt_of_key?_eq_some found

/-- A turn still awaits its events when a bridge is told something. -/
theorem tell
    (awaits : Awaits start events bridge id key)
    (sound : bridge.Sound)
    (input : Input) :
    Awaits start (events ++ [.told input]) (input.onBridge bridge) id key := by
  have sameDelivered : deliveredFor id (events ++ [.told input]) = deliveredFor id events :=
    (deliveredFor_concat id events (.told input)).trans (List.append_nil _)
  have isMade := awaits.isMade.trans_le (size_states_le_onBridge bridge input)
  by_cases clears : .told .clear ∈ events
  · have clearsStill : .told .clear ∈ events ++ [.told input] := List.mem_append_left _ clears
    obtain ⟨sameState, isOrphan⟩ :=
      sound.stateAt_onBridge_of_isOrphan (awaits.isOrphan clears) awaits.isMade input
    refine ⟨isMade, absurd clearsStill, fun _ => isOrphan, ?_, ?_⟩
    · rw [sameDelivered, offered, fullState_append_of_mem clears]
      exact awaits.delivered_isPrefix
    · rw [sameState, sameDelivered, fullState_append_of_mem clears]
      exact awaits.stateAt_eq
  · by_cases isClear : input = .clear
    · subst isClear
      refine ⟨isMade, ?_, fun _ => List.not_mem_nil, ?_, ?_⟩
      · exact absurd (List.mem_append_right _ List.mem_cons_self)
      · rw [sameDelivered, offered, fullState_concat_of_notice?_eq_none rfl]
        exact awaits.delivered_isPrefix
      · rw [sameDelivered, fullState_concat_of_notice?_eq_none rfl]
        exact awaits.stateAt_eq
    · have found := keepsTrack_onBridge bridge isClear (awaits.found clears)
      have wasState := awaits.stateAt_eq
      rw [stateAt_of_key?_eq_some (awaits.found clears)] at wasState
      refine ⟨isMade, fun _ => found, ?_, ?_, ?_⟩
      · intro clearsNow
        rw [List.mem_append, List.mem_singleton] at clearsNow
        rcases clearsNow with clearsBefore | same
        · exact absurd clearsBefore clears
        · cases same
          exact absurd rfl isClear
      · rw [sameDelivered]
        exact awaits.delivered_isPrefix.trans (offered_isPrefix ..)
      · rw [stateAt_of_key?_eq_some found, sound.stateOf_onBridge isClear, sameDelivered,
          fullState_concat_told clears isClear, wasState]
        cases input.notice? id with
        | none => rfl
        | some notice => exact noticed_skip awaits.delivered_isPrefix.length_le notice

/-- A turn still awaits its events when a sink returns. -/
theorem answer
    (awaits : Awaits start events bridge id key)
    (succeeded : Bool) :
    Awaits start (events ++ [.answered succeeded]) bridge id key := by
  have sameDelivered :
      deliveredFor id (events ++ [.answered succeeded]) = deliveredFor id events :=
    (deliveredFor_concat id events (.answered succeeded)).trans (List.append_nil _)
  have sameClears : .told .clear ∈ events ++ [.answered succeeded] ↔ .told .clear ∈ events := by
    simp
  refine ⟨awaits.isMade, ?_, ?_, ?_, ?_⟩
  · rw [sameClears]
    exact awaits.found
  · rw [sameClears]
    exact awaits.isOrphan
  · rw [sameDelivered]
    exact awaits.delivered_isPrefix.trans (offered_isPrefix ..)
  · rw [sameDelivered, fullState_concat_of_notice?_eq_none rfl]
    exact awaits.stateAt_eq

/-- The oldest event of a connection is delivered, or that of another one. -/
theorem deliver
    (awaits : Awaits start events bridge id key)
    {other : ConnectionId}
    {otherKey : StateKey}
    (otherAwaits : Awaits start events bridge other otherKey)
    (sameNames : id = other ↔ key = otherKey)
    {event : ConnectionEvent}
    {next : Bridge}
    (isNext : bridge.popAt otherKey = some (event, next)) :
    Awaits start (events ++ [.delivered other event]) next id key := by
  obtain ⟨queue, isQueue, rfl⟩ := popAt_eq_some_iff.mp isNext
  have isState := stateAt_updateAt bridge otherAwaits.isMade
    (fun state => { state with queue := queue }) key
  have sameClears :
      .told .clear ∈ events ++ [.delivered other event] ↔ .told .clear ∈ events := by
    simp
  have sameFull : fullState start id (events ++ [.delivered other event]) =
      fullState start id events :=
    fullState_concat_of_notice?_eq_none rfl
  refine ⟨?_, ?_, ?_, ?_, ?_⟩
  · rw [updateAt, Array.size_modify]
    exact awaits.isMade
  · rw [sameClears]
    exact awaits.found
  · rw [sameClears]
    exact awaits.isOrphan
  · rw [offered, sameFull, deliveredFor_concat, Happening.event?]
    by_cases same : id = other
    · obtain rfl := same
      obtain rfl := sameNames.mp rfl
      rw [if_pos rfl]
      obtain ⟨rest, isRest⟩ := awaits.delivered_isPrefix
      have isNextOffered : rest = event :: queue := by
        rw [awaits.stateAt_eq] at isQueue
        change (offered start id events).drop _ = _ at isQueue
        rwa [← isRest, List.drop_left] at isQueue
      refine ⟨queue, ?_⟩
      rw [← offered, ← isRest, isNextOffered, Option.toList_some, List.append_assoc,
        List.singleton_append]
    · rw [if_neg same, Option.toList_none, List.append_nil]
      exact awaits.delivered_isPrefix
  · rw [isState, sameFull, deliveredFor_concat, Happening.event?]
    by_cases same : id = other
    · obtain rfl := same
      obtain rfl := sameNames.mp rfl
      rw [awaits.stateAt_eq] at isQueue
      rw [if_pos rfl, if_pos rfl, awaits.stateAt_eq, Option.toList_some, List.length_append,
        List.length_singleton, skip_succ_of_queue_eq isQueue]
    · rw [if_neg fun sameKeys => same (sameNames.mpr sameKeys), if_neg same,
        Option.toList_none, List.append_nil]
      exact awaits.stateAt_eq

/-- A turn still awaits its events when another connection is retired. -/
theorem retire
    (awaits : Awaits start events bridge id key)
    {other : ConnectionId}
    (isOther : id ≠ other) :
    Awaits start events (bridge.retireIfIdle other) id key where
  isMade := (size_states_retireIfIdle bridge other).symm ▸ awaits.isMade
  found neverClears := (key?_retireIfIdle bridge isOther).trans (awaits.found neverClears)
  isOrphan clears := (awaits.isOrphan clears).retireIfIdle other
  delivered_isPrefix := awaits.delivered_isPrefix
  stateAt_eq := (stateAt_retireIfIdle ..).trans awaits.stateAt_eq

end Awaits

end Bridge
end ScriptHost
