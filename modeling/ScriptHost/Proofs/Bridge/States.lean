import ScriptHost.Bridge
import ScriptHost.Proofs.Entries
import Mathlib.Data.List.Nodup

/-!
# Views of a bridge

A bridge is read through two views: the key of the state that is tracked under a name, and
the state itself. In a sound bridge no two names share a state, so that what happens under
one name leaves the others as they are.
-/

namespace ScriptHost
namespace Bridge

/-- Every name is tracked once, with a state of its own. -/
structure Sound (bridge : Bridge) : Prop where
  nodup_names : (bridge.tracked.map Prod.fst).Nodup
  nodup_keys : (bridge.tracked.map Prod.snd).Nodup
  isMade : ∀ entry ∈ bridge.tracked, entry.2 < bridge.states.size

/-- A bridge without connections is sound. -/
theorem sound_new (limit : Nat) : (new limit).Sound where
  nodup_names := List.nodup_nil
  nodup_keys := List.nodup_nil
  isMade _ member := nomatch member

/-! ## Keys -/

theorem mem_tracked_of_key?_eq_some
    {bridge : Bridge}
    {id : ConnectionId}
    {key : StateKey}
    (found : bridge.key? id = some key) :
    (id, key) ∈ bridge.tracked := by
  obtain ⟨before, after, split, -⟩ := List.lookup_eq_some_iff.mp found
  rw [split]
  exact List.mem_append_right _ List.mem_cons_self

theorem key?_eq_none_iff
    (bridge : Bridge)
    (id : ConnectionId) :
    bridge.key? id = none ↔ id ∉ bridge.tracked.map Prod.fst :=
  Entries.lookup_eq_none_iff

/-- What a sound bridge tracks is found by its name. -/
theorem Sound.key?_of_mem
    {bridge : Bridge}
    (sound : bridge.Sound)
    {id : ConnectionId}
    {key : StateKey}
    (member : (id, key) ∈ bridge.tracked) :
    bridge.key? id = some key := by
  cases found : bridge.key? id with
  | none => exact absurd (List.mem_map_of_mem member) ((key?_eq_none_iff ..).mp found)
  | some other =>
      have same := List.inj_on_of_nodup_map sound.nodup_names
        (mem_tracked_of_key?_eq_some found) member rfl
      cases same
      rfl

/-- Two names do not share a state. -/
theorem Sound.eq_of_key?
    {bridge : Bridge}
    (sound : bridge.Sound)
    {id other : ConnectionId}
    {key : StateKey}
    (found : bridge.key? id = some key)
    (alsoFound : bridge.key? other = some key) :
    id = other :=
  congrArg Prod.fst (List.inj_on_of_nodup_map sound.nodup_keys
    (mem_tracked_of_key?_eq_some found) (mem_tracked_of_key?_eq_some alsoFound) rfl)

/-- The state of a connection was made. -/
theorem Sound.key_lt
    {bridge : Bridge}
    (sound : bridge.Sound)
    {id : ConnectionId}
    {key : StateKey}
    (found : bridge.key? id = some key) :
    key < bridge.states.size :=
  sound.isMade _ (mem_tracked_of_key?_eq_some found)

/-! ## Changing a state -/

/-- A change at one key leaves all other states as they are. -/
theorem stateAt_updateAt
    (bridge : Bridge)
    {key : StateKey}
    (isMade : key < bridge.states.size)
    (change : ConnectionState → ConnectionState)
    (other : StateKey) :
    (bridge.updateAt key change).stateAt other =
      if other = key then change (bridge.stateAt key) else bridge.stateAt other := by
  unfold stateAt updateAt
  rw [Array.getElem?_modify]
  by_cases same : other = key
  · rw [if_pos same.symm, if_pos same, same, Array.getElem?_eq_getElem isMade]
    rfl
  · rw [if_neg (Ne.symm same), if_neg same]

/-- A change at a key keeps a bridge sound. -/
theorem Sound.updateAt
    {bridge : Bridge}
    (sound : bridge.Sound)
    (key : StateKey)
    (change : ConnectionState → ConnectionState) :
    (bridge.updateAt key change).Sound where
  nodup_names := sound.nodup_names
  nodup_keys := sound.nodup_keys
  isMade entry member := by
    rw [Bridge.updateAt, Array.size_modify]
    exact sound.isMade entry member

/-- A change at the key of a connection changes the state of that connection only. -/
theorem Sound.state?_updateAt
    {bridge : Bridge}
    (sound : bridge.Sound)
    {id : ConnectionId}
    {key : StateKey}
    (found : bridge.key? id = some key)
    (change : ConnectionState → ConnectionState)
    (other : ConnectionId) :
    (bridge.updateAt key change).state? other =
      if other = id then (bridge.state? id).map change else bridge.state? other := by
  have sameKeys : (bridge.updateAt key change).key? other = bridge.key? other := rfl
  rw [state?, sameKeys]
  by_cases same : other = id
  · rw [if_pos same, same, state?, found, Option.map_some, Option.map_some, Option.map_some,
      stateAt_updateAt bridge (sound.key_lt found), if_pos rfl]
  · rw [if_neg same, state?]
    cases otherFound : bridge.key? other with
    | none => rfl
    | some otherKey =>
        have isOther : otherKey ≠ key := by
          rintro rfl
          exact same (sound.eq_of_key? otherFound found)
        rw [Option.map_some, Option.map_some,
          stateAt_updateAt bridge (sound.key_lt found), if_neg isOther]

/-- A change of a connection keeps a bridge sound. -/
theorem Sound.update
    {bridge : Bridge}
    (sound : bridge.Sound)
    (id : ConnectionId)
    (change : ConnectionState → ConnectionState) :
    (bridge.update id change).Sound := by
  unfold Bridge.update
  split
  · exact sound.updateAt _ change
  · exact sound

/-- A change of a connection changes its state, if there is one, and no other. -/
theorem Sound.state?_update
    {bridge : Bridge}
    (sound : bridge.Sound)
    (id : ConnectionId)
    (change : ConnectionState → ConnectionState)
    (other : ConnectionId) :
    (bridge.update id change).state? other =
      if other = id then (bridge.state? id).map change else bridge.state? other := by
  unfold Bridge.update
  cases found : bridge.key? id with
  | some key => exact sound.state?_updateAt found change other
  | none =>
      by_cases same : other = id
      · rw [if_pos same, same, state?, found]
        rfl
      · rw [if_neg same]

theorem key?_update
    (bridge : Bridge)
    (id : ConnectionId)
    (change : ConnectionState → ConnectionState)
    (other : ConnectionId) :
    (bridge.update id change).key? other = bridge.key? other := by
  unfold update
  split <;> rfl

@[simp] theorem limit_update
    (bridge : Bridge)
    (id : ConnectionId)
    (change : ConnectionState → ConnectionState) :
    (bridge.update id change).limit = bridge.limit := by
  unfold update
  split <;> rfl

@[simp] theorem dispatching_update
    (bridge : Bridge)
    (id : ConnectionId)
    (change : ConnectionState → ConnectionState) :
    (bridge.update id change).dispatching = bridge.dispatching := by
  unfold update
  split <;> rfl

/-! ## Tracking -/

@[simp] theorem limit_track
    (bridge : Bridge)
    (id : ConnectionId) :
    (bridge.track id).limit = bridge.limit := by
  unfold track
  split <;> rfl

@[simp] theorem dispatching_track
    (bridge : Bridge)
    (id : ConnectionId) :
    (bridge.track id).dispatching = bridge.dispatching := by
  unfold track
  split <;> rfl

/-- A connection that is tracked is not tracked again. -/
theorem track_of_key?_eq_some
    {bridge : Bridge}
    {id : ConnectionId}
    {key : StateKey}
    (found : bridge.key? id = some key) :
    bridge.track id = bridge := by
  rw [track, found]

/-- A connection that is not tracked gets a fresh state under the next key. -/
theorem track_of_key?_eq_none
    {bridge : Bridge}
    {id : ConnectionId}
    (absent : bridge.key? id = none) :
    bridge.track id =
      { bridge with
        states := bridge.states.push (.fresh bridge.limit)
        tracked := bridge.tracked ++ [(id, bridge.states.size)] } := by
  rw [track, absent]

/-- A bridge stays sound when it tracks a connection. -/
theorem Sound.track
    {bridge : Bridge}
    (sound : bridge.Sound)
    (id : ConnectionId) :
    (bridge.track id).Sound := by
  cases found : bridge.key? id with
  | some key => rwa [track_of_key?_eq_some found]
  | none =>
      rw [track_of_key?_eq_none found]
      refine ⟨?_, ?_, ?_⟩
      · rw [List.map_append, List.nodup_append']
        refine ⟨sound.nodup_names, List.nodup_singleton _, ?_⟩
        intro other member isNew
        rw [List.mem_singleton.mp isNew] at member
        exact (key?_eq_none_iff ..).mp found member
      · rw [List.map_append, List.nodup_append']
        refine ⟨sound.nodup_keys, List.nodup_singleton _, ?_⟩
        intro key member isNew
        obtain ⟨entry, isTracked, rfl⟩ := List.mem_map.mp member
        exact absurd (sound.isMade entry isTracked) (List.mem_singleton.mp isNew ▸ Nat.lt_irrefl _)
      · intro entry member
        rw [Array.size_push]
        rcases List.mem_append.mp member with wasTracked | isNew
        · exact Nat.lt_succ_of_lt (sound.isMade entry wasTracked)
        · rw [List.mem_singleton.mp isNew]
          exact Nat.lt_succ_self _

/-- A name that is tracked keeps its state. -/
theorem key?_track_of_eq_some
    {bridge : Bridge}
    (id : ConnectionId)
    {other : ConnectionId}
    {key : StateKey}
    (found : bridge.key? other = some key) :
    (bridge.track id).key? other = some key := by
  cases isTracked : bridge.key? id with
  | some _ => rwa [track_of_key?_eq_some isTracked]
  | none =>
      rw [track_of_key?_eq_none isTracked, key?, List.lookup_append]
      rw [key?] at found
      rw [found]
      rfl

/-- A connection that is tracked has its state, or a fresh one if it had none. -/
theorem Sound.state?_track
    {bridge : Bridge}
    (sound : bridge.Sound)
    (id other : ConnectionId) :
    (bridge.track id).state? other =
      if other = id then some ((bridge.state? id).getD (.fresh bridge.limit))
      else bridge.state? other := by
  cases found : bridge.key? id with
  | some key =>
      rw [track_of_key?_eq_some found]
      by_cases same : other = id
      · rw [if_pos same, same, state?, found]
        rfl
      · rw [if_neg same]
  | none =>
      rw [track_of_key?_eq_none found]
      by_cases same : other = id
      · have absent : bridge.state? id = none := by rw [state?, found, Option.map_none]
        have isNew : (bridge.tracked ++ [(id, bridge.states.size)]).lookup id =
            some bridge.states.size := by
          rw [key?] at found
          rw [List.lookup_append, found, Option.none_or, List.lookup_cons_self]
        rw [if_pos same, same, absent, state?, key?, isNew, Option.map_some, stateAt,
          Array.getElem?_push_size]
        rfl
      · have unchanged : (bridge.tracked ++ [(id, bridge.states.size)]).lookup other =
            bridge.key? other := by
          rw [List.lookup_append, List.lookup_cons, beq_false_of_ne same]
          exact Option.or_none
        rw [if_neg same, state?, key?, unchanged, state?]
        cases otherFound : bridge.key? other with
        | none => rfl
        | some key =>
            have isMade := sound.key_lt otherFound
            rw [Option.map_some, Option.map_some, stateAt, stateAt,
              Array.getElem?_push_lt isMade, Array.getElem?_eq_getElem isMade]

/-! ## Reports of links -/

/-- A connection that begins is tracked and hears of it, and all others are as before. -/
theorem Sound.state?_onConnected
    {bridge : Bridge}
    (sound : bridge.Sound)
    (id other : ConnectionId) :
    (bridge.onConnected id).state? other =
      if other = id then some ((bridge.state? id).getD (.fresh bridge.limit)).connect
      else bridge.state? other := by
  rw [onConnected, (sound.track id).state?_update, sound.state?_track, sound.state?_track]
  by_cases same : other = id
  · rw [if_pos same, if_pos same, if_pos rfl, Option.map_some]
  · rw [if_neg same, if_neg same, if_neg same]

/-! ## Retiring -/

/-- The bridge without what is tracked under a name. -/
private def forget
    (bridge : Bridge)
    (id : ConnectionId) : Bridge :=
  { bridge with tracked := bridge.tracked.filter fun entry => entry.1 != id }

/-- A connection that is forgotten has no key, and all others keep theirs. -/
private theorem key?_forget
    (bridge : Bridge)
    (id other : ConnectionId) :
    (bridge.forget id).key? other = if other = id then none else bridge.key? other :=
  Entries.lookup_erase bridge.tracked id other

/-- A bridge stays sound when it forgets a connection. -/
private theorem Sound.forget
    {bridge : Bridge}
    (sound : bridge.Sound)
    (id : ConnectionId) :
    (bridge.forget id).Sound := by
  have isSublist : (bridge.forget id).tracked.Sublist bridge.tracked := List.filter_sublist
  exact ⟨sound.nodup_names.sublist (isSublist.map _),
    sound.nodup_keys.sublist (isSublist.map _),
    fun entry member => sound.isMade entry (isSublist.subset member)⟩

/-- A connection is forgotten if it is idle. -/
private theorem retireIfIdle_eq
    (bridge : Bridge)
    (id : ConnectionId) :
    bridge.retireIfIdle id =
      if (bridge.state? id).any ConnectionState.isIdle then bridge.forget id else bridge := rfl

theorem Sound.retireIfIdle
    {bridge : Bridge}
    (sound : bridge.Sound)
    (id : ConnectionId) :
    (bridge.retireIfIdle id).Sound := by
  rw [retireIfIdle_eq]
  split
  · exact sound.forget id
  · exact sound

/-- Only the connection in question may be forgotten. -/
theorem key?_retireIfIdle
    (bridge : Bridge)
    {id other : ConnectionId}
    (isOther : other ≠ id) :
    (bridge.retireIfIdle id).key? other = bridge.key? other := by
  rw [retireIfIdle_eq]
  split
  · rw [key?_forget, if_neg isOther]
  · rfl

/-- A connection has no state any more if it was idle when its turn ended. -/
theorem state?_retireIfIdle
    (bridge : Bridge)
    (id other : ConnectionId) :
    (bridge.retireIfIdle id).state? other =
      if other = id ∧ (bridge.state? id).any ConnectionState.isIdle = true then none
      else bridge.state? other := by
  rw [retireIfIdle_eq]
  by_cases isIdle : (bridge.state? id).any ConnectionState.isIdle = true
  · rw [if_pos isIdle, state?, key?_forget]
    by_cases same : other = id
    · rw [if_pos same, if_pos ⟨same, isIdle⟩]
      rfl
    · rw [if_neg same, if_neg fun both => same both.1]
      rfl
  · rw [if_neg isIdle, if_neg fun both => isIdle both.2]

@[simp] theorem limit_retireIfIdle
    (bridge : Bridge)
    (id : ConnectionId) :
    (bridge.retireIfIdle id).limit = bridge.limit := by
  unfold retireIfIdle
  split <;> rfl

@[simp] theorem dispatching_retireIfIdle
    (bridge : Bridge)
    (id : ConnectionId) :
    (bridge.retireIfIdle id).dispatching = bridge.dispatching := by
  unfold retireIfIdle
  split <;> rfl

/-! ## Taking events -/

/-- Nothing is taken of a state whose queue is empty. -/
theorem popAt_eq_none_iff
    {bridge : Bridge}
    {key : StateKey} :
    bridge.popAt key = none ↔ (bridge.stateAt key).queue = [] := by
  unfold popAt
  cases (bridge.stateAt key).queue <;> simp

/-- The event that is taken of a state is the first of its queue. -/
theorem popAt_eq_some_iff
    {bridge next : Bridge}
    {key : StateKey}
    {event : ConnectionEvent} :
    bridge.popAt key = some (event, next) ↔
      ∃ queue, (bridge.stateAt key).queue = event :: queue ∧
        next = bridge.updateAt key fun state => { state with queue := queue } := by
  unfold popAt
  cases (bridge.stateAt key).queue with
  | nil => simp
  | cons first rest =>
      constructor
      · intro same
        cases same
        exact ⟨rest, rfl, rfl⟩
      · rintro ⟨queue, same, rfl⟩
        cases same
        rfl

/-! ## What is known of a connection -/

/-- The state of a connection. A connection that is not tracked is as good as fresh. -/
def stateOf
    (bridge : Bridge)
    (id : ConnectionId) : ConnectionState :=
  (bridge.state? id).getD (.fresh bridge.limit)

/-- A key leads to the state of its connection. -/
theorem stateAt_of_key?_eq_some
    {bridge : Bridge}
    {id : ConnectionId}
    {key : StateKey}
    (found : bridge.key? id = some key) :
    bridge.stateAt key = bridge.stateOf id := by
  rw [stateOf, state?, found]
  rfl

/-- A change at the key of a connection changes what is known of that connection only. -/
theorem Sound.stateOf_updateAt
    {bridge : Bridge}
    (sound : bridge.Sound)
    {id : ConnectionId}
    {key : StateKey}
    (found : bridge.key? id = some key)
    (change : ConnectionState → ConnectionState)
    (other : ConnectionId) :
    (bridge.updateAt key change).stateOf other =
      if other = id then change (bridge.stateOf other) else bridge.stateOf other := by
  rw [stateOf, sound.state?_updateAt found]
  by_cases same : other = id
  · rw [if_pos same, if_pos same, same, ← stateAt_of_key?_eq_some found, state?, found]
    rfl
  · rw [if_neg same, if_neg same]
    rfl

/-- A change that a fresh state does not notice is made whether or not the connection is
tracked. -/
theorem Sound.stateOf_update
    {bridge : Bridge}
    (sound : bridge.Sound)
    (id : ConnectionId)
    {change : ConnectionState → ConnectionState}
    (unnoticed : change (.fresh bridge.limit) = .fresh bridge.limit)
    (other : ConnectionId) :
    (bridge.update id change).stateOf other =
      if other = id then change (bridge.stateOf other) else bridge.stateOf other := by
  rw [stateOf, sound.state?_update, limit_update, stateOf]
  by_cases same : other = id
  · rw [if_pos same, if_pos same, same]
    cases bridge.state? id with
    | none => exact unnoticed.symm
    | some state => rfl
  · rw [if_neg same, if_neg same]

/-- A connection that begins hears of it, and all others are as before. -/
theorem Sound.stateOf_onConnected
    {bridge : Bridge}
    (sound : bridge.Sound)
    (id other : ConnectionId) :
    (bridge.onConnected id).stateOf other =
      if other = id then (bridge.stateOf other).connect else bridge.stateOf other := by
  rw [stateOf, sound.state?_onConnected, onConnected, limit_update, limit_track]
  by_cases same : other = id
  · rw [if_pos same, if_pos same, same]
    rfl
  · rw [if_neg same, if_neg same]
    rfl

/-- A connection that ends hears of it, and all others are as before. -/
theorem Sound.stateOf_onDisconnected
    {bridge : Bridge}
    (sound : bridge.Sound)
    (id other : ConnectionId) :
    (bridge.onDisconnected id).stateOf other =
      if other = id then (bridge.stateOf other).disconnect else bridge.stateOf other :=
  sound.stateOf_update id rfl other

/-- A connection hears of the bytes that it receives, and all others are as before. -/
theorem Sound.stateOf_onBytesReceived
    {bridge : Bridge}
    (sound : bridge.Sound)
    (id : ConnectionId)
    (chunk : Bytes)
    (other : ConnectionId) :
    (bridge.onBytesReceived id chunk).stateOf other =
      if other = id then (bridge.stateOf other).receive chunk else bridge.stateOf other :=
  sound.stateOf_update id rfl other

/-- A connection is forgotten only if nothing is known of it but that it is over. -/
theorem stateOf_retireIfIdle
    {bridge : Bridge}
    (id : ConnectionId)
    (idleIsFresh : (bridge.stateOf id).isIdle = true →
      bridge.stateOf id = .fresh bridge.limit)
    (other : ConnectionId) :
    (bridge.retireIfIdle id).stateOf other = bridge.stateOf other := by
  rw [stateOf, state?_retireIfIdle, limit_retireIfIdle]
  by_cases isForgotten : other = id ∧ (bridge.state? id).any ConnectionState.isIdle = true
  · obtain ⟨rfl, isIdle⟩ := isForgotten
    rw [if_pos ⟨rfl, isIdle⟩]
    refine (idleIsFresh ?_).symm
    rw [stateOf]
    cases found : bridge.state? other with
    | none => rfl
    | some state =>
        rw [found] at isIdle
        exact isIdle
  · rw [if_neg isForgotten]
    rfl

end Bridge
end ScriptHost
