import Mathlib.Logic.Relation
import ScriptHost.Proofs.Bridge.Snapshots

/-!
# Interleavings of threads

Links report to a bridge on threads of their own, while other threads make passes. A thread
looks up a state, or changes one that it holds, without another coming between; but between
finding a state and changing it, any number of other threads may go on, and a pass may forget
the connection. Nothing is lost thereby: a state that is no longer tracked is over and has
nothing left to deliver, and no late report makes it live again.
-/

namespace ScriptHost
namespace Bridge

/-! ## Threads -/

/-- What a thread is in the midst of. -/
inductive Activity
  /-- It has found the state that a report is about. -/
  | reporting (id : ConnectionId) (key : StateKey) (notice : Notice)
  /-- It makes a pass, and looks up what is tracked. -/
  | collecting (found : List (ConnectionId × StateKey))
  /-- It makes a pass, and is between two turns. -/
  | visiting (order : List (ConnectionId × StateKey))
  /-- It may take events of a state, up to a budget. -/
  | turning (id : ConnectionId) (key : StateKey) (budget : Nat)
      (rest : List (ConnectionId × StateKey))
  /-- It has taken an event, and is about to call the sink. -/
  | handing (id : ConnectionId) (key : StateKey) (event : ConnectionEvent) (budget : Nat)
      (rest : List (ConnectionId × StateKey))
  /-- It is within the sink. -/
  | calling (id : ConnectionId) (key : StateKey) (budget : Nat)
      (rest : List (ConnectionId × StateKey))
  /-- A turn is over. -/
  | leaving (id : ConnectionId) (rest : List (ConnectionId × StateKey))

namespace Activity

/-- A part of a pass. -/
def isPass : Activity → Bool
  | reporting _ _ _ => false
  | _ => true

/-- A call of the sink. -/
def isCall : Activity → Bool
  | calling _ _ _ _ => true
  | _ => false

/-- The event of a connection that is taken and not handed to the sink yet. -/
def held? (id : ConnectionId) : Activity → Option ConnectionEvent
  | handing other _ event _ _ => if id = other then some event else none
  | _ => none

/-- The states that are held on to, and the names under which they were found. -/
def entries : Activity → List (ConnectionId × StateKey)
  | reporting id key _ => [(id, key)]
  | collecting found => found
  | visiting order => order
  | turning id key _ rest => (id, key) :: rest
  | handing id key _ _ rest => (id, key) :: rest
  | calling id key _ rest => (id, key) :: rest
  | leaving _ rest => rest

end Activity

/-- What a thread does, innermost first: a sink may make calls of its own. -/
abbrev Stack := List Activity

/-- A thread that may make a call: it does nothing else, or is within a sink. -/
def Stack.IsFree (stack : Stack) : Prop :=
  ∀ activity ∈ stack.head?, activity.isCall = true

/-- What threads share, and what has become of it: the names for which states were made, by
key, the events that were queued, and those that sinks were called with. -/
structure Shared where
  bridge : Bridge
  names : List ConnectionId
  pushed : List (ConnectionId × ConnectionEvent)
  delivered : List (ConnectionId × ConnectionEvent)

/-- The events that are queued in a state and were not before. -/
def added (before after : ConnectionState) : List ConnectionEvent :=
  after.queue.drop before.queue.length

namespace Shared

/-- Nothing has happened yet. -/
def new (limit : Nat) : Shared :=
  ⟨.new limit, [], [], []⟩

/-- A state is made for a name that is not tracked. -/
def track
    (shared : Shared)
    (id : ConnectionId) : Shared :=
  { shared with
    bridge := shared.bridge.track id
    names := if (shared.bridge.key? id).isSome then shared.names else shared.names ++ [id] }

/-- A connection begins. Its state is found, or made, and changed at once. -/
def connect
    (shared : Shared)
    (id : ConnectionId) : Shared :=
  { shared.track id with
    bridge := shared.bridge.onConnected id
    pushed := shared.pushed ++
      (added (shared.bridge.stateOf id) ((shared.bridge.onConnected id).stateOf id)).map (id, ·) }

/-- A state that was found under a name notices something. -/
def report
    (shared : Shared)
    (id : ConnectionId)
    (key : StateKey)
    (notice : Notice) : Shared :=
  { shared with
    bridge := shared.bridge.updateAt key (noticed · notice)
    pushed := shared.pushed ++
      (added (shared.bridge.stateAt key) (noticed (shared.bridge.stateAt key) notice)).map
        (id, ·) }

/-- A sink is called. -/
def hand
    (shared : Shared)
    (id : ConnectionId)
    (event : ConnectionEvent) : Shared :=
  { shared with delivered := shared.delivered ++ [(id, event)] }

/-- The bridge is replaced, without anything being queued or handed out. -/
def withBridge
    (shared : Shared)
    (bridge : Bridge) : Shared :=
  { shared with bridge := bridge }

end Shared

/-- What one thread does without another coming between. -/
inductive Act : Shared → Stack → Shared → Stack → Prop
  | connects
      {shared : Shared}
      {stack : Stack}
      (id : ConnectionId)
      (isFree : stack.IsFree) :
      Act shared stack (shared.connect id) stack
  | finds
      {shared : Shared}
      {stack : Stack}
      {id : ConnectionId}
      {key : StateKey}
      {notice : Notice}
      (isFree : stack.IsFree)
      (isLate : notice ≠ .begins)
      (found : shared.bridge.key? id = some key) :
      Act shared stack shared (.reporting id key notice :: stack)
  | misses
      {shared : Shared}
      {stack : Stack}
      {id : ConnectionId}
      (isFree : stack.IsFree)
      (absent : shared.bridge.key? id = none) :
      Act shared stack shared stack
  | reports
      {shared : Shared}
      {stack : Stack}
      (id : ConnectionId)
      (key : StateKey)
      (notice : Notice) :
      Act shared (.reporting id key notice :: stack) (shared.report id key notice) stack
  | begins
      {shared : Shared}
      {stack : Stack}
      (isFree : stack.IsFree)
      (isIdle : shared.bridge.dispatching = false) :
      Act shared stack (shared.withBridge (shared.bridge.mark true)) (.collecting [] :: stack)
  | refuses
      {shared : Shared}
      {stack : Stack}
      (isFree : stack.IsFree)
      (isRunning : shared.bridge.dispatching = true) :
      Act shared stack shared stack
  | collects
      {shared : Shared}
      {stack : Stack}
      {found : List (ConnectionId × StateKey)}
      {entry : ConnectionId × StateKey}
      (isTracked : entry ∈ shared.bridge.tracked) :
      Act shared (.collecting found :: stack) shared (.collecting (found ++ [entry]) :: stack)
  | departs
      {shared : Shared}
      {stack : Stack}
      (found : List (ConnectionId × StateKey)) :
      Act shared (.collecting found :: stack) shared (.visiting found :: stack)
  | turns
      {shared : Shared}
      {stack : Stack}
      (id : ConnectionId)
      (key : StateKey)
      (rest : List (ConnectionId × StateKey)) :
      Act shared (.visiting ((id, key) :: rest) :: stack)
        shared (.turning id key (shared.bridge.stateAt key).queue.length rest :: stack)
  | takes
      {shared : Shared}
      {stack : Stack}
      {id : ConnectionId}
      {key : StateKey}
      {event : ConnectionEvent}
      {bridge : Bridge}
      {budget : Nat}
      {rest : List (ConnectionId × StateKey)}
      (isNext : shared.bridge.popAt key = some (event, bridge)) :
      Act shared (.turning id key (budget + 1) rest :: stack)
        (shared.withBridge bridge) (.handing id key event budget rest :: stack)
  | runsOut
      {shared : Shared}
      {stack : Stack}
      {id : ConnectionId}
      {key : StateKey}
      {budget : Nat}
      {rest : List (ConnectionId × StateKey)}
      (isOver : budget = 0 ∨ shared.bridge.popAt key = none) :
      Act shared (.turning id key budget rest :: stack) shared (.leaving id rest :: stack)
  | hands
      {shared : Shared}
      {stack : Stack}
      (id : ConnectionId)
      (key : StateKey)
      (event : ConnectionEvent)
      (budget : Nat)
      (rest : List (ConnectionId × StateKey)) :
      Act shared (.handing id key event budget rest :: stack)
        (shared.hand id event) (.calling id key budget rest :: stack)
  | returns
      {shared : Shared}
      {stack : Stack}
      (id : ConnectionId)
      (key : StateKey)
      (budget : Nat)
      (rest : List (ConnectionId × StateKey)) :
      Act shared (.calling id key budget rest :: stack)
        shared (.turning id key budget rest :: stack)
  | unwinds
      {shared : Shared}
      {stack : Stack}
      (id : ConnectionId)
      (key : StateKey)
      (budget : Nat)
      (rest : List (ConnectionId × StateKey)) :
      Act shared (.calling id key budget rest :: stack)
        (shared.withBridge (shared.bridge.mark false)) stack
  | leaves
      {shared : Shared}
      {stack : Stack}
      (id : ConnectionId)
      (rest : List (ConnectionId × StateKey)) :
      Act shared (.leaving id rest :: stack)
        (shared.withBridge (shared.bridge.retireIfIdle id)) (.visiting rest :: stack)
  | ends
      {shared : Shared}
      {stack : Stack} :
      Act shared (.visiting [] :: stack) (shared.withBridge (shared.bridge.mark false)) stack

/-- Threads, and what they share. -/
structure System where
  shared : Shared
  threads : List Stack

/-- Any thread may act next. -/
inductive Step : System → System → Prop
  | acts
      {shared next : Shared}
      {stack nextStack : Stack}
      (before after : List Stack)
      (act : Act shared stack next nextStack) :
      Step ⟨shared, before ++ stack :: after⟩ ⟨next, before ++ nextStack :: after⟩

/-- What comes about when some number of threads, none of which does anything yet, act in any
order. -/
def Reached
    (limit : Nat)
    (system : System) : Prop :=
  ∃ count, Relation.ReflTransGen Step ⟨.new limit, List.replicate count []⟩ system

/-- The events of a connection in a record. -/
def eventsFor
    (id : ConnectionId)
    (record : List (ConnectionId × ConnectionEvent)) : List ConnectionEvent :=
  record.filterMap fun entry => if entry.1 = id then some entry.2 else none

/-- The events of a connection that threads have taken and not handed to a sink yet. -/
def System.inHand
    (system : System)
    (id : ConnectionId) : List ConnectionEvent :=
  system.threads.flatten.filterMap (Activity.held? id)

theorem eventsFor_append
    (id : ConnectionId)
    (first second : List (ConnectionId × ConnectionEvent)) :
    eventsFor id (first ++ second) = eventsFor id first ++ eventsFor id second :=
  List.filterMap_append

theorem eventsFor_map
    (id other : ConnectionId)
    (events : List ConnectionEvent) :
    eventsFor id (events.map (other, ·)) = if other = id then events else [] := by
  rw [eventsFor, List.filterMap_map]
  by_cases same : other = id
  · simp [same]
  · simp [same]

/-- Only a pass has events in hand. -/
theorem filterMap_held?_of_countP_eq_zero
    {stack : Stack}
    (noPass : stack.countP Activity.isPass = 0)
    (id : ConnectionId) :
    stack.filterMap (Activity.held? id) = [] := by
  rw [List.filterMap_eq_nil_iff]
  intro activity member
  have isReport := List.countP_eq_zero.mp noPass activity member
  cases activity with
  | handing => exact absurd rfl isReport
  | _ => rfl

/-- Where no pass is running below it, only the topmost activity holds an event in hand. -/
theorem filterMap_held?_cons
    {stack : Stack}
    (noPass : stack.countP Activity.isPass = 0)
    (activity : Activity)
    (id : ConnectionId) :
    (activity :: stack : Stack).filterMap (Activity.held? id) = (activity.held? id).toList := by
  rw [List.filterMap_cons, filterMap_held?_of_countP_eq_zero noPass]
  cases activity.held? id <;> rfl

/-! ## States and names -/

/-- A late report makes nothing of a state that is over and has nothing left to deliver. -/
theorem isIdle_noticed
    {state : ConnectionState}
    {notice : Notice}
    (isIdle : state.isIdle = true)
    (isLate : notice ≠ .begins) :
    (noticed state notice).isIdle = true := by
  obtain ⟨decoder, queue, connected⟩ := state
  cases connected with
  | true => cases isIdle
  | false =>
      cases notice with
      | begins => exact absurd rfl isLate
      | ends => exact isIdle
      | brings chunk => exact isIdle

/-- An idle connection has nothing left to deliver. -/
theorem queue_eq_nil_of_isIdle
    {state : ConnectionState}
    (isIdle : state.isIdle = true) :
    state.queue = [] := by
  rw [ConnectionState.isIdle, Bool.and_eq_true] at isIdle
  exact List.isEmpty_iff.mp isIdle.2

/-- What a report adds to a queue stands behind what was queued. -/
theorem queue_eq_append_added
    {before after : ConnectionState}
    (grows : before.queue <+: after.queue) :
    after.queue = before.queue ++ added before after :=
  (List.prefix_iff_eq_append.mp grows).symm

/-- A connection that is tracked has a key. -/
theorem exists_key?_track
    (bridge : Bridge)
    (id : ConnectionId) :
    ∃ key, (bridge.track id).key? id = some key := by
  cases found : bridge.key? id with
  | some key => exact ⟨key, key?_track_of_eq_some id found⟩
  | none =>
      refine ⟨bridge.states.size, ?_⟩
      rw [key?] at found
      rw [track_of_key?_eq_none found, key?, List.lookup_append, found, Option.none_or,
        List.lookup_cons_self]

/-- What is tracked when a connection is retired was tracked before. -/
theorem tracked_retireIfIdle_sublist
    (bridge : Bridge)
    (id : ConnectionId) :
    (bridge.retireIfIdle id).tracked.Sublist bridge.tracked := by
  unfold retireIfIdle
  split
  · exact List.filter_sublist
  · exact List.Sublist.refl _

/-- A connection that is not over, or has something left to deliver, is not forgotten. -/
theorem key?_retireIfIdle_of_not_isIdle
    {bridge : Bridge}
    (id : ConnectionId)
    {other : ConnectionId}
    {key : StateKey}
    (found : bridge.key? other = some key)
    (isLive : (bridge.stateAt key).isIdle ≠ true) :
    (bridge.retireIfIdle id).key? other = some key := by
  by_cases same : other = id
  · subst same
    rw [retireIfIdle, state?, found, Option.map_some, Option.any_some, if_neg isLive]
    exact found
  · exact (key?_retireIfIdle bridge same).trans found

/-- Every state that is tracked is tracked under the name for which it was made, and every
other state is over, with nothing left to deliver. -/
structure Registered (shared : Shared) : Prop where
  sound : shared.bridge.Sound
  names_length : shared.names.length = shared.bridge.states.size
  isNamed : ∀ entry ∈ shared.bridge.tracked, shared.names[entry.2]? = some entry.1
  isIdle : ∀ key, shared.bridge.IsOrphan key → (shared.bridge.stateAt key).isIdle = true

/-- The states that a thread holds on to were made for the names under which it found them. -/
def Refers
    (names : List ConnectionId)
    (stack : Stack) : Prop :=
  ∀ activity ∈ stack, (∀ entry ∈ activity.entries, names[entry.2]? = some entry.1) ∧
    ∀ id key, activity ≠ .reporting id key .begins

namespace Registered

variable {shared : Shared}

/-- A bridge without connections has registered all of them. -/
theorem new (limit : Nat) : Registered (.new limit) where
  sound := sound_new limit
  names_length := rfl
  isNamed _ member := (List.not_mem_nil member).elim
  isIdle _ _ := rfl

/-- A state is tracked under the name for which it was made, or not at all. -/
theorem isOrphan_of_key?_ne
    (registered : Registered shared)
    {id : ConnectionId}
    {key : StateKey}
    (isNamed : shared.names[key]? = some id)
    (isUntracked : shared.bridge.key? id ≠ some key) :
    shared.bridge.IsOrphan key := by
  intro isTracked
  obtain ⟨⟨other, _⟩, member, rfl⟩ := List.mem_map.mp isTracked
  have same := (registered.isNamed _ member).symm.trans isNamed
  cases same
  exact isUntracked (registered.sound.key?_of_mem member)

/-- A state that is live is tracked. -/
theorem key?_of_not_isIdle
    (registered : Registered shared)
    {id : ConnectionId}
    {key : StateKey}
    (isNamed : shared.names[key]? = some id)
    (isLive : (shared.bridge.stateAt key).isIdle ≠ true) :
    shared.bridge.key? id = some key := by
  by_contra isUntracked
  exact isLive (registered.isIdle key (registered.isOrphan_of_key?_ne isNamed isUntracked))

/-- A key that has a name has a state. -/
theorem lt_size
    (registered : Registered shared)
    {id : ConnectionId}
    {key : StateKey}
    (isNamed : shared.names[key]? = some id) :
    key < shared.bridge.states.size :=
  registered.names_length ▸ (List.getElem?_eq_some_iff.mp isNamed).1

/-- The mark of a pass changes nothing that is registered. -/
theorem mark
    (registered : Registered shared)
    (dispatching : Bool) :
    Registered (shared.withBridge (shared.bridge.mark dispatching)) where
  sound := ⟨registered.sound.nodup_names, registered.sound.nodup_keys, registered.sound.isMade⟩
  names_length := registered.names_length
  isNamed := registered.isNamed
  isIdle := registered.isIdle

/-- A state may be changed so long as it is over with nothing left to deliver, if it is not
tracked. -/
theorem updateAt
    (registered : Registered shared)
    {key : StateKey}
    (isMade : key < shared.bridge.states.size)
    (change : ConnectionState → ConnectionState)
    (staysIdle : shared.bridge.IsOrphan key →
      (change (shared.bridge.stateAt key)).isIdle = true) :
    Registered (shared.withBridge (shared.bridge.updateAt key change)) where
  sound := registered.sound.updateAt key change
  names_length := registered.names_length.trans Array.size_modify.symm
  isNamed := registered.isNamed
  isIdle other isOrphan := by
    refine (congrArg ConnectionState.isIdle
      (stateAt_updateAt shared.bridge isMade change other)).trans ?_
    by_cases same : other = key
    · rw [if_pos same]
      exact staysIdle (same ▸ isOrphan)
    · rw [if_neg same]
      exact registered.isIdle other isOrphan

/-- A connection that is told something stays registered. -/
theorem report
    (registered : Registered shared)
    {id : ConnectionId}
    {key : StateKey}
    {notice : Notice}
    (isNamed : shared.names[key]? = some id)
    (isLate : notice ≠ .begins) :
    Registered (shared.report id key notice) := by
  have updated := registered.updateAt (registered.lt_size isNamed) (noticed · notice)
    fun isOrphan => isIdle_noticed (registered.isIdle key isOrphan) isLate
  exact ⟨updated.sound, updated.names_length, updated.isNamed, updated.isIdle⟩

/-- A connection of which an event is taken stays registered. -/
theorem take
    (registered : Registered shared)
    {id : ConnectionId}
    {key : StateKey}
    {event : ConnectionEvent}
    {bridge : Bridge}
    (isNamed : shared.names[key]? = some id)
    (isNext : shared.bridge.popAt key = some (event, bridge)) :
    Registered (shared.withBridge bridge) := by
  obtain ⟨queue, isQueue, rfl⟩ := popAt_eq_some_iff.mp isNext
  refine registered.updateAt (registered.lt_size isNamed) _ fun isOrphan => ?_
  rw [queue_eq_nil_of_isIdle (registered.isIdle key isOrphan)] at isQueue
  cases isQueue

/-- A connection that is retired stays registered under its key. -/
theorem retire
    (registered : Registered shared)
    (id : ConnectionId) :
    Registered (shared.withBridge (shared.bridge.retireIfIdle id)) where
  sound := registered.sound.retireIfIdle id
  names_length := registered.names_length.trans (size_states_retireIfIdle ..).symm
  isNamed entry member := registered.isNamed entry ((tracked_retireIfIdle_sublist ..).subset member)
  isIdle key isOrphan := by
    refine (congrArg ConnectionState.isIdle (stateAt_retireIfIdle ..)).trans ?_
    by_cases wasOrphan : shared.bridge.IsOrphan key
    · exact registered.isIdle key wasOrphan
    · obtain ⟨⟨other, _⟩, member, rfl⟩ := List.mem_map.mp (not_not.mp wasOrphan)
      by_contra isLive
      have found := registered.sound.key?_of_mem member
      exact isOrphan.ne_of_key? (key?_retireIfIdle_of_not_isIdle id found isLive) rfl

/-- A state is made for a name that is not tracked. -/
theorem track
    (registered : Registered shared)
    (id : ConnectionId) :
    Registered (shared.track id) := by
  cases found : shared.bridge.key? id with
  | some key =>
      rw [Shared.track, track_of_key?_eq_some found, found, Option.isSome_some, if_pos rfl]
      exact registered
  | none =>
      have isTracked : (shared.track id).bridge.tracked =
          shared.bridge.tracked ++ [(id, shared.bridge.states.size)] := by
        rw [Shared.track, track_of_key?_eq_none found]
      have areNames : (shared.track id).names = shared.names ++ [id] := by
        rw [Shared.track, found, Option.isSome_none, if_neg Bool.false_ne_true]
      have isSize : (shared.track id).bridge.states.size = shared.bridge.states.size + 1 := by
        rw [Shared.track, track_of_key?_eq_none found, Array.size_push]
      refine ⟨registered.sound.track id, ?_, ?_, ?_⟩
      · rw [areNames, isSize, List.length_append, registered.names_length]
        rfl
      · intro entry member
        rw [isTracked, List.mem_append, List.mem_singleton] at member
        rw [areNames]
        rcases member with wasTracked | rfl
        · have isNamed := registered.isNamed entry wasTracked
          exact (List.getElem?_append_left (List.getElem?_eq_some_iff.mp isNamed).1).trans isNamed
        · rw [← registered.names_length, List.getElem?_concat_length]
      · intro key isOrphan
        rw [IsOrphan, isTracked, List.map_append, List.mem_append, not_or] at isOrphan
        by_cases isMade : key < shared.bridge.states.size
        · exact (congrArg ConnectionState.isIdle (stateAt_track isMade id)).trans
            (registered.isIdle key isOrphan.1)
        · have isOther : key ≠ shared.bridge.states.size :=
            fun same => isOrphan.2 (List.mem_singleton.mpr same)
          have isLater : shared.bridge.states.size < key :=
            Nat.lt_of_le_of_ne (Nat.le_of_not_lt isMade) (Ne.symm isOther)
          have isUnmade : (shared.track id).bridge.states[key]? = none :=
            Array.getElem?_eq_none (isSize.trans_le isLater)
          rw [stateAt, isUnmade]
          rfl

/-- A connection that begins is registered. -/
theorem connect
    (registered : Registered shared)
    (id : ConnectionId) :
    Registered (shared.connect id) := by
  obtain ⟨key, found⟩ := exists_key?_track shared.bridge id
  have tracked := registered.track id
  have updated := tracked.updateAt (tracked.sound.key_lt found) .connect
    fun isOrphan => absurd rfl (isOrphan.ne_of_key? found)
  have isConnected : (shared.connect id).bridge =
      (shared.bridge.track id).updateAt key .connect := by
    rw [Shared.connect, onConnected, update, found]
  constructor
  · rw [isConnected]
    exact updated.sound
  · rw [isConnected]
    exact updated.names_length
  · rw [isConnected]
    exact updated.isNamed
  · rw [isConnected]
    exact updated.isIdle

end Registered

/-! ## What one act does -/

/-- Events are queued, and nothing is handed out. -/
def Shared.Queues (shared next : Shared) : Prop :=
  next.delivered = shared.delivered ∧
    ∀ id, ∃ events, eventsFor id next.pushed = eventsFor id shared.pushed ++ events ∧
      (next.bridge.stateOf id).queue = (shared.bridge.stateOf id).queue ++ events

/-- What is accounted for of the events of a connection: those that were handed to a sink,
those that are about to be, and those that are queued. -/
def Shared.account
    (shared : Shared)
    (inHand : List ConnectionEvent)
    (id : ConnectionId) : List ConnectionEvent :=
  eventsFor id shared.delivered ++ inHand ++ (shared.bridge.stateOf id).queue

/-- A bridge whose queues are the same queues nothing. -/
theorem Shared.queues_withBridge
    {shared : Shared}
    {bridge : Bridge}
    (areSame : ∀ id, (bridge.stateOf id).queue = (shared.bridge.stateOf id).queue) :
    shared.Queues (shared.withBridge bridge) :=
  ⟨rfl, fun id => ⟨[], (List.append_nil _).symm, (areSame id).trans (List.append_nil _).symm⟩⟩

theorem Shared.queues_self (shared : Shared) : shared.Queues shared :=
  shared.queues_withBridge fun _ => rfl

/-- A connection that is retired has left nothing in its queue. -/
theorem queue_stateOf_retireIfIdle
    (bridge : Bridge)
    (id other : ConnectionId) :
    ((bridge.retireIfIdle id).stateOf other).queue = (bridge.stateOf other).queue := by
  rw [stateOf, state?_retireIfIdle, limit_retireIfIdle]
  by_cases isForgotten : other = id ∧ (bridge.state? id).any ConnectionState.isIdle = true
  · obtain ⟨rfl, isIdle⟩ := isForgotten
    rw [if_pos ⟨rfl, isIdle⟩, stateOf]
    cases found : bridge.state? other with
    | none => rfl
    | some state =>
        rw [found] at isIdle
        exact (queue_eq_nil_of_isIdle isIdle).symm
  · rw [if_neg isForgotten]
    rfl

namespace Registered

variable {shared : Shared}

/-- A connection that begins queues events and hands none out. -/
theorem queues_connect
    (registered : Registered shared)
    (id : ConnectionId) :
    shared.Queues (shared.connect id) := by
  refine ⟨rfl, fun other => ⟨_, eventsFor_append .., ?_⟩⟩
  have isState := registered.sound.stateOf_onConnected id
  rw [eventsFor_map]
  by_cases same : id = other
  · subst same
    rw [if_pos rfl]
    exact queue_eq_append_added
      ((isState id).trans (if_pos rfl) ▸ queue_prefix_noticed _ .begins)
  · rw [if_neg same, List.append_nil]
    exact congrArg ConnectionState.queue ((isState other).trans (if_neg (Ne.symm same)))

/-- A late report changes the queue of the connection that it is about, or nothing. -/
theorem queues_report
    (registered : Registered shared)
    {id : ConnectionId}
    {key : StateKey}
    {notice : Notice}
    (isNamed : shared.names[key]? = some id)
    (isLate : notice ≠ .begins) :
    shared.Queues (shared.report id key notice) := by
  refine ⟨rfl, fun other => ⟨_, eventsFor_append .., ?_⟩⟩
  rw [eventsFor_map]
  by_cases found : shared.bridge.key? id = some key
  · have isState := registered.sound.stateOf_updateAt found (noticed · notice)
    by_cases same : id = other
    · subst same
      rw [if_pos rfl, stateAt_of_key?_eq_some found]
      exact (congrArg ConnectionState.queue ((isState id).trans (if_pos rfl))).trans
        (queue_eq_append_added (queue_prefix_noticed _ notice))
    · rw [if_neg same, List.append_nil]
      exact congrArg ConnectionState.queue ((isState other).trans (if_neg (Ne.symm same)))
  · have isOrphan := registered.isOrphan_of_key?_ne isNamed found
    have isIdle := isIdle_noticed (registered.isIdle key isOrphan) isLate
    have isNothing : added (shared.bridge.stateAt key)
        (noticed (shared.bridge.stateAt key) notice) = [] := by
      rw [added, queue_eq_nil_of_isIdle isIdle, List.drop_nil]
    rw [isNothing, ite_self, List.append_nil]
    exact congrArg ConnectionState.queue
      (isOrphan.stateOf_updateAt (registered.lt_size isNamed) _ other)

/-- An event is taken from the queue of its connection. -/
theorem account_take
    (registered : Registered shared)
    {id : ConnectionId}
    {key : StateKey}
    {event : ConnectionEvent}
    {bridge : Bridge}
    (isNamed : shared.names[key]? = some id)
    (isNext : shared.bridge.popAt key = some (event, bridge))
    (other : ConnectionId) :
    (shared.withBridge bridge).account (if other = id then some event else none).toList other =
      shared.account [] other := by
  obtain ⟨queue, isQueue, rfl⟩ := popAt_eq_some_iff.mp isNext
  have found : shared.bridge.key? id = some key := by
    apply registered.key?_of_not_isIdle isNamed
    intro isIdle
    rw [queue_eq_nil_of_isIdle isIdle] at isQueue
    cases isQueue
  have isState := registered.sound.stateOf_updateAt found
    (fun state => { state with queue := queue }) other
  rw [stateAt_of_key?_eq_some found] at isQueue
  rw [Shared.account, Shared.account, Shared.withBridge, isState, List.append_nil]
  by_cases same : other = id
  · rw [if_pos same, if_pos same, same, isQueue, List.append_assoc]
    rfl
  · rw [if_neg same, if_neg same, Option.toList_none, List.append_nil]

end Registered

/-- An event is handed to a sink. -/
theorem Shared.account_hand
    (shared : Shared)
    (id : ConnectionId)
    (event : ConnectionEvent)
    (other : ConnectionId) :
    (shared.hand id event).account [] other =
      shared.account (if other = id then some event else none).toList other := by
  rw [account, account, hand, eventsFor_append, List.append_nil]
  by_cases same : other = id
  · rw [if_pos same]
    simp [eventsFor, same]
  · rw [if_neg same]
    simp [eventsFor, Ne.symm same]

/-- What one act of a thread does: states keep their names, the mark tells whether a pass is
running, and an act queues events, or it is the pass that hands them on. -/
structure Moves
    (shared : Shared)
    (stack : Stack)
    (next : Shared)
    (nextStack : Stack) : Prop where
  registered : Registered next
  names : shared.names <+: next.names
  refers : Refers next.names nextStack
  passes : nextStack.countP Activity.isPass + shared.bridge.dispatching.toNat =
    stack.countP Activity.isPass + next.bridge.dispatching.toNat
  keeps : (shared.Queues next ∧ ∀ id, nextStack.filterMap (Activity.held? id) =
      stack.filterMap (Activity.held? id)) ∨
    (0 < stack.countP Activity.isPass ∧ next.pushed = shared.pushed ∧
      ∀ id, next.account (nextStack.filterMap (Activity.held? id)) id =
        shared.account (stack.filterMap (Activity.held? id)) id)

/-- What refers to some keys refers to more of them. -/
theorem Refers.mono
    {names more : List ConnectionId}
    {stack : Stack}
    (refers : Refers names stack)
    (isMore : names <+: more) :
    Refers more stack := by
  intro activity member
  obtain ⟨areNamed, isLate⟩ := refers activity member
  refine ⟨fun entry isEntry => ?_, isLate⟩
  obtain ⟨others, rfl⟩ := isMore
  have isNamed := areNamed entry isEntry
  exact (List.getElem?_append_left (List.getElem?_eq_some_iff.mp isNamed).1).trans isNamed

/-- A thread goes from one part of a pass to another, and events stay where they are. -/
theorem Moves.within
    {shared : Shared}
    {stack : Stack}
    {activity next : Activity}
    {bridge : Bridge}
    (registered : Registered (shared.withBridge bridge))
    (areSame : ∀ id, (bridge.stateOf id).queue = (shared.bridge.stateOf id).queue)
    (isSameMark : bridge.dispatching = shared.bridge.dispatching)
    (refers : Refers shared.names (activity :: stack))
    (isPass : activity.isPass = true ∧ next.isPass = true)
    (holdsNothing : ∀ id, activity.held? id = none ∧ next.held? id = none)
    (refersNext : ∀ entry ∈ next.entries, shared.names[entry.2]? = some entry.1) :
    Moves shared (activity :: stack) (shared.withBridge bridge) (next :: stack) where
  registered := registered
  names := List.prefix_refl _
  refers := by
    refine List.forall_mem_cons.mpr ⟨⟨refersNext, ?_⟩, (List.forall_mem_cons.mp refers).2⟩
    rintro id key rfl
    cases isPass.2
  passes := by
    rw [List.countP_cons_of_pos isPass.1, List.countP_cons_of_pos isPass.2, Shared.withBridge,
      isSameMark]
  keeps := by
    refine .inl ⟨Shared.queues_withBridge areSame, fun id => ?_⟩
    rw [List.filterMap_cons_none (holdsNothing id).1, List.filterMap_cons_none (holdsNothing id).2]

/-- The thread that makes a pass takes an event or hands it on, and no event is lost or made. -/
theorem Moves.carries
    {shared next : Shared}
    {stack : Stack}
    {activity after : Activity}
    (registered : Registered next)
    (areSameNames : next.names = shared.names)
    (areSamePushed : next.pushed = shared.pushed)
    (isSameMark : next.bridge.dispatching = shared.bridge.dispatching)
    (refers : Refers shared.names (activity :: stack))
    (isMarked : (activity :: stack).countP Activity.isPass ≤ shared.bridge.dispatching.toNat)
    (isPass : activity.isPass = true ∧ after.isPass = true)
    (areSameEntries : after.entries = activity.entries)
    (accounts : ∀ id, next.account (after.held? id).toList id =
      shared.account (activity.held? id).toList id) :
    Moves shared (activity :: stack) next (after :: stack) := by
  obtain ⟨⟨areNamed, -⟩, refersRest⟩ := List.forall_mem_cons.mp refers
  have noPass : stack.countP Activity.isPass = 0 := by
    rw [List.countP_cons_of_pos isPass.1] at isMarked
    exact Nat.le_zero.mp (Nat.le_of_succ_le_succ (isMarked.trans (Bool.toNat_le _)))
  exact
    { registered := registered
      names := areSameNames ▸ List.prefix_refl _
      refers := by
        rw [areSameNames]
        refine List.forall_mem_cons.mpr ⟨⟨areSameEntries ▸ areNamed, ?_⟩, refersRest⟩
        rintro id key rfl
        cases isPass.2
      passes := by
        rw [List.countP_cons_of_pos isPass.1, List.countP_cons_of_pos isPass.2, isSameMark]
      keeps := by
        refine .inr ⟨List.countP_pos_iff.mpr ⟨activity, List.mem_cons_self, isPass.1⟩,
          areSamePushed, fun id => ?_⟩
        rw [filterMap_held?_cons noPass, filterMap_held?_cons noPass]
        exact accounts id }

/-- A thread is done with a pass. -/
theorem Moves.quits
    {shared : Shared}
    {stack : Stack}
    {activity : Activity}
    (registered : Registered shared)
    (refers : Refers shared.names (activity :: stack))
    (isPass : activity.isPass = true)
    (holdsNothing : ∀ id, activity.held? id = none)
    (isMarked : (activity :: stack).countP Activity.isPass ≤ shared.bridge.dispatching.toNat) :
    Moves shared (activity :: stack) (shared.withBridge (shared.bridge.mark false)) stack where
  registered := registered.mark false
  names := List.prefix_refl _
  refers := (List.forall_mem_cons.mp refers).2
  passes := by
    have isRunning : shared.bridge.dispatching.toNat = 1 := by
      rw [List.countP_cons_of_pos isPass] at isMarked
      exact Nat.le_antisymm (Bool.toNat_le _) (Nat.le_of_add_left_le isMarked)
    rw [List.countP_cons_of_pos isPass, isRunning]
    rfl
  keeps := .inl ⟨Shared.queues_withBridge fun _ => rfl, fun id =>
    (List.filterMap_cons_none (holdsNothing id)).symm⟩

/-- Every act queues events, takes one in hand or hands it out, and loses none. -/
theorem Act.moves
    {shared next : Shared}
    {stack nextStack : Stack}
    (act : Act shared stack next nextStack)
    (registered : Registered shared)
    (refers : Refers shared.names stack)
    (isMarked : stack.countP Activity.isPass ≤ shared.bridge.dispatching.toNat) :
    Moves shared stack next nextStack := by
  cases act with
  | connects id isFree =>
      have namesGrow : shared.names <+: (shared.connect id).names := by
        rw [Shared.connect, Shared.track]
        split
        · exact List.prefix_refl _
        · exact List.prefix_append ..
      exact
        { registered := registered.connect id
          names := namesGrow
          refers := refers.mono namesGrow
          passes := congrArg (_ + Bool.toNat ·)
            (dispatching_onBridge (.told (.connect id)) shared.bridge).symm
          keeps := .inl ⟨registered.queues_connect id, fun _ => rfl⟩ }
  | @finds _ id key notice isFree isLate found =>
      exact
        { registered := registered
          names := List.prefix_refl _
          refers := by
            refine List.forall_mem_cons.mpr ⟨⟨?_, ?_⟩, refers⟩
            · exact List.forall_mem_singleton.mpr
                (registered.isNamed _ (mem_tracked_of_key?_eq_some found))
            · rintro other otherKey ⟨⟩
              exact isLate rfl
          passes := rfl
          keeps := .inl ⟨shared.queues_self, fun _ => rfl⟩ }
  | misses | refuses =>
      exact
        { registered := registered
          names := List.prefix_refl _
          refers := refers
          passes := rfl
          keeps := .inl ⟨shared.queues_self, fun _ => rfl⟩ }
  | reports id key notice =>
      obtain ⟨⟨areNamed, isLate⟩, refersRest⟩ := List.forall_mem_cons.mp refers
      have isNamed := areNamed (id, key) (List.mem_singleton_self _)
      have notBegins : notice ≠ .begins := by
        rintro rfl
        exact isLate id key rfl
      exact
        { registered := registered.report isNamed notBegins
          names := List.prefix_refl _
          refers := refersRest
          passes := rfl
          keeps := .inl ⟨registered.queues_report isNamed notBegins, fun _ => rfl⟩ }
  | begins isFree isIdle =>
      exact
        { registered := registered.mark true
          names := List.prefix_refl _
          refers := List.forall_mem_cons.mpr
            ⟨⟨fun entry member => (List.not_mem_nil member).elim, fun _ _ => by rintro ⟨⟩⟩, refers⟩
          passes := by
            rw [List.countP_cons_of_pos rfl, isIdle]
            rfl
          keeps := .inl ⟨Shared.queues_withBridge fun _ => rfl, fun _ => rfl⟩ }
  | @collects _ found entry isTracked =>
      refine .within registered (fun _ => rfl) rfl refers ⟨rfl, rfl⟩ (fun _ => ⟨rfl, rfl⟩) ?_
      intro other member
      rcases List.mem_append.mp member with wasFound | isNew
      · exact (List.forall_mem_cons.mp refers).1.1 other wasFound
      · exact List.mem_singleton.mp isNew ▸ registered.isNamed entry isTracked
  | departs found =>
      exact .within registered (fun _ => rfl) rfl refers ⟨rfl, rfl⟩ (fun _ => ⟨rfl, rfl⟩)
        (List.forall_mem_cons.mp refers).1.1
  | turns id key rest =>
      exact .within registered (fun _ => rfl) rfl refers ⟨rfl, rfl⟩ (fun _ => ⟨rfl, rfl⟩)
        (List.forall_mem_cons.mp refers).1.1
  | @takes _ id key event bridge _ _ isNext =>
      have isNamed := (List.forall_mem_cons.mp refers).1.1 (id, key) List.mem_cons_self
      have isSameMark : bridge.dispatching = shared.bridge.dispatching := by
        obtain ⟨queue, -, rfl⟩ := popAt_eq_some_iff.mp isNext
        rfl
      exact .carries (registered.take isNamed isNext) rfl rfl isSameMark refers isMarked
        ⟨rfl, rfl⟩ rfl (registered.account_take isNamed isNext)
  | runsOut isOver =>
      refine .within registered (fun _ => rfl) rfl refers ⟨rfl, rfl⟩ (fun _ => ⟨rfl, rfl⟩) ?_
      exact fun entry member =>
        (List.forall_mem_cons.mp refers).1.1 entry (List.mem_cons_of_mem _ member)
  | hands id key event budget rest =>
      have stillRegistered : Registered (shared.hand id event) :=
        ⟨registered.sound, registered.names_length, registered.isNamed, registered.isIdle⟩
      exact .carries stillRegistered rfl rfl rfl refers isMarked ⟨rfl, rfl⟩ rfl
        (shared.account_hand id event)
  | returns id key budget rest =>
      exact .within registered (fun _ => rfl) rfl refers ⟨rfl, rfl⟩ (fun _ => ⟨rfl, rfl⟩)
        (List.forall_mem_cons.mp refers).1.1
  | unwinds id key budget rest =>
      exact .quits registered refers rfl (fun _ => rfl) isMarked
  | leaves id rest =>
      exact .within (registered.retire id) (queue_stateOf_retireIfIdle shared.bridge id)
        (dispatching_retireIfIdle ..) refers ⟨rfl, rfl⟩ (fun _ => ⟨rfl, rfl⟩)
        (List.forall_mem_cons.mp refers).1.1
  | ends => exact .quits registered refers rfl (fun _ => rfl) isMarked

/-! ## Any interleaving -/

/-- What holds between any two acts. -/
structure System.Kept (system : System) : Prop where
  registered : Registered system.shared
  refers : ∀ stack ∈ system.threads, Refers system.shared.names stack
  passes : system.threads.flatten.countP Activity.isPass =
    system.shared.bridge.dispatching.toNat
  account_eq : ∀ id, system.shared.account (system.inHand id) id =
    eventsFor id system.shared.pushed

/-- At the beginning nothing was queued, and no pass is running. -/
theorem System.kept_new
    (limit count : Nat) :
    System.Kept ⟨.new limit, List.replicate count []⟩ where
  registered := .new limit
  refers stack member := by
    rw [List.eq_of_mem_replicate member]
    exact fun _ isActivity => (List.not_mem_nil isActivity).elim
  passes := by
    rw [List.flatten_replicate_nil]
    rfl
  account_eq id := by
    rw [System.inHand, List.flatten_replicate_nil]
    rfl

/-- Whatever one thread does, nothing is lost. -/
theorem Step.kept
    {system next : System}
    (step : Step system next)
    (kept : system.Kept) :
    next.Kept := by
  obtain ⟨before, after, act⟩ := step
  rename_i shared next stack nextStack
  have areCounted := kept.passes
  simp only [List.flatten_append, List.flatten_cons, List.countP_append] at areCounted
  have isMarked : stack.countP Activity.isPass ≤ shared.bridge.dispatching.toNat := by
    omega
  have moves := act.moves kept.registered (kept.refers stack (by simp)) isMarked
  have areBalanced := moves.passes
  refine ⟨moves.registered, ?_, ?_, ?_⟩
  · intro other member
    rcases List.mem_append.mp member with isBefore | isHere
    · exact (kept.refers other (List.mem_append_left _ isBefore)).mono moves.names
    · rcases List.mem_cons.mp isHere with rfl | isAfter
      · exact moves.refers
      · refine (kept.refers other ?_).mono moves.names
        exact List.mem_append_right _ (List.mem_cons_of_mem _ isAfter)
  · simp only [List.flatten_append, List.flatten_cons, List.countP_append]
    omega
  · intro id
    have isAccounted := kept.account_eq id
    simp only [System.inHand, List.flatten_append, List.flatten_cons,
      List.filterMap_append] at isAccounted ⊢
    rcases moves.keeps with ⟨⟨sameDelivered, grows⟩, sameHeld⟩ | ⟨isPass, samePushed, handsOn⟩
    · obtain ⟨events, isPushed, isQueued⟩ := grows id
      rw [Shared.account, sameDelivered, sameHeld, isQueued, isPushed, ← isAccounted,
        Shared.account, ← List.append_assoc]
    · have atMostOne := Bool.toNat_le shared.bridge.dispatching
      have noneBefore : before.flatten.filterMap (Activity.held? id) = [] :=
        filterMap_held?_of_countP_eq_zero (by omega) id
      have noneAfter : after.flatten.filterMap (Activity.held? id) = [] :=
        filterMap_held?_of_countP_eq_zero (by omega) id
      rw [noneBefore, noneAfter, List.nil_append, List.append_nil] at isAccounted ⊢
      rw [samePushed, handsOn, isAccounted]

/-- Whatever threads do, each event that was queued is accounted for. -/
theorem Reached.kept
    {limit : Nat}
    {system : System}
    (reached : Reached limit system) :
    system.Kept := by
  obtain ⟨count, steps⟩ := reached
  induction steps with
  | refl => exact System.kept_new limit count
  | tail steps step inductionHypothesis => exact step.kept inductionHypothesis

/-- What a reached system steps to is reached. -/
theorem Reached.step
    {limit : Nat}
    {system next : System}
    (reached : Reached limit system)
    (step : Step system next) :
    Reached limit next := by
  obtain ⟨count, steps⟩ := reached
  exact ⟨count, steps.tail step⟩

/-! ## One thread alone

What a pass does on its own, and what its sink tells the bridge meanwhile, are acts of one
thread. So what holds of all interleavings holds of passes that nothing comes between. -/

/-- What one thread does while no other acts. -/
def Acts (start last : Shared × Stack) : Prop :=
  Relation.ReflTransGen (fun before after => Act before.1 before.2 after.1 after.2) start last

/-- One act alone is a sequence of acts. -/
theorem Act.alone
    {shared next : Shared}
    {stack nextStack : Stack}
    (act : Act shared stack next nextStack) :
    Acts (shared, stack) (next, nextStack) :=
  .single act

/-- What one thread does is done while all others wait. -/
theorem Acts.steps
    {start last : Shared × Stack}
    (acts : Acts start last)
    (before after : List Stack) :
    Relation.ReflTransGen Step ⟨start.1, before ++ start.2 :: after⟩
      ⟨last.1, before ++ last.2 :: after⟩ := by
  induction acts with
  | refl => exact .refl
  | tail acts act inductionHypothesis => exact inductionHypothesis.tail (.acts before after act)

/-- The events that sinks were called with. -/
def handedOut (history : List Happening) : List (ConnectionId × ConnectionEvent) :=
  history.filterMap fun
    | .delivered id event => some (id, event)
    | _ => none

theorem handedOut_concat
    (history : List Happening)
    (happening : Happening) :
    handedOut (history ++ [happening]) = handedOut history ++ handedOut [happening] :=
  List.filterMap_append

/-- What threads share shows a world. -/
structure Shared.Shows
    (shared : Shared)
    (world : World) : Prop where
  bridge_eq : shared.bridge = world.bridge
  delivered_eq : shared.delivered = handedOut world.history

/-- A thread that is free can tell a connection something. -/
theorem acts_notice
    {stack : Stack}
    (isFree : stack.IsFree)
    (shared : Shared)
    (id : ConnectionId)
    (notice : Notice)
    (isLate : notice ≠ .begins) :
    ∃ next, Acts (shared, stack) (next, stack) ∧
      next.bridge = shared.bridge.update id (noticed · notice) ∧
      next.delivered = shared.delivered := by
  cases found : shared.bridge.key? id with
  | none =>
      refine ⟨shared, (Act.misses isFree found).alone, ?_, rfl⟩
      rw [update, found]
  | some key =>
      refine ⟨shared.report id key notice, ?_, ?_, rfl⟩
      · exact (Act.finds isFree isLate found).alone.trans (Act.reports id key notice).alone
      · rw [update, found]
        rfl

/-- What a bridge is told, a thread may report. -/
theorem Shared.Shows.tell
    {shared : Shared}
    {world : World}
    (shown : shared.Shows world)
    {stack : Stack}
    (isFree : stack.IsFree)
    {input : Input}
    (tracksOn : input ≠ .clear) :
    ∃ next, Acts (shared, stack) (next, stack) ∧ next.Shows (world.note (.told input)) := by
  have delivered_eq : shared.delivered = handedOut (world.history ++ [.told input]) := by
    rw [handedOut_concat, shown.delivered_eq]
    exact (List.append_nil _).symm
  cases input with
  | connect id =>
      refine ⟨shared.connect id, (Act.connects id isFree).alone, ?_, delivered_eq⟩
      exact congrArg (onConnected · id) shown.bridge_eq
  | disconnect id =>
      obtain ⟨next, acts, isBridge, sameDelivered⟩ :=
        acts_notice isFree shared id .ends (by rintro ⟨⟩)
      refine ⟨next, acts, isBridge.trans ?_, sameDelivered.trans delivered_eq⟩
      exact congrArg (onDisconnected · id) shown.bridge_eq
  | receive id chunk =>
      obtain ⟨next, acts, isBridge, sameDelivered⟩ :=
        acts_notice isFree shared id (.brings chunk) (by rintro ⟨⟩)
      refine ⟨next, acts, isBridge.trans ?_, sameDelivered.trans delivered_eq⟩
      exact congrArg (onBytesReceived · id chunk) shown.bridge_eq
  | clear => exact absurd rfl tracksOn

/-- A thread that is free can tell a bridge all that a sink tells it. -/
theorem Shared.Shows.tellAll
    {shared : Shared}
    {world : World}
    (shown : shared.Shows world)
    {stack : Stack}
    (isFree : stack.IsFree)
    {inputs : List Input}
    (tracksOn : .clear ∉ inputs) :
    ∃ next, Acts (shared, stack) (next, stack) ∧
      next.Shows (world.noteAll (inputs.map .told)) := by
  induction inputs generalizing shared world with
  | nil => exact ⟨shared, .refl, shown⟩
  | cons input inputs inductionHypothesis =>
      rw [List.mem_cons, not_or] at tracksOn
      obtain ⟨middle, acts, shown⟩ := shown.tell isFree (Ne.symm tracksOn.1)
      obtain ⟨next, more, shown⟩ := inductionHypothesis shown tracksOn.2
      exact ⟨next, acts.trans more, shown⟩

/-- A turn is a sequence of acts of one thread. -/
theorem Turn.acts
    {id : ConnectionId}
    {key : StateKey}
    {budget : Nat}
    {world last : World}
    {report lastReport : PassReport}
    (turn : Turn id key budget world report last lastReport)
    (neverClears : .told .clear ∉ last.history)
    {shared : Shared}
    (shown : shared.Shows world)
    (rest : List (ConnectionId × StateKey))
    (stack : Stack) :
    ∃ next, Acts (shared, .turning id key budget rest :: stack) (next, .leaving id rest :: stack) ∧
      next.Shows last := by
  induction turn generalizing shared with
  | spent world report => exact ⟨shared, (Act.runsOut (.inl rfl)).alone, shown⟩
  | runsOut budget report isEmpty =>
      exact ⟨shared, (Act.runsOut (.inr (shown.bridge_eq ▸ isEmpty))).alone, shown⟩
  | @delivers world last bridge event budget report lastReport inputs succeeded isNext turn
      inductionHypothesis =>
      have tracksOn : .clear ∉ inputs := by
        intro clears
        apply neverClears
        apply turn.history_prefix.subset
        simp [delivery, clears]
      have isTaken : Acts (shared, .turning id key (budget + 1) rest :: stack)
          ((shared.withBridge bridge).hand id event, .calling id key budget rest :: stack) :=
        (Act.takes (shown.bridge_eq ▸ isNext)).alone.trans
          (Act.hands id key event budget rest).alone
      have handed : ((shared.withBridge bridge).hand id event).Shows
          ({ world with bridge := bridge }.note (.delivered id event)) :=
        ⟨rfl, (congrArg (· ++ [(id, event)]) shown.delivered_eq).trans
          (handedOut_concat world.history (.delivered id event)).symm⟩
      have isFree : Stack.IsFree (.calling id key budget rest :: stack) := by
        rintro activity ⟨⟩
        rfl
      obtain ⟨told, tells, shown⟩ := handed.tellAll isFree tracksOn
      have returned : told.Shows ({ world with bridge := bridge }.noteAll
          (delivery id event inputs succeeded)) := by
        rw [World.noteAll_delivery]
        refine ⟨shown.bridge_eq, shown.delivered_eq.trans ?_⟩
        exact ((handedOut_concat ..).trans (List.append_nil _)).symm
      obtain ⟨next, acts, shown⟩ := inductionHypothesis neverClears returned
      have goesOn := (Act.returns id key budget rest).alone.trans acts
      exact ⟨next, (isTaken.trans tells).trans goesOn, shown⟩

/-- A visit is a sequence of acts of one thread. -/
theorem Visit.acts
    {order : List (ConnectionId × StateKey)}
    {world last : World}
    {report lastReport : PassReport}
    (visit : Visit order world report last lastReport)
    (neverClears : .told .clear ∉ last.history)
    {shared : Shared}
    (shown : shared.Shows world)
    (stack : Stack) :
    ∃ next, Acts (shared, .visiting order :: stack) (next, .visiting [] :: stack) ∧
      next.Shows last := by
  induction visit generalizing shared with
  | ends world report => exact ⟨shared, .refl, shown⟩
  | @turns id key rest world middle last report middleReport lastReport turn visit
      inductionHypothesis =>
      have neverClearsInTurn : .told .clear ∉ middle.history := by
        intro clears
        apply neverClears
        exact visit.history_prefix.subset clears
      rw [← shown.bridge_eq] at turn
      obtain ⟨turned, turns, shown⟩ := turn.acts neverClearsInTurn shown rest stack
      have retired : (turned.withBridge (turned.bridge.retireIfIdle id)).Shows
          { middle with bridge := middle.bridge.retireIfIdle id } :=
        ⟨congrArg (retireIfIdle · id) shown.bridge_eq, shown.delivered_eq⟩
      obtain ⟨next, acts, shown⟩ := inductionHypothesis neverClears retired
      have leaves := turns.trans (Act.leaves id rest).alone
      exact ⟨next, ((Act.turns id key rest).alone.trans leaves).trans acts, shown⟩

/-- A pass may look up what is tracked in any order. -/
theorem acts_collect
    (shared : Shared)
    {order : List (ConnectionId × StateKey)}
    (areTracked : order ⊆ shared.bridge.tracked)
    (found : List (ConnectionId × StateKey))
    (stack : Stack) :
    Acts (shared, .collecting found :: stack) (shared, .collecting (found ++ order) :: stack) := by
  induction order generalizing found with
  | nil =>
      rw [List.append_nil]
      exact .refl
  | cons entry order inductionHypothesis =>
      rw [List.cons_subset] at areTracked
      have acts := inductionHypothesis areTracked.2 (found ++ [entry])
      rw [List.append_assoc, List.singleton_append] at acts
      exact .head (.collects areTracked.1) acts

/-- What a pass does that nothing comes between is what one thread may do. -/
theorem Pass.acts
    {world last : World}
    {report : PassReport}
    (pass : Pass world report last)
    (neverClears : .told .clear ∉ last.history)
    {shared : Shared}
    (shown : shared.Shows world)
    {stack : Stack}
    (isFree : stack.IsFree) :
    ∃ next, Acts (shared, stack) (next, stack) ∧ next.Shows last := by
  cases pass with
  | nested isRunning => exact ⟨shared, .refl, shown⟩
  | @runs unmarked _ order isIdle isOrder visit =>
      have marked : (shared.withBridge (shared.bridge.mark true)).Shows
          { world with bridge := world.bridge.mark true } :=
        ⟨congrArg (Bridge.mark · true) shown.bridge_eq, shown.delivered_eq⟩
      have begun : Acts (shared, stack)
          (shared.withBridge (shared.bridge.mark true), .collecting [] :: stack) :=
        (Act.begins isFree (shown.bridge_eq ▸ isIdle)).alone
      have areTracked : order ⊆ shared.bridge.tracked := shown.bridge_eq ▸ isOrder.subset
      have collected :=
        acts_collect (shared.withBridge (shared.bridge.mark true)) areTracked [] stack
      obtain ⟨visited, visits, shown⟩ := visit.acts neverClears marked stack
      refine ⟨visited.withBridge (visited.bridge.mark false), ?_,
        congrArg (Bridge.mark · false) shown.bridge_eq, shown.delivered_eq⟩
      have departs := (begun.trans collected).trans (Act.departs order).alone
      exact (departs.trans visits).trans Act.ends.alone

/-! ## Nothing is lost -/

/-- A state of a connection that is not over, or has something left to deliver. -/
def IsLive (state : ConnectionState) : Prop :=
  state.connected = true ∨ state.queue ≠ []

/-- A state lives as long as it is not idle. -/
theorem isLive_iff (state : ConnectionState) :
    IsLive state ↔ state.isIdle ≠ true := by
  obtain ⟨decoder, queue, connected⟩ := state
  cases connected <;> cases queue <;> simp [IsLive, ConnectionState.isIdle]

/-- While no pass is running, no event is in hand, and else at most one is. -/
theorem System.Kept.length_inHand_le
    {system : System}
    (kept : system.Kept)
    (id : ConnectionId) :
    (system.inHand id).length ≤ system.shared.bridge.dispatching.toNat := by
  rw [← kept.passes, System.inHand, List.length_filterMap_eq_countP]
  refine List.countP_mono_left fun activity _ isHeld => ?_
  cases activity with
  | reporting => cases isHeld
  | _ => rfl

/-- No update is lost to retirement. In whatever order threads report and make passes, an event
is only ever queued in a state that is tracked; of the states that were ever made for a name, at
most one is live; and the events that were queued for a connection, in this order, are those
that were handed to a sink, the one that is about to be, if a pass is running, and those that
are still queued under its name. -/
theorem no_update_is_lost
    {limit : Nat}
    {system : System}
    (reached : Reached limit system) :
    (∀ next key, Step system next →
      (system.shared.bridge.stateAt key).queue.length <
        (next.shared.bridge.stateAt key).queue.length →
      ∃ id, next.shared.names[key]? = some id ∧ next.shared.bridge.key? id = some key) ∧
    (∀ id first second, system.shared.names[first]? = some id →
      system.shared.names[second]? = some id →
      IsLive (system.shared.bridge.stateAt first) →
      IsLive (system.shared.bridge.stateAt second) → first = second) ∧
    (∀ id, eventsFor id system.shared.delivered ++ system.inHand id ++
        (system.shared.bridge.stateOf id).queue = eventsFor id system.shared.pushed) ∧
    ∀ id, (system.inHand id).length ≤ system.shared.bridge.dispatching.toNat := by
  have kept := reached.kept
  refine ⟨?_, ?_, kept.account_eq, kept.length_inHand_le⟩
  · intro next key step grows
    have registered := (step.kept kept).registered
    have isTracked : key ∈ next.shared.bridge.tracked.map Prod.snd := by
      by_contra isOrphan
      rw [queue_eq_nil_of_isIdle (registered.isIdle key isOrphan)] at grows
      exact Nat.not_lt_zero _ grows
    obtain ⟨⟨id, _⟩, member, rfl⟩ := List.mem_map.mp isTracked
    exact ⟨id, registered.isNamed _ member, registered.sound.key?_of_mem member⟩
  · intro id first second isFirst isSecond firstIsLive secondIsLive
    rw [isLive_iff] at firstIsLive secondIsLive
    have found := kept.registered.key?_of_not_isIdle isFirst firstIsLive
    have alsoFound := kept.registered.key?_of_not_isIdle isSecond secondIsLive
    exact Option.some.inj (found.symm.trans alsoFound)

theorem isFree_nil : Stack.IsFree [] := by
  rintro activity ⟨⟩

/-- A link finds the state of a connection, and comes to change it only after a pass has
forgotten the connection, and it has begun anew. What it brings is dropped. -/
theorem late_report_is_dropped :
    ∃ system, Reached 64 system ∧ system.shared.names = [⟨"peer"⟩, ⟨"peer"⟩] ∧
      (∀ next key, Step system next →
        (system.shared.bridge.stateAt key).queue.length <
          (next.shared.bridge.stateAt key).queue.length →
        ∃ id, next.shared.names[key]? = some id ∧ next.shared.bridge.key? id = some key) ∧
      (∀ id first second, system.shared.names[first]? = some id →
        system.shared.names[second]? = some id →
        IsLive (system.shared.bridge.stateAt first) →
        IsLive (system.shared.bridge.stateAt second) → first = second) ∧
      (∀ id, eventsFor id system.shared.delivered ++ system.inHand id ++
          (system.shared.bridge.stateOf id).queue = eventsFor id system.shared.pushed) ∧
      ∀ id, (system.inHand id).length ≤ system.shared.bridge.dispatching.toNat := by
  have start : Reached 64 ⟨.new 64, [[], [], []]⟩ := ⟨3, .refl⟩
  have connected := start.step (.acts [] [[], []] (.connects ⟨"peer"⟩ isFree_nil))
  have found := connected.step (.acts [[]] [[]]
    (Act.finds isFree_nil (by rintro ⟨⟩) rfl : Act _ _ _ [.reporting ⟨"peer"⟩ 0 (.brings [7])]))
  have foundAgain := found.step (.acts [] [_, []]
    (Act.finds isFree_nil (by rintro ⟨⟩) rfl : Act _ _ _ [.reporting ⟨"peer"⟩ 0 .ends]))
  have ended := foundAgain.step (.acts [] [_, []] (.reports ⟨"peer"⟩ 0 .ends))
  have begun := ended.step (.acts [_, _] [] (.begins isFree_nil rfl))
  have collected := begun.step (.acts [_, _] [] (.collects List.mem_cons_self))
  have departed := collected.step (.acts [_, _] [] (.departs _))
  have turned := departed.step (.acts [_, _] [] (.turns ⟨"peer"⟩ 0 []))
  have taken := turned.step (.acts [_, _] [] (.takes rfl))
  have handed := taken.step (.acts [_, _] [] (.hands ..))
  have returned := handed.step (.acts [_, _] [] (.returns ..))
  have takenAgain := returned.step (.acts [_, _] [] (.takes rfl))
  have handedAgain := takenAgain.step (.acts [_, _] [] (.hands ..))
  have returnedAgain := handedAgain.step (.acts [_, _] [] (.returns ..))
  have drained := returnedAgain.step (.acts [_, _] [] (.runsOut (.inl rfl)))
  have forgotten := drained.step (.acts [_, _] [] (.leaves ⟨"peer"⟩ []))
  have anew := forgotten.step (.acts [] [_, _] (.connects ⟨"peer"⟩ isFree_nil))
  have late := anew.step (.acts [_] [_] (.reports ⟨"peer"⟩ 0 (.brings [7])))
  exact ⟨_, late, rfl, no_update_is_lost late⟩

end Bridge
end ScriptHost
