import ScriptHost.Frame

/-!
# Event bridge

A bridge turns what links report about connections into events that a sink
receives later, in dispatch passes. Every connection has a queue of its own and a
decoder that puts split packets together. A pass visits each connection tracked
when it began and delivers the events queued when its turn starts; what a sink
causes during the turn waits for the next pass. A connection that is over and has
no event left is forgotten.

Sinks may report to the bridge while they are called. The state of a connection is
therefore kept under a key of its own: a pass holds on to the states that it found,
also when the bridge no longer tracks them.
-/

namespace ScriptHost

/-- The name under which a connection is known. -/
structure ConnectionId where
  text : String
  deriving DecidableEq

/-- Something that happened to a connection. -/
inductive ConnectionEvent
  | connected
  | received (payload : Payload)
  | disconnected
  deriving DecidableEq

/-- What is known of a connection. -/
structure ConnectionState where
  decoder : FrameDecoder
  queue : List ConnectionEvent
  connected : Bool
  deriving DecidableEq

namespace ConnectionState

/-- A connection of which nothing is known. -/
def fresh (limit : Nat) : ConnectionState :=
  ⟨.new limit, [], false⟩

/-- A connection that is over, with nothing left to deliver. -/
def isIdle (state : ConnectionState) : Bool :=
  !state.connected && state.queue.isEmpty

/-- Begin a connection; a connection that has begun stays as it is. -/
def connect (state : ConnectionState) : ConnectionState :=
  if state.connected then state
  else { state with connected := true, queue := state.queue ++ [.connected] }

/-- End a connection and drop the bytes of its incomplete packet. -/
def disconnect (state : ConnectionState) : ConnectionState :=
  let state := { state with decoder := state.decoder.clear }
  if state.connected then
    { state with connected := false, queue := state.queue ++ [.disconnected] }
  else state

/-- Add received bytes; those that come outside a connection are dropped. -/
def receive
    (state : ConnectionState)
    (chunk : Bytes) : ConnectionState :=
  if state.connected then
    let (payloads, decoder) := state.decoder.push chunk
    { state with decoder := decoder, queue := state.queue ++ payloads.map .received }
  else state

end ConnectionState

/-- The key of a connection state. -/
abbrev StateKey := Nat

/-- A bridge: the states ever made, which of them are tracked under which name, and
whether a pass is running. -/
structure Bridge where
  limit : Nat
  states : Array ConnectionState
  tracked : List (ConnectionId × StateKey)
  dispatching : Bool

namespace Bridge

/-- A bridge that tracks nothing. -/
def new (limit : Nat) : Bridge :=
  ⟨limit, #[], [], false⟩

/-- The state under a key. -/
def stateAt
    (bridge : Bridge)
    (key : StateKey) : ConnectionState :=
  bridge.states[key]?.getD (.fresh bridge.limit)

/-- Change the state under a key. -/
def updateAt
    (bridge : Bridge)
    (key : StateKey)
    (change : ConnectionState → ConnectionState) : Bridge :=
  { bridge with states := bridge.states.modify key change }

/-- The key of the state tracked under a name. -/
def key?
    (bridge : Bridge)
    (id : ConnectionId) : Option StateKey :=
  bridge.tracked.lookup id

/-- The state tracked under a name. -/
def state?
    (bridge : Bridge)
    (id : ConnectionId) : Option ConnectionState :=
  (bridge.key? id).map bridge.stateAt

/-- Change the state tracked under a name; an unknown name changes nothing. -/
def update
    (bridge : Bridge)
    (id : ConnectionId)
    (change : ConnectionState → ConnectionState) : Bridge :=
  match bridge.key? id with
  | some key => bridge.updateAt key change
  | none => bridge

/-- Track a name that is not tracked yet. -/
def track
    (bridge : Bridge)
    (id : ConnectionId) : Bridge :=
  match bridge.key? id with
  | some _ => bridge
  | none =>
      { bridge with
        states := bridge.states.push (.fresh bridge.limit)
        tracked := bridge.tracked ++ [(id, bridge.states.size)] }

/-- A link reports that a connection has begun. -/
def onConnected
    (bridge : Bridge)
    (id : ConnectionId) : Bridge :=
  (bridge.track id).update id .connect

/-- A link reports that a connection is over. -/
def onDisconnected
    (bridge : Bridge)
    (id : ConnectionId) : Bridge :=
  bridge.update id .disconnect

/-- A link reports bytes. -/
def onBytesReceived
    (bridge : Bridge)
    (id : ConnectionId)
    (chunk : Bytes) : Bridge :=
  bridge.update id fun state => state.receive chunk

/-- A connection has begun and is not over. -/
def isConnected
    (bridge : Bridge)
    (id : ConnectionId) : Bool :=
  (bridge.state? id).any ConnectionState.connected

/-- The names of the connections that have begun and are not over. -/
def connectedIds (bridge : Bridge) : List ConnectionId :=
  (bridge.tracked.filter fun entry => (bridge.stateAt entry.2).connected).map Prod.fst

/-- The number of queued events. -/
def pendingEvents (bridge : Bridge) : Nat :=
  (bridge.tracked.flatMap fun entry => (bridge.stateAt entry.2).queue).length

/-- The number of tracked connections. -/
def trackedConnections (bridge : Bridge) : Nat :=
  bridge.tracked.length

/-- Track nothing any more. -/
def clear (bridge : Bridge) : Bridge :=
  { bridge with tracked := [] }

/-- Forget a connection that is over and has nothing left to deliver. -/
def retireIfIdle
    (bridge : Bridge)
    (id : ConnectionId) : Bridge :=
  if (bridge.state? id).any ConnectionState.isIdle then
    { bridge with tracked := bridge.tracked.filter fun entry => entry.1 != id }
  else bridge

/-- Take the oldest event of a state. -/
def popAt
    (bridge : Bridge)
    (key : StateKey) : Option (ConnectionEvent × Bridge) :=
  match (bridge.stateAt key).queue with
  | [] => none
  | event :: queue =>
      some (event, bridge.updateAt key fun state => { state with queue := queue })

/-- The counts of a pass: how often the sink was called, and how often it failed. -/
structure PassReport where
  delivered : Nat
  failures : Nat
  deriving DecidableEq

namespace PassReport

/-- The counts of a pass that has called no sink. -/
def zero : PassReport :=
  ⟨0, 0⟩

/-- Count a sink call. -/
def record
    (report : PassReport)
    (succeeded : Bool) : PassReport :=
  ⟨report.delivered + 1, if succeeded then report.failures else report.failures + 1⟩

end PassReport

section Dispatch

variable {m : Type → Type} [Monad m]

/-- How a pass reaches the bridge that it works on, in which order it visits the states
that it found there, and whom it calls. A sink says whether it succeeded. -/
structure Access (m : Type → Type) where
  bridge : m Bridge
  setBridge : Bridge → m Unit
  arrange : List (ConnectionId × StateKey) → m (List (ConnectionId × StateKey))
  sink : ConnectionId → ConnectionEvent → m Bool

/-- Deliver up to `budget` events of one state. -/
def turn
    (access : Access m)
    (id : ConnectionId)
    (key : StateKey) : Nat → PassReport → m PassReport
  | 0, report => pure report
  | budget + 1, report => do
      match (← access.bridge).popAt key with
      | none => pure report
      | some (event, bridge) => do
          access.setBridge bridge
          let succeeded ← access.sink id event
          turn access id key budget (report.record succeeded)

/-- Visit states one after the other. The events queued when a turn starts are its
budget. -/
def visit (access : Access m) :
    List (ConnectionId × StateKey) → PassReport → m PassReport
  | [], report => pure report
  | (id, key) :: rest, report => do
      let budget := ((← access.bridge).stateAt key).queue.length
      let report ← turn access id key budget report
      access.setBridge ((← access.bridge).retireIfIdle id)
      visit access rest report

/-- One dispatch pass over the states that are tracked now. A pass within a pass
does nothing. -/
def dispatch (access : Access m) : m PassReport := do
  let bridge ← access.bridge
  if bridge.dispatching then pure .zero
  else do
    access.setBridge { bridge with dispatching := true }
    let order ← access.arrange bridge.tracked
    let report ← visit access order .zero
    access.setBridge { ← access.bridge with dispatching := false }
    pure report

end Dispatch

@[simp] theorem trackedConnections_clear (bridge : Bridge) :
    bridge.clear.trackedConnections = 0 := rfl

@[simp] theorem pendingEvents_clear (bridge : Bridge) :
    bridge.clear.pendingEvents = 0 := rfl

end Bridge
end ScriptHost
