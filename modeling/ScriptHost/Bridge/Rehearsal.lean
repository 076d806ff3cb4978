import ScriptHost.Bridge

/-!
# Rehearsed bridge calls

A rehearsal makes calls on a bridge one after the other. The sink of a dispatch is
given as data: for each connection and each event of the pass, the calls that the
sink makes itself and whether it fails then.
-/

namespace ScriptHost
namespace Bridge
namespace Rehearsal

mutual

/-- A call on a bridge. -/
inductive Call
  | connect (id : ConnectionId)
  | disconnect (id : ConnectionId)
  | receive (id : ConnectionId) (chunk : Bytes)
  | clear
  | isConnected (id : ConnectionId)
  | connectedIds
  | counts
  | dispatch (sink : List Cue)

/-- What a sink does at an event: the connection and the position of the event in
the pass, the calls, and the failure that follows them. Without calls of its own the
event stands alone. -/
inductive Cue
  | mk (id : ConnectionId) (position : Nat) (calls? : Option (List Call)) (fails : Bool)

end

instance : Inhabited Call := ⟨.clear⟩

mutual

/-- The answer of a call. -/
inductive Answer
  | done
  | flag (value : Bool)
  | ids (value : List ConnectionId)
  | counts (pending tracked : Nat)
  | pass (deliveries : List Delivery) (report : PassReport)

/-- An event as the sink received it, with the answers of the calls it made. -/
inductive Delivery
  | mk (id : ConnectionId) (event : ConnectionEvent) (answers? : Option (List Answer))

end

instance : Inhabited Answer := ⟨.done⟩

/-- The connection of a delivery. -/
def Delivery.id : Delivery → ConnectionId
  | .mk id _ _ => id

/-- The cue for an event of a pass. -/
def cue?
    (sink : List Cue)
    (id : ConnectionId)
    (position : Nat) : Option (Option (List Call) × Bool) :=
  sink.findSome? fun
    | .mk cueId cuePosition calls? fails =>
        if cueId = id ∧ cuePosition = position then some (calls?, fails) else none

/-- Ids in the order of their UTF-8 bytes. -/
def sortIds (ids : List ConnectionId) : List ConnectionId :=
  ids.mergeSort fun left right => left.text ≤ right.text

/-- A bridge and what was delivered in the pass that is running. -/
structure Stage where
  bridge : Bridge
  deliveries : List Delivery

/-- A step of a rehearsal. -/
abbrev StageM := StateM Stage

/-- Change the bridge. -/
def change (step : Bridge → Bridge) : StageM Answer := do
  modify fun stage => { stage with bridge := step stage.bridge }
  pure .done

/-- Append to the deliveries of the running pass. -/
def record (delivery : Delivery) : StageM Unit :=
  modify fun stage => { stage with deliveries := stage.deliveries ++ [delivery] }

/-- What a sink does at an event, given how it makes calls. The answer tells whether
it succeeds. -/
def react
    (make : Call → StageM Answer)
    (sink : List Cue)
    (id : ConnectionId)
    (event : ConnectionEvent) : StageM Bool := do
  let position := ((← get).deliveries.filter fun delivery => delivery.id = id).length
  match cue? sink id position with
  | none => do
      record (.mk id event none)
      pure true
  | some (none, fails) => do
      record (.mk id event none)
      pure !fails
  | some (some calls, fails) => do
      let answers ← calls.mapM make
      record (.mk id event (some answers))
      pure !fails

/-- Make one call. `depth` bounds how deep sinks that are called may dispatch again. -/
def call : Nat → Call → StageM Answer
  | _, .connect id => change fun bridge => bridge.onConnected id
  | _, .disconnect id => change fun bridge => bridge.onDisconnected id
  | _, .receive id chunk => change fun bridge => bridge.onBytesReceived id chunk
  | _, .clear => change Bridge.clear
  | _, .isConnected id => do return .flag ((← get).bridge.isConnected id)
  | _, .connectedIds => do return .ids (sortIds (← get).bridge.connectedIds)
  | _, .counts => do
      let bridge := (← get).bridge
      return .counts bridge.pendingEvents bridge.trackedConnections
  | 0, .dispatch _ => pure (.pass [] .zero)
  | depth + 1, .dispatch sink => do
      let outer := (← get).deliveries
      modify fun stage => { stage with deliveries := [] }
      let report ← Bridge.dispatch {
        bridge := do return (← get).bridge
        setBridge := fun bridge => modify fun stage => { stage with bridge := bridge }
        arrange := pure
        sink := react (call depth) sink }
      let deliveries := (← get).deliveries
      modify fun stage => { stage with deliveries := outer }
      return .pass deliveries report

/-- Make one call from outside every pass. A pass within a pass calls no sink, so one
level of depth is enough. -/
def callOutside (request : Call) : StageM (Answer × Nat × Nat) := do
  let answer ← call 1 request
  let bridge := (← get).bridge
  pure (answer, bridge.pendingEvents, bridge.trackedConnections)

/-- Make calls on a new bridge. Each answer comes with the number of queued events and
of tracked connections after the call. -/
def perform
    (limit : Nat)
    (calls : List Call) : List (Answer × Nat × Nat) :=
  ((calls.mapM callOutside).run ⟨.new limit, []⟩).1

end Rehearsal
end Bridge
end ScriptHost
