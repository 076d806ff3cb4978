import ScriptHost.Natives.Tasks

/-!
# Connections

A script starts clients and servers, sends packets over them, and pumps the events of a
connection: each of them is told to the function that the script named for it, with the
context that the script gave. A server also tells which of its clients an event is about.
-/

namespace ScriptHost
namespace Natives

open Session

/-- What a script says of a connection. -/
structure ConnectionRequest where
  endpoint : String
  bufferSize? : Option Binary64
  noDelay? : Option Bool
  onConnect? : Option Function
  onDisconnect? : Option Function
  onReceived? : Option Function
  context : Value

/-- Read what a script says of a connection, one property after the other. -/
def ConnectionRequest.read (config : Value) : Except ConversionError ConnectionRequest := do
  let optional := fun {α : Type} (conversion : Conversion α) (name : String) =>
    Conversion.optional conversion (config.property name)
  let endpoint ← Conversion.string (config.property "endpoint")
  let bufferSize? ← optional Conversion.number "bufferSize"
  let noDelay? ← optional Conversion.bool "noDelay"
  let onConnect? ← optional Conversion.function "onConnect"
  let onDisconnect? ← optional Conversion.function "onDisconnect"
  let onReceived? ← optional Conversion.function "onReceived"
  pure ⟨endpoint, bufferSize?, noDelay?, onConnect?, onDisconnect?, onReceived?,
    config.property "context"⟩

/-- Give a connection to the script. -/
def holdConnection
    (transport : TransportId)
    (isServer : Bool)
    (request : ConnectionRequest) : SessionM Value := do
  let onConnect? ← askHost fun host => host.park? request.onConnect?
  let onDisconnect? ← askHost fun host => host.park? request.onDisconnect?
  let onReceived? ← askHost fun host => host.park? request.onReceived?
  let connection : Connection :=
    ⟨transport, isServer, onConnect?, onDisconnect?, onReceived?, request.context⟩
  return .ofHandle (← askHost fun host => host.holdConnection connection)

/-- Start a client or a server. The answer is null if it cannot start. -/
def startConnection
    (isServer : Bool)
    (config : Value) : SessionM Value := do
  let request ← converted (ConnectionRequest.read config)
  let settings := (← theHost).settings.network
  let bufferSize ← countOf "bufferSize" request.bufferSize? settings.defaultBufferSize
  let config : TransportConfig :=
    { endpoint := request.endpoint
      bufferSize := bufferSize
      noDelay := request.noDelay?.getD settings.noDelay
      maxFrameLength := settings.maxFrameLength.toNat }
  let network := (← theHost).network
  match if isServer then network.listen config else network.connect config with
  | .error _ => pure .null
  | .ok (transport, network) => do
      changeHost fun host => { host with network := network }
      holdConnection transport isServer request

/-- The kind of packet that a number names. -/
def packetTag? (number : Binary64) : Option UInt8 :=
  match number.toInt? with
  | some 0 => some (Payload.bytes []).tag
  | some 1 => some (Payload.text "").tag
  | _ => none

/-- To whom a connection sends: a client to its server, and a server to the client that
is named. -/
def receiver?
    (network : Network)
    (connection : Connection)
    (named? : Option String) : Option ConnectionId :=
  match (network.station? connection.transport).map Station.role, named? with
  | some (.client remote), none => some remote.connectionId
  | some (.server _), some name => some ⟨name⟩
  | _, _ => none

/-- Send a packet. The answer tells whether there is someone to send it to. -/
def sendPacket
    (handle : ScriptHandle)
    (named? : Option String)
    (tag : Binary64)
    (content : Value) : SessionM Value := do
  match packetTag? tag with
  | none => raise ("unknown payload tag " ++ tag.messageText)
  | some tag => do
      let body ← converted (Conversion.packet content)
      let host ← theHost
      match (host.connections.get? handle).bind fun connection =>
          (receiver? host.network connection named?).map fun id => (connection, id) with
      | none => pure (.bool false)
      | some (connection, id) =>
          match host.network.send connection.transport id tag body with
          | .error error => raise error.message
          | .ok (sent, network) => do
              changeHost fun host => { host with network := network }
              pure (.bool sent)

/-- Let go of a connection. The answer tells whether there was one. -/
def tcpDispose (handle : ScriptHandle) : SessionM Value := do
  let host ← theHost
  match host.connections.remove handle with
  | (none, _) => pure (.bool false)
  | (some connection, connections) => do
      changeHost fun host =>
        ({ host with connections := connections }.note handle .disposed).letGo connection
      pure (.bool true)

/-! ## Events -/

/-- The functions that hear of a connection's events, as they were when the pumping
began. -/
structure Listeners where
  onConnect? : Option Function
  onDisconnect? : Option Function
  onReceived? : Option Function

/-- The functions that a connection's handles stand for now. -/
def listenersOf
    (host : Host)
    (connection : Connection) : Listeners where
  onConnect? := host.parked? connection.onConnect?
  onDisconnect? := host.parked? connection.onDisconnect?
  onReceived? := host.parked? connection.onReceived?

/-- The function that hears of an event. -/
def Listeners.hearing?
    (listeners : Listeners) : ConnectionEvent → Option Function
  | .connected => listeners.onConnect?
  | .disconnected => listeners.onDisconnect?
  | .received _ => listeners.onReceived?

/-- What a function is told of an event. -/
def eventArguments
    (connection : Connection)
    (id : ConnectionId)
    (event : ConnectionEvent) : List Value :=
  let content :=
    match event with
    | .received payload => [Value.ofPayload payload]
    | _ => []
  connection.context
    :: (if connection.isServer then [Value.string id.text] else []) ++ content

/-- Tell an event to the function that hears of it. The answer tells whether nothing was
thrown. -/
def tell
    (invoke : Invoke)
    (handle : ScriptHandle)
    (connection : Connection)
    (listeners : Listeners)
    (id : ConnectionId)
    (event : ConnectionEvent) : SessionM Bool := do
  match listeners.hearing? event with
  | none => pure true
  | some function => do
      let answer ← callRecorded invoke (·.note handle (.tells function)) function
        (eventArguments connection id event)
      pure answer.isOk

/-- The words in which a script is told to end. -/
def exitMessage (code : Int32) : String :=
  "exit(" ++ toString code.toInt ++ ")"

/-- Deliver the events of a connection. The answer counts them. -/
def tcpPumpEvents
    (invoke : Invoke)
    (handle : ScriptHandle) : SessionM Value := do
  let host ← theHost
  match host.connections.get? handle with
  | none => raise ("unknown connection " ++ handle.display)
  | some connection => do
      let transport := connection.transport
      changeHost fun host => host.note handle .pumps
      let report ← Bridge.dispatch {
        bridge := do return (← theHost).network.bridge transport
        setBridge := fun bridge => changeHost fun host =>
          { host with network := host.network.setBridge transport bridge }
        arrange := pure
        sink := tell invoke handle connection (listenersOf host connection) }
      changeHost fun host => host.note handle .pumped
      match (← theHost).exitRequest? with
      | some code => do
          changeHost fun host => host.recallExit code
          raise (exitMessage code)
      | none => pure (.ofCount report.delivered)

/-- The endpoint that a server listens on, or null. -/
def tcpServerEndpoint (handle : ScriptHandle) : SessionM Value := do
  let host ← theHost
  match (host.connections.get? handle).bind fun connection =>
      (host.network.station? connection.transport).bind Network.Station.listening? with
  | some endpoint => pure (.string endpoint.format)
  | none => pure .null

open Parameters in
/-- The functions for connections. -/
def connections : List (String × Native) := [
  ("tcpClientStart", .plain 1 (next Conversion.object) (startConnection false)),
  ("tcpServerStart", .plain 1 (next Conversion.object) (startConnection true)),
  ("tcpClientSend", .plain 3
    (do return (← next Conversion.handle, ← next Conversion.number, ← next Conversion.any))
    fun (handle, tag, content) => sendPacket handle none tag content),
  ("tcpServerSend", .plain 4
    (do return (← next Conversion.handle, ← next Conversion.string, ← next Conversion.number,
      ← next Conversion.any))
    fun (handle, name, tag, content) => sendPacket handle (some name) tag content),
  ("tcpDispose", .plain 1 (next Conversion.handle) tcpDispose),
  ("tcpPumpEvents", .reading 1 (next Conversion.handle) tcpPumpEvents),
  ("tcpServerEndpoint", .plain 1 (next Conversion.handle) tcpServerEndpoint)]

end Natives
end ScriptHost
