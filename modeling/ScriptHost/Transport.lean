import ScriptHost.Bridge
import ScriptHost.Endpoint
import ScriptHost.SystemError

/-!
# Transports

A transport is a client with one link or a server with a link for each of its clients.
It knows a writer for every link that is established and reports what happens on its
links to its bridge.

A link opens in two steps, and it ends in two steps: the writer comes before the
report of the connection and goes before the report of its end. In between, the link
reads what arrives in pieces no longer than its buffer.
-/

namespace ScriptHost

/-- The name of the connection to an endpoint. -/
def Endpoint.connectionId (endpoint : Endpoint) : ConnectionId :=
  ⟨endpoint.format⟩

/-- How a transport is started. -/
structure TransportConfig where
  endpoint : String
  bufferSize : Nat
  noDelay : Bool
  maxFrameLength : Nat
deriving DecidableEq, Repr

namespace TransportConfig

/-- The number of bytes that a link reads at once unless it is told otherwise. -/
def defaultBufferSize : Nat := 64 * 1024

/-- The configuration of an endpoint that says nothing else. -/
def ofEndpoint (endpoint : String) : TransportConfig :=
  ⟨endpoint, defaultBufferSize, false, Frame.defaultLimit⟩

end TransportConfig

/-- Why a transport cannot start or send. -/
inductive TransportError
  | invalidEndpoint (text : String)
  | connect (endpoint : Endpoint) (source : SystemError)
  | bind (endpoint : Endpoint) (source : SystemError)
  | frame (source : Frame.EncodeError)

namespace TransportError

/-- The words in which a transport reports a failure. -/
def message : TransportError → String
  | invalidEndpoint text => "invalid endpoint '" ++ text ++ "', expected ip:port"
  | connect endpoint source =>
      "failed to connect to " ++ endpoint.format ++ ": " ++ source.message
  | bind endpoint source =>
      "failed to listen on " ++ endpoint.format ++ ": " ++ source.message
  | frame source => source.message

end TransportError

namespace TransportConfig

/-- The endpoint that a configuration names. -/
def endpointOf (config : TransportConfig) : Except TransportError Endpoint :=
  match Endpoint.ofText? config.endpoint with
  | some endpoint => .ok endpoint
  | none => .error (.invalidEndpoint config.endpoint)

end TransportConfig

/-- The number of a link. -/
abbrev LinkId := Nat

/-- The writers and the bridge of a transport. -/
structure Transport where
  writers : List (ConnectionId × LinkId)
  bridge : Bridge
  bufferSize : Nat

namespace Transport

/-- The number of bytes that no buffer exceeds. -/
def largestBuffer : Nat := UInt64.size / 2 - 1

/-- A transport without links. A buffer holds at least one byte. -/
def new (config : TransportConfig) : Transport where
  writers := []
  bridge := .new config.maxFrameLength
  bufferSize := max config.bufferSize 1

/-- The link that writes to a connection. -/
def writer?
    (transport : Transport)
    (id : ConnectionId) : Option LinkId :=
  transport.writers.lookup id

/-- Forget the writer of a connection. -/
def removeWriter
    (transport : Transport)
    (id : ConnectionId) : Transport :=
  { transport with writers := transport.writers.filter fun entry => entry.1 != id }

/-- Make a link the writer of a connection, in place of the one before. -/
def insertWriter
    (transport : Transport)
    (id : ConnectionId)
    (link : LinkId) : Transport :=
  { transport with writers := (transport.removeWriter id).writers ++ [(id, link)] }

/-- Report to the bridge that a connection has begun. -/
def reportConnected
    (transport : Transport)
    (id : ConnectionId) : Transport :=
  { transport with bridge := transport.bridge.onConnected id }

/-- Report to the bridge that a connection is over. -/
def reportDisconnected
    (transport : Transport)
    (id : ConnectionId) : Transport :=
  { transport with bridge := transport.bridge.onDisconnected id }

/-- Open a link: its writer first, then the report. -/
def openLink
    (transport : Transport)
    (id : ConnectionId)
    (link : LinkId) : Transport :=
  (transport.insertWriter id link).reportConnected id

/-- End a link: its writer first, then the report. -/
def endLink
    (transport : Transport)
    (id : ConnectionId) : Transport :=
  (transport.removeWriter id).reportDisconnected id

/-- Bytes cut into pieces of up to `size + 1` bytes. -/
def pieces (size : Nat) (bytes : Bytes) : List Bytes :=
  match bytes with
  | [] => []
  | byte :: rest => (byte :: rest.take size) :: pieces size (rest.drop size)
  termination_by bytes.length
  decreasing_by simp only [List.length_cons, List.length_drop]; omega

/-- A link reads one piece. -/
def read
    (transport : Transport)
    (id : ConnectionId)
    (piece : Bytes) : Transport :=
  { transport with bridge := transport.bridge.onBytesReceived id piece }

/-- A link reads everything that has arrived. -/
def readAll
    (transport : Transport)
    (id : ConnectionId)
    (bytes : Bytes) : Transport :=
  (pieces (transport.bufferSize - 1) bytes).foldl (fun transport piece => transport.read id piece)
    transport

/-- Drop every writer. -/
def clearWriters (transport : Transport) : Transport :=
  { transport with writers := [] }

/-- Whether a link of this transport can have its buffer. -/
def canBuffer (transport : Transport) : Bool :=
  transport.bufferSize ≤ largestBuffer

end Transport
end ScriptHost
