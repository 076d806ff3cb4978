import ScriptHost.Transport

/-!
# Networks

A network joins the transports of one machine. Servers listen on local endpoints, and a
client that finds one listening is joined to it by a link with two ends. What is sent at
one end of a link arrives at the other in order and at once. A network without routes
lets servers listen, but no client reaches anything.
-/

namespace ScriptHost

/-- The number of a transport. -/
abbrev TransportId := Nat

/-- What a transport is there for. A client knows the endpoint that it is connected to, a
server the one that it listens on. -/
inductive TransportRole
  | client (remote : Endpoint)
  | server (listening : Endpoint)
deriving DecidableEq

/-- A transport of a network. -/
structure Station where
  role : TransportRole
  transport : Transport
  isOpen : Bool

/-- One end of a link: the transport there, and the name under which it knows the other
end. -/
structure LinkEnd where
  station : TransportId
  peer : ConnectionId
deriving DecidableEq

/-- A link between the end that called and the end that listened. -/
structure Link where
  caller : LinkEnd
  listener : LinkEnd
  isOpen : Bool

/-- The transports and links of a machine. -/
structure Network where
  stations : Array Station
  links : Array Link
  nextPort : UInt16
  hasRoutes : Bool

namespace Network

/-- The port that is given out first to those that ask for any. -/
def firstPort : UInt16 := 40000

/-- A network without transports. -/
def new (hasRoutes : Bool) : Network :=
  ⟨#[], #[], firstPort, hasRoutes⟩

instance : Inhabited Network := ⟨new true⟩

/-! ## Endpoints -/

/-- The loopback address that calls come from. -/
def loopback (port : UInt16) : Endpoint :=
  .short ⟨127, 0, 0, 1⟩ port

/-- Whether a server may listen on the address of an endpoint. -/
def isLocal : Endpoint → Bool
  | .short address _ => address.first = 127 || address = ⟨0, 0, 0, 0⟩
  | .long _ _ _ => false

/-- Whether an endpoint stands for every local address. -/
def isWildcard : Endpoint → Bool
  | .short address _ => address = ⟨0, 0, 0, 0⟩
  | .long _ _ _ => false

/-- Whether two servers cannot listen on two endpoints at once. -/
def conflicts (left right : Endpoint) : Bool :=
  left.port = right.port
    && (isWildcard left || isWildcard right || left = right)

/-- Whether a server on the first endpoint answers calls to the second one. -/
def answers (listening called : Endpoint) : Bool :=
  conflicts listening called

/-- The endpoint that an open server listens on. -/
def Station.listening? (station : Station) : Option Endpoint :=
  match station.role with
  | .server endpoint => if station.isOpen then some endpoint else none
  | .client _ => none

/-- The open server that answers calls to an endpoint. -/
def server?
    (network : Network)
    (called : Endpoint) : Option TransportId :=
  network.stations.findIdx? fun station =>
    (Station.listening? station).any fun endpoint => answers endpoint called

/-- Give out a port. -/
def takePort (network : Network) : UInt16 × Network :=
  (network.nextPort, { network with nextPort := network.nextPort + 1 })

/-! ## Transports -/

/-- A transport of the network. -/
def station?
    (network : Network)
    (id : TransportId) : Option Station :=
  network.stations[id]?

/-- Change a transport. -/
def update
    (network : Network)
    (id : TransportId)
    (change : Transport → Transport) : Network :=
  { network with
    stations := network.stations.modify id fun station =>
      { station with transport := change station.transport } }

/-- Put a transport into the network. -/
def addStation
    (network : Network)
    (role : TransportRole)
    (config : TransportConfig) : TransportId × Network :=
  (network.stations.size,
    { network with stations := network.stations.push ⟨role, .new config, true⟩ })

/-- The bridge of a transport. -/
def bridge
    (network : Network)
    (id : TransportId) : Bridge :=
  match network.station? id with
  | some station => station.transport.bridge
  | none => .new 0

/-- Put a bridge in place of that of a transport. -/
def setBridge
    (network : Network)
    (id : TransportId)
    (bridge : Bridge) : Network :=
  network.update id fun transport => { transport with bridge := bridge }

/-! ## Links -/

/-- The other end of a link, seen from a transport. -/
def Link.farEnd
    (link : Link)
    (id : TransportId) : LinkEnd :=
  if link.caller.station = id then link.listener else link.caller

/-- End a link at one of its ends. -/
def endAt
    (network : Network)
    (linkEnd : LinkEnd) : Network :=
  network.update linkEnd.station fun transport => transport.endLink linkEnd.peer

/-- Close a link whose near end is gone: the far end reads the end and ends, too. -/
def hangUp
    (network : Network)
    (id : TransportId)
    (link : LinkId) : Network :=
  match network.links[link]? with
  | some found =>
      if found.isOpen then
        { network.endAt (Link.farEnd found id) with
          links := network.links.modify link fun link => { link with isOpen := false } }
      else network
  | none => network

/-- Join two transports by a link. The calling end opens first. -/
def join
    (network : Network)
    (caller listener : LinkEnd) : Network :=
  let link := network.links.size
  let network := { network with links := network.links.push ⟨caller, listener, true⟩ }
  let network := network.update caller.station fun transport =>
    transport.openLink caller.peer link
  network.update listener.station fun transport => transport.openLink listener.peer link

/-- Start a link. An end that cannot have its buffer is gone at once. -/
def establish
    (network : Network)
    (caller listener : LinkEnd) : Network :=
  let link := network.links.size
  let network := network.join caller listener
  let broken := fun id =>
    match network.station? id with
    | some station => !station.transport.canBuffer
    | none => false
  if broken caller.station then network.hangUp caller.station link
  else if broken listener.station then network.hangUp listener.station link
  else network

/-! ## Requests -/

/-- Start a server. The port zero stands for any. -/
def listen
    (network : Network)
    (config : TransportConfig) : Except TransportError (TransportId × Network) := do
  let endpoint ← config.endpointOf
  if !isLocal endpoint then throw (.bind endpoint .addressUnavailable)
  let (endpoint, network) :=
    if endpoint.port = 0 then
      let (port, network) := network.takePort
      (endpoint.withPort port, network)
    else (endpoint, network)
  if network.stations.any fun station =>
      (Station.listening? station).any fun other => conflicts other endpoint then
    throw (.bind endpoint .addressInUse)
  pure (network.addStation (.server endpoint) config)

/-- Start a client. -/
def connect
    (network : Network)
    (config : TransportConfig) : Except TransportError (TransportId × Network) := do
  let remote ← config.endpointOf
  if !network.hasRoutes then throw (.connect remote .networkUnreachable)
  match network.server? remote with
  | none => throw (.connect remote .connectionRefused)
  | some server =>
      let (port, network) := network.takePort
      let (client, network) := network.addStation (.client remote) config
      pure (client, network.establish ⟨client, remote.connectionId⟩
        ⟨server, (loopback port).connectionId⟩)

/-- Send a packet to a connection of a transport. The answer tells whether there is
one. -/
def send
    (network : Network)
    (id : TransportId)
    (peer : ConnectionId)
    (tag : UInt8)
    (body : Bytes) : Except TransportError (Bool × Network) := do
  match (network.station? id).bind fun station => station.transport.writer? peer with
  | none => pure (false, network)
  | some link =>
      match Frame.encode tag body with
      | .error source => throw (.frame source)
      | .ok frame =>
          match network.links[link]? with
          | some found =>
              if found.isOpen then
                let far := Link.farEnd found id
                pure (true, network.update far.station fun transport =>
                  transport.readAll far.peer frame)
              else pure (true, network)
          | none => pure (true, network)

/-- The connections of a transport that have a writer. -/
def peers
    (network : Network)
    (id : TransportId) : List ConnectionId :=
  match network.station? id with
  | some station => station.transport.writers.map Prod.fst
  | none => []

/-- Close a transport: it listens no longer, its links are gone, and its bridge hears
nothing more. -/
def dispose
    (network : Network)
    (id : TransportId) : Network :=
  match network.station? id with
  | none => network
  | some station =>
      let network :=
        { network with
          stations := network.stations.modify id fun station =>
            { station with isOpen := false, transport := station.transport.clearWriters } }
      station.transport.writers.foldl (fun network entry => network.hangUp id entry.2) network

/-- One dispatch pass of a transport whose sink only keeps what it receives. -/
def collect
    (network : Network)
    (id : TransportId) : List (ConnectionId × ConnectionEvent) × Network :=
  let access : Bridge.Access (StateM (List (ConnectionId × ConnectionEvent) × Network)) :=
    { bridge := do return (← get).2.bridge id
      setBridge := fun bridge =>
        modify fun (events, network) => (events, network.setBridge id bridge)
      arrange := pure
      sink := fun peer event => do
        modify fun (events, network) => (events ++ [(peer, event)], network)
        pure true }
  ((Bridge.dispatch access).run ([], network)).2

/-- Whether a client's link is established. -/
def isConnected
    (network : Network)
    (id : TransportId) : Bool :=
  match network.station? id with
  | some ⟨.client remote, transport, _⟩ => (transport.writer? remote.connectionId).isSome
  | _ => false

end Network
end ScriptHost
