import ScriptHost.Network
import ScriptHost.Proofs.Endpoint.Written

/-!
# Names of connections

A client knows the other end of its link by the text of the endpoint that it has connected to.
This name does not depend on how the endpoint was spelled, it tells the endpoint from every
other one, and it is a spelling of the endpoint itself.
-/

namespace ScriptHost

namespace Network

theorem endpointOf_eq_ok
    {config : TransportConfig}
    {endpoint : Endpoint}
    (isRead : Endpoint.ofText? config.endpoint = some endpoint) :
    config.endpointOf = .ok endpoint := by
  unfold TransportConfig.endpointOf
  rw [isRead]

theorem links_update
    (network : Network)
    (id : TransportId)
    (change : Transport → Transport) :
    (network.update id change).links = network.links := rfl

/-- Hanging up leaves the ends of every link what they are. -/
theorem caller_hangUp
    (network : Network)
    (id : TransportId)
    (link index : LinkId) :
    ((network.hangUp id link).links[index]?).map Link.caller =
      (network.links[index]?).map Link.caller := by
  unfold hangUp
  split
  next =>
    split_ifs
    · rw [Array.getElem?_modify]
      split_ifs
      · cases network.links[index]? <;> rfl
      · rfl
    · rfl
  next => rfl

/-- A link that is started joins the end that calls, even if an end is gone at once. -/
theorem caller_establish
    (network : Network)
    (caller listener : LinkEnd) :
    ((network.establish caller listener).links[network.links.size]?).map Link.caller =
      some caller := by
  have isJoined : ((network.join caller listener).links[network.links.size]?).map Link.caller =
      some caller := by
    simp [join, links_update]
  unfold establish
  simp only
  split_ifs
  · rw [caller_hangUp, isJoined]
  · rw [caller_hangUp, isJoined]
  · exact isJoined

/-- A client that connects knows the other end of its new link by the name of the endpoint. -/
theorem caller_of_connect
    {network next : Network}
    {config : TransportConfig}
    {endpoint : Endpoint}
    {client : TransportId}
    (isEndpoint : config.endpointOf = .ok endpoint)
    (connects : network.connect config = .ok (client, next)) :
    (next.links[network.links.size]?).map Link.caller =
      some ⟨client, endpoint.connectionId⟩ := by
  rw [connect, isEndpoint] at connects
  simp only [bind, Except.bind, pure, Except.pure, throw, throwThe,
    MonadExceptOf.throw] at connects
  split_ifs at connects
  split at connects
  next => cases connects
  next server _ =>
    cases connects
    exact caller_establish (network.takePort.2.addStation (.client endpoint) config).2 _ _

theorem connect_of_server
    {network : Network}
    {config : TransportConfig}
    {endpoint : Endpoint}
    {server : TransportId}
    (isEndpoint : config.endpointOf = .ok endpoint)
    (hasRoutes : network.hasRoutes = true)
    (isServed : network.server? endpoint = some server) :
    ∃ client next, network.connect config = .ok (client, next) := by
  simp [connect, isEndpoint, hasRoutes, isServed, bind, Except.bind, pure, Except.pure]

/-- The name of a connection is read back as its endpoint, no other endpoint has the same name,
and a client has this name for the other end however the endpoint was spelled. -/
theorem connectionId_names_endpoint (endpoint : Endpoint) :
    (∀ config : TransportConfig, config.endpoint = endpoint.connectionId.text →
      config.endpointOf = .ok endpoint) ∧
    (∀ other : Endpoint, other.connectionId = endpoint.connectionId ↔ other = endpoint) ∧
    (∀ config : TransportConfig, endpoint.Spells config.endpoint.toList →
      config.endpointOf = .ok endpoint) ∧
    ∀ (network next : Network) (config : TransportConfig) (client : TransportId),
      config.endpointOf = .ok endpoint →
      network.connect config = .ok (client, next) →
      (next.links[network.links.size]?).map Link.caller =
        some ⟨client, endpoint.connectionId⟩ := by
  refine ⟨fun config isName => ?_, fun other => ⟨fun sameName => ?_, congrArg _⟩,
    fun config spells => ?_, fun _ _ _ _ => caller_of_connect⟩
  · refine endpointOf_eq_ok ?_
    rw [isName, Endpoint.connectionId, endpoint.ofText?_format]
  · have sameFormat : other.format = endpoint.format := congrArg ConnectionId.text sameName
    have areRead := other.ofText?_format
    rw [sameFormat, endpoint.ofText?_format] at areRead
    exact (Option.some.inj areRead).symm
  · exact endpointOf_eq_ok spells.ofChars?_eq

/-- A network in which a server listens on port 80. -/
def served : Network where
  stations := #[⟨.server (loopback 80), .new (.ofEndpoint "127.0.0.1:80"), true⟩]
  links := #[]
  nextPort := firstPort
  hasRoutes := true

open Endpoint in
/-- Zeros in front, capital digits and a client that calls a server. -/
theorem connectionId_of_otherSpellings :
    (∃ address, TransportConfig.endpointOf (.ofEndpoint "[::AB%07]:080") =
        .ok (.long address 7 80) ∧
      (Endpoint.long address 7 80).connectionId = ⟨"[::ab%7]:80"⟩) ∧
    ∃ client next, served.connect (.ofEndpoint "127.0.0.1:080") = .ok (client, next) ∧
      (next.links[0]?).map Link.caller = some ⟨client, ⟨"127.0.0.1:80"⟩⟩ := by
  have spellsPort : portForm.Spells (80 : UInt16).toNat ['0', '8', '0'] :=
    ⟨[0, 8, 0], rfl, rfl, rfl⟩
  constructor
  · have spellsGroup : groupForm.Spells (0xab : UInt16).toNat ['A', 'B'] :=
      ⟨[10, 11], rfl, rfl, rfl⟩
    have spellsScope : scopeForm.Spells (7 : UInt32).toNat ['0', '7'] := ⟨[0, 7], rfl, rfl, rfl⟩
    have isElided : SpellsLong ⟨[0, 0, 0, 0, 0, 0, 0, 0xab], rfl⟩ [':', ':', 'A', 'B'] :=
      .elided 7 rfl (by decide) (.inl ⟨rfl, rfl⟩) (.inr (.last spellsGroup))
    obtain ⟨-, -, isRead, -⟩ :=
      connectionId_names_endpoint (.long ⟨[0, 0, 0, 0, 0, 0, 0, 0xab], rfl⟩ 7 80)
    exact ⟨_, isRead _ (.long isElided (.some spellsScope) spellsPort), by decide⟩
  · obtain ⟨-, -, isRead, isPeer⟩ := connectionId_names_endpoint (loopback 80)
    have isEndpoint := isRead (.ofEndpoint "127.0.0.1:080") (.short ⟨127, 0, 0, 1⟩ spellsPort)
    have isServed : served.server? (loopback 80) = some 0 := by
      simp [served, server?, Station.listening?, answers, conflicts]
    obtain ⟨client, next, connects⟩ := connect_of_server isEndpoint rfl isServed
    exact ⟨client, next, connects, isPeer _ _ _ _ isEndpoint connects⟩

end Network
end ScriptHost
