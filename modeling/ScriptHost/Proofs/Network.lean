import ScriptHost.Network
import ScriptHost.Proofs.Transport

/-!
# Sending over a network

A network reads at once what is sent over it. So a packet that is sent takes its link from one
state in which all is read to another: the frame is queued, written as a whole, and read in
pieces of the size of the buffer.
-/

namespace ScriptHost

namespace Transport

/-- The pieces of a byte sequence make it up. -/
theorem flatten_pieces
    (size : Nat)
    (bytes : Bytes) :
    (pieces size bytes).flatten = bytes := by
  induction bytes using pieces.induct size with
  | case1 => rw [pieces, List.flatten_nil]
  | case2 byte rest inductionHypothesis =>
      rw [pieces, List.flatten_cons, inductionHypothesis, List.cons_append, List.take_append_drop]

/-- No piece is empty, and each fits the buffer. -/
theorem length_of_mem_pieces
    {size : Nat}
    {bytes piece : Bytes}
    (isPiece : piece ∈ pieces size bytes) :
    piece ≠ [] ∧ piece.length ≤ size + 1 := by
  induction bytes using pieces.induct size with
  | case1 =>
      rw [pieces] at isPiece
      cases isPiece
  | case2 byte rest inductionHypothesis =>
      rw [pieces, List.mem_cons] at isPiece
      rcases isPiece with rfl | isLater
      · exact ⟨List.cons_ne_nil _ _, Nat.succ_le_succ (List.length_take_le ..)⟩
      · exact inductionHypothesis isLater

/-- What a link reads, the bridge hears. -/
theorem readAll_eq
    (transport : Transport)
    (id : ConnectionId)
    (bytes : Bytes) :
    transport.readAll id bytes =
      { transport with
        bridge := (pieces (transport.bufferSize - 1) bytes).foldl
          (fun bridge piece => bridge.onBytesReceived id piece) transport.bridge } := by
  rw [readAll]
  generalize pieces (transport.bufferSize - 1) bytes = read
  induction read generalizing transport with
  | nil => rfl
  | cons piece read inductionHypothesis => exact inductionHypothesis (transport.read id piece)

/-- All that is written may be read. -/
theorem Line.Reached.readAll
    {bufferSize : Nat}
    {line : Line}
    (reached : line.Reached bufferSize)
    (pieces : List Bytes)
    (rest : Bytes)
    (isReading : line.phase = .reading)
    (isWire : line.wire = pieces.flatten ++ rest)
    (fit : ∀ piece ∈ pieces, piece ≠ [] ∧ piece.length ≤ bufferSize) :
    Line.Reached bufferSize
      { line with
        wire := rest
        taken := line.taken ++ pieces.flatten
        reports := line.reports ++ pieces.map .brings } := by
  induction pieces generalizing line with
  | nil =>
      rw [List.flatten_nil, List.nil_append] at isWire
      rw [← isWire, List.flatten_nil, List.map_nil, List.append_nil, List.append_nil]
      exact reached
  | cons piece pieces inductionHypothesis =>
      rw [List.forall_mem_cons] at fit
      rw [List.flatten_cons, List.append_assoc] at isWire
      have read := reached.tail (.reads isReading isWire fit.1.1 fit.1.2)
      have readOn := inductionHypothesis read isReading rfl fit.2
      simpa only [List.flatten_cons, List.map_cons, List.append_assoc, List.singleton_append]
        using readOn

end Transport

namespace Network

open Transport (Line)

/-- What is sent over an open link is read at its other end. -/
theorem send_eq
    {network next : Network}
    {id : TransportId}
    {peer : ConnectionId}
    {tag : UInt8}
    {body : Bytes}
    {station : Station}
    {link : LinkId}
    {found : Link}
    (isSent : network.send id peer tag body = .ok (true, next))
    (isStation : network.station? id = some station)
    (hasWriter : station.transport.writer? peer = some link)
    (isLink : network.links[link]? = some found)
    (isOpen : found.isOpen = true) :
    ∃ frame, Frame.encode tag body = .ok frame ∧
      next = network.update (Link.farEnd found id).station fun transport =>
        transport.readAll (Link.farEnd found id).peer frame := by
  unfold send at isSent
  rw [isStation, Option.bind_some, hasWriter] at isSent
  cases isFrame : Frame.encode tag body with
  | error source => simp [isFrame, throw, throwThe, MonadExceptOf.throw] at isSent
  | ok frame =>
      simp only [isFrame, isLink, isOpen, if_true, pure, Except.pure, Except.ok.injEq,
        Prod.mk.injEq, true_and] at isSent
      exact ⟨frame, rfl, isSent.symm⟩

/-- An open link, seen from one of its ends, all of whose bytes were read at the other. -/
structure Connects
    (network : Network)
    (id : TransportId)
    (peer : ConnectionId)
    (far : LinkEnd)
    (line : Line) : Prop where
  hasLink : ∃ station link found, network.station? id = some station ∧
    station.transport.writer? peer = some link ∧ network.links[link]? = some found ∧
    found.isOpen = true ∧ Link.farEnd found id = far
  isReached : ∃ station, network.station? far.station = some station ∧
    0 < station.transport.bufferSize ∧ line.Reached station.transport.bufferSize
  isReading : line.phase = .reading
  isWritten : line.outgoing = []
  isRead : line.wire = []

theorem station?_update
    (network : Network)
    (id other : TransportId)
    (change : Transport → Transport) :
    (network.update id change).station? other =
      (network.station? other).map fun station =>
        if id = other then { station with transport := change station.transport }
        else station := by
  rw [station?, update, Array.getElem?_modify, station?]
  by_cases same : id = other
  · rw [if_pos same]
    simp [same]
  · rw [if_neg same]
    simp [same]

/-- Sending takes a link from one state in which all is read to another. -/
theorem Connects.send
    {network next : Network}
    {id : TransportId}
    {peer : ConnectionId}
    {far : LinkEnd}
    {line : Line}
    (connects : network.Connects id peer far line)
    {tag : UInt8}
    {body : Bytes}
    (isSent : network.send id peer tag body = .ok (true, next)) :
    ∃ (more : Line) (pieces : List Bytes), next.Connects id peer far more ∧
      more.sent = line.sent ++ [(tag, body)] ∧
      more.reports = line.reports ++ pieces.map .brings ∧
      next.bridge far.station = pieces.foldl
        (fun bridge piece => bridge.onBytesReceived far.peer piece)
        (network.bridge far.station) := by
  obtain ⟨station, link, found, isStation, hasWriter, isLink, isOpen, rfl⟩ := connects.hasLink
  obtain ⟨farStation, isFar, hasBuffer, reached⟩ := connects.isReached
  obtain ⟨frame, isFrame, rfl⟩ := send_eq isSent isStation hasWriter isLink isOpen
  have accepts : station.transport.Accepts peer tag body frame := ⟨by rw [hasWriter]; rfl, isFrame⟩
  have sent : Line.Reached farStation.transport.bufferSize
      { line with sent := line.sent ++ [(tag, body)], wire := frame } := by
    have written := (reached.tail (.sends accepts)).tail (.writes frame.length)
    simpa [Line.Reached, connects.isWritten, connects.isRead] using written
  have isRead := sent.readAll (Transport.pieces (farStation.transport.bufferSize - 1) frame) []
    connects.isReading (by rw [Transport.flatten_pieces, List.append_nil]) (by
      intro piece isPiece
      have fits := Transport.length_of_mem_pieces isPiece
      rwa [Nat.sub_add_cancel hasBuffer] at fits)
  have isFarAfter := station?_update network (Link.farEnd found id).station
    (Link.farEnd found id).station fun transport =>
      transport.readAll (Link.farEnd found id).peer frame
  rw [isFar, Option.map_some, if_pos rfl, Transport.readAll_eq] at isFarAfter
  refine ⟨_, _, ⟨?_, ⟨_, isFarAfter, hasBuffer, isRead⟩, connects.isReading, connects.isWritten,
    rfl⟩, rfl, rfl, ?_⟩
  · have isStationAfter := station?_update network (Link.farEnd found id).station id
      fun transport => transport.readAll (Link.farEnd found id).peer frame
    rw [isStation, Option.map_some] at isStationAfter
    refine ⟨_, link, found, isStationAfter, ?_, isLink, isOpen, rfl⟩
    by_cases same : (Link.farEnd found id).station = id
    · rw [if_pos same, Transport.readAll_eq]
      exact hasWriter
    · rw [if_neg same]
      exact hasWriter
  · rw [bridge, isFarAfter, bridge, isFar]

end Network
end ScriptHost
