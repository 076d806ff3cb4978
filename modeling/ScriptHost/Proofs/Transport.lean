import Mathlib.Logic.Relation
import ScriptHost.Transport
import ScriptHost.Proofs.Bridge.Queues
import ScriptHost.Proofs.Frame.Streams

/-!
# Links carry packets

What is sent at one end of a link is framed and queued, written to the wire bit by bit, and
read at the other end in pieces that have nothing to do with the frames. The other end
reports to its bridge that the connection has begun, every piece that it reads, and at some
time that the connection is over; the wire may then hold bytes that nobody reads. So the
bridge tells of the packets whose frames were read as a whole, in the order in which they were
sent, and of nothing else.
-/

namespace ScriptHost

open Bridge (World Notice Course)

deriving instance DecidableEq for Notice

namespace Transport

/-- A transport takes a packet for a connection and says that it does: the connection has a
writer, and the packet can be framed. -/
def Accepts
    (transport : Transport)
    (peer : ConnectionId)
    (tag : UInt8)
    (body frame : Bytes) : Prop :=
  (transport.writer? peer).isSome = true ∧ Frame.encode tag body = .ok frame

/-- How far the receiving end of a link is. -/
inductive Phase
  | awaited
  | reading
  | ended
  deriving DecidableEq

/-- One direction of a link: the packets that were sent, by tag and body, the bytes of their
frames that are not written yet, those that are on the wire, and those that were read; and
what the receiving end has reported about the connection. -/
structure Line where
  sent : List (UInt8 × Bytes)
  outgoing : Bytes
  wire : Bytes
  taken : Bytes
  phase : Phase
  reports : List Notice

namespace Line

/-- A link that is not open at the receiving end, on which nothing was sent. -/
def new : Line :=
  ⟨[], [], [], [], .awaited, []⟩

/-- What may happen on a link whose receiving end reads into a buffer of a given size. -/
inductive Step (bufferSize : Nat) : Line → Line → Prop
  | sends
      {line : Line}
      {sender : Transport}
      {peer : ConnectionId}
      {tag : UInt8}
      {body frame : Bytes}
      (accepts : sender.Accepts peer tag body frame) :
      Step bufferSize line
        { line with
          sent := line.sent ++ [(tag, body)]
          outgoing := line.outgoing ++ frame }
  | writes
      {line : Line}
      (count : Nat) :
      Step bufferSize line
        { line with
          outgoing := line.outgoing.drop count
          wire := line.wire ++ line.outgoing.take count }
  | opens
      {line : Line}
      (isAwaited : line.phase = .awaited) :
      Step bufferSize line { line with phase := .reading, reports := [.begins] }
  | reads
      {line : Line}
      {piece rest : Bytes}
      (isReading : line.phase = .reading)
      (isNext : line.wire = piece ++ rest)
      (isSome : piece ≠ [])
      (isBuffered : piece.length ≤ bufferSize) :
      Step bufferSize line
        { line with
          wire := rest
          taken := line.taken ++ piece
          reports := line.reports ++ [.brings piece] }
  | ends
      {line : Line}
      (isReading : line.phase = .reading) :
      Step bufferSize line
        { line with phase := .ended, reports := line.reports ++ [.ends] }

/-- What may have become of a link. -/
def Reached
    (bufferSize : Nat)
    (line : Line) : Prop :=
  Relation.ReflTransGen (Step bufferSize) new line

end Line

/-! ## What is on a link -/

/-- What the receiving end reports, by how far it is and the pieces that it has read. -/
def Phase.reports (pieces : List Bytes) : Phase → List Notice
  | awaited => []
  | reading => .begins :: pieces.map .brings
  | ended => .begins :: (pieces.map .brings ++ [.ends])

/-- The frames of the packets that were sent make up what was read, what is on the wire, and
what is still to be written. -/
structure Line.Carries
    (line : Line)
    (frames pieces : List Bytes) : Prop where
  areEncoded : List.Forall₂ (fun packet frame => Frame.encode packet.1 packet.2 = .ok frame)
    line.sent frames
  isStream : line.taken ++ line.wire ++ line.outgoing = frames.flatten
  isTaken : line.taken = pieces.flatten
  areReported : line.reports = line.phase.reports pieces
  isAwaited : line.phase = .awaited → pieces = []

theorem Line.carries_new : Line.new.Carries [] [] where
  areEncoded := .nil
  isStream := rfl
  isTaken := rfl
  areReported := rfl
  isAwaited _ := rfl

theorem Line.Step.carries
    {bufferSize : Nat}
    {line next : Line}
    (step : Step bufferSize line next)
    {frames pieces : List Bytes}
    (carries : line.Carries frames pieces) :
    ∃ frames pieces, next.Carries frames pieces := by
  have isStream := carries.isStream
  cases step with
  | @sends sender peer tag body frame accepts =>
      refine ⟨frames ++ [frame], pieces, { carries with areEncoded := ?_, isStream := ?_ }⟩
      · exact List.rel_append carries.areEncoded (.cons accepts.2 .nil)
      · rw [List.flatten_append, List.flatten_singleton, ← isStream]
        exact (List.append_assoc ..).symm
  | writes count =>
      refine ⟨frames, pieces, { carries with isStream := ?_ }⟩
      simp only [List.append_assoc, List.take_append_drop]
      rw [← isStream, List.append_assoc]
  | opens isAwaited =>
      have noneRead := carries.isAwaited isAwaited
      subst noneRead
      exact ⟨frames, [], { carries with areReported := rfl, isAwaited := fun _ => rfl }⟩
  | @reads piece rest isReading isNext isSome isBuffered =>
      refine ⟨frames, pieces ++ [piece], { carries with
        isStream := ?_, isTaken := ?_, areReported := ?_, isAwaited := ?_ }⟩
      · rw [← isStream, isNext]
        simp only [List.append_assoc]
      · rw [carries.isTaken, List.flatten_append, List.flatten_singleton]
      · simp only [carries.areReported, isReading, Phase.reports, List.map_append,
          List.map_singleton, List.cons_append]
      · intro isAwaited
        cases isReading.symm.trans isAwaited
  | ends isReading =>
      refine ⟨frames, pieces, { carries with areReported := ?_, isAwaited := by rintro ⟨⟩ }⟩
      rw [carries.areReported, isReading]
      rfl

theorem Line.Reached.carries
    {bufferSize : Nat}
    {line : Line}
    (reached : line.Reached bufferSize) :
    ∃ frames pieces, line.Carries frames pieces := by
  induction reached with
  | refl => exact ⟨[], [], Line.carries_new⟩
  | tail reached step inductionHypothesis =>
      obtain ⟨frames, pieces, carries⟩ := inductionHypothesis
      exact step.carries carries

/-! ## What arrives -/

/-- The payload as which a packet under a known tag arrives. -/
def arrival (packet : UInt8 × Bytes) : Payload :=
  if packet.1 = 0 then .bytes packet.2 else .text (Utf8.decodeLossy packet.2)

theorem ofBody?_eq_some_arrival
    {packet : UInt8 × Bytes}
    (isKnown : packet.1 = 0 ∨ packet.1 = 1) :
    Payload.ofBody? packet.1 packet.2 = some (arrival packet) := by
  obtain ⟨tag, body⟩ := packet
  rcases isKnown with rfl | rfl <;> rfl

theorem filterMap_ofBody?
    {packets : List (UInt8 × Bytes)}
    (areKnown : ∀ packet ∈ packets, packet.1 = 0 ∨ packet.1 = 1) :
    packets.filterMap (fun packet => Payload.ofBody? packet.1 packet.2) =
      packets.map arrival := by
  rw [← List.filterMap_eq_map]
  exact List.filterMap_congr fun packet member => ofBody?_eq_some_arrival (areKnown packet member)

/-- A payload arrives as it was sent. -/
theorem arrival_content (payload : Payload) :
    arrival (payload.tag, payload.content) = payload := by
  have isKnown : payload.tag = 0 ∨ payload.tag = 1 := by
    cases payload with
    | bytes => exact .inl rfl
    | text => exact .inr rfl
  have isArrival := @ofBody?_eq_some_arrival (payload.tag, payload.content) isKnown
  exact Option.some.inj (isArrival.symm.trans payload.ofBody?_content)

/-- The frames of short packets are short. -/
theorem fit_frames
    {bound : Nat}
    {sent : List (UInt8 × Bytes)}
    {frames : List Bytes}
    (areEncoded : List.Forall₂ (fun packet frame => Frame.encode packet.1 packet.2 = .ok frame)
      sent frames)
    (fit : ∀ packet ∈ sent, Frame.headerLength + packet.2.length ≤ bound) :
    ∀ frame ∈ frames, frame.length ≤ bound := by
  induction areEncoded with
  | nil => exact fun _ member => (List.not_mem_nil member).elim
  | cons isEncoded areEncoded inductionHypothesis =>
      rw [List.forall_mem_cons] at fit ⊢
      refine ⟨?_, inductionHypothesis fit.2⟩
      rw [Frame.length_of_encode isEncoded]
      exact fit.1

/-- The events of a connection, by how far its link is and what was received. -/
def Phase.events (received : List ConnectionEvent) : Phase → List ConnectionEvent
  | awaited => []
  | reading => .connected :: received
  | ended => .connected :: (received ++ [.disconnected])

theorem foldl_step_brings
    (past : List (List Bytes))
    (chunks pieces : List Bytes) :
    (pieces.map Notice.brings).foldl Course.step ⟨past, some chunks⟩ =
      ⟨past, some (chunks ++ pieces)⟩ := by
  induction pieces generalizing chunks with
  | nil => rw [List.append_nil]; rfl
  | cons piece pieces inductionHypothesis =>
      rw [List.map_cons, List.foldl_cons, Course.step, inductionHypothesis, List.append_assoc,
        List.singleton_append]

/-- The course of a connection that is over goes on with what a new link reports. -/
theorem events_foldl_reports
    {course : Course}
    (isOver : course.current? = none)
    (limit : Nat)
    (pieces : List Bytes)
    (phase : Phase) :
    ((phase.reports pieces).foldl Course.step course).events limit = course.events limit ++
      phase.events (((FrameDecoder.new limit).pushAll pieces).1.map .received) := by
  obtain ⟨past, current?⟩ := course
  cases isOver
  cases phase with
  | awaited => exact (List.append_nil _).symm
  | reading =>
      rw [Phase.reports, List.foldl_cons, Course.step, foldl_step_brings, Course.events,
        Course.events, Option.elim_none, List.append_nil]
      rfl
  | ended =>
      rw [Phase.reports, List.foldl_cons, Course.step, List.foldl_append, foldl_step_brings,
        List.foldl_cons, List.foldl_nil, Course.step, Course.events, Course.events,
        Option.elim_none, List.append_nil, List.append_nil, List.flatMap_append,
        List.flatMap_singleton]
      rfl

open Bridge in
/-- A link carries packets faithfully and in order. Let a link be in any state that sending,
writing, reading, and its end may bring about, and let the receiving bridge have heard what
the receiving end of the link reports, after other connections of the same name, and among
whatever else it was told and passes that it made. Then it tells of this link that it was
connected, of the packets whose frames were read as a whole, and of its end if it came. When
all that was sent was read, these are all packets that were sent. -/
theorem link_carries_packets
    {config : TransportConfig}
    {line : Line}
    {world : World}
    {id : ConnectionId}
    {earlier : List Notice}
    (reached : line.Reached (Transport.new config).bufferSize)
    (areKnown : ∀ packet ∈ line.sent, packet.1 = 0 ∨ packet.1 = 1)
    (fit : ∀ packet ∈ line.sent, Frame.headerLength + packet.2.length ≤
      max config.maxFrameLength Frame.headerLength)
    (life : Life ⟨(Transport.new config).bridge, []⟩ world)
    (neverClears : .told .clear ∉ world.history)
    (hasHeard : noticesFor id world.history = earlier ++ line.reports)
    (isOver : (earlier.foldl Course.step .empty).current? = none) :
    ∃ frames count,
      List.Forall₂ (fun packet frame => Frame.encode packet.1 packet.2 = .ok frame)
        line.sent frames ∧
      IsCutAfter frames line.taken count ∧
      (line.taken = frames.flatten → count = line.sent.length) ∧
      deliveredFor id world.history ++ (world.bridge.stateOf id).queue =
        (earlier.foldl Course.step .empty).events config.maxFrameLength ++
          line.phase.events (((line.sent.take count).map arrival).map .received) ∧
      ∀ payload : Payload, arrival (payload.tag, payload.content) = payload := by
  obtain ⟨frames, pieces, carries⟩ := reached.carries
  have isPrefix : pieces.flatten <+: frames.flatten := by
    rw [← carries.isStream, carries.isTaken, List.append_assoc]
    exact List.prefix_append ..
  obtain ⟨count, isCut, arePayloads⟩ :=
    FrameDecoder.pushAll_prefix carries.areEncoded (fit_frames carries.areEncoded fit) isPrefix
  have faithful := life.faithful neverClears (faithful_new config.maxFrameLength)
  refine ⟨frames, count, carries.areEncoded, carries.isTaken ▸ isCut, ?_, ?_, ?_⟩
  · intro isWhole
    rw [carries.areEncoded.length_eq]
    exact isCut.count_eq (carries.isTaken ▸ isWhole)
  · have isTold := (faithful.agrees id).events_eq
    have isCourse : courseOf id world.history =
        (line.phase.reports pieces).foldl Course.step (earlier.foldl Course.step .empty) := by
      rw [courseOf, ← List.foldl_append, ← carries.areReported, ← hasHeard]
      rfl
    have areKnownTaken : ∀ packet ∈ line.sent.take count, packet.1 = 0 ∨ packet.1 = 1 :=
      fun packet member => areKnown packet (List.mem_of_mem_take member)
    rw [isTold, isCourse, events_foldl_reports isOver, arePayloads,
      filterMap_ofBody? areKnownTaken]
  · exact arrival_content

section Broken

open Bridge Stateful

/-- A transport that reads three bytes at once. -/
def narrowConfig : TransportConfig :=
  ⟨"127.0.0.1:7000", 3, false, 64⟩

/-- A link that broke off within the second of two packets. -/
def brokenLine : Line where
  sent := [(0, [65]), (1, [0xC3, 0xA9])]
  outgoing := [0xA9]
  wire := [0, 0, 0, 1, 0xC3]
  taken := [6, 0, 0, 0, 0, 65, 7]
  phase := .ended
  reports := [.begins, .brings [6, 0], .brings [0, 0], .brings [0, 65, 7], .ends]

theorem reached_brokenLine : brokenLine.Reached (Transport.new narrowConfig).bufferSize := by
  have accepts : (openLink (.new narrowConfig) ⟨"peer"⟩ 0).Accepts ⟨"peer"⟩ 0 [65]
      [6, 0, 0, 0, 0, 65] := ⟨rfl, rfl⟩
  have acceptsAgain : (openLink (.new narrowConfig) ⟨"peer"⟩ 0).Accepts ⟨"peer"⟩ 1
      [0xC3, 0xA9] [7, 0, 0, 0, 1, 0xC3, 0xA9] := ⟨rfl, rfl⟩
  have sent : Line.Reached 3 ⟨[(0, [65])], [6, 0, 0, 0, 0, 65], [], [], .awaited, []⟩ :=
    .tail .refl (.sends accepts)
  have isOpen : Line.Reached 3
      ⟨[(0, [65])], [0, 65], [6, 0, 0, 0], [], .reading, [.begins]⟩ :=
    (sent.tail (.opens rfl)).tail (.writes 4)
  have read : Line.Reached 3
      ⟨[(0, [65])], [0, 65], [0, 0], [6, 0], .reading, [.begins, .brings [6, 0]]⟩ :=
    isOpen.tail (.reads rfl rfl (by decide) (by decide))
  have sentAgain : Line.Reached 3
      ⟨brokenLine.sent, [0xA9], [0, 0, 0, 65, 7, 0, 0, 0, 1, 0xC3], [6, 0], .reading,
        [.begins, .brings [6, 0]]⟩ :=
    (read.tail (.sends acceptsAgain)).tail (.writes 8)
  have readAgain : Line.Reached 3
      ⟨brokenLine.sent, [0xA9], [0, 65, 7, 0, 0, 0, 1, 0xC3], [6, 0, 0, 0], .reading,
        [.begins, .brings [6, 0], .brings [0, 0]]⟩ :=
    sentAgain.tail (.reads rfl rfl (by decide) (by decide))
  have readOn : Line.Reached 3
      ⟨brokenLine.sent, [0xA9], brokenLine.wire, brokenLine.taken, .reading,
        [.begins, .brings [6, 0], .brings [0, 0], .brings [0, 65, 7]]⟩ :=
    readAgain.tail (.reads rfl rfl (by decide) (by decide))
  exact readOn.tail (.ends rfl)

/-- What the transport at the other end hears: the link, one that sends what is no packet, and
a pass in between. -/
def brokenLineCalls : List (Call (StateM World)) :=
  [.connect ⟨"peer"⟩, .connect ⟨"noise"⟩, .receive ⟨"peer"⟩ [6, 0],
    .receive ⟨"noise"⟩ [0, 0, 0, 0], .receive ⟨"peer"⟩ [0, 0]].map tellCall ++
  .dispatch quietAccess ::
  [.receive ⟨"peer"⟩ [0, 65, 7], .disconnect ⟨"noise"⟩, .disconnect ⟨"peer"⟩].map tellCall

theorem obeys_brokenLineCalls :
    ∀ call ∈ brokenLineCalls, call.Obeys fun state world => world = state := by
  intro call member
  rcases List.mem_append.mp member with isEarly | isLate
  · obtain ⟨input, -, rfl⟩ := List.mem_map.mp isEarly
    exact obeys_tellCall input
  · rcases List.mem_cons.mp isLate with rfl | isLast
    · exact obeys_quietAccess
    · obtain ⟨input, -, rfl⟩ := List.mem_map.mp isLast
      exact obeys_tellCall input

/-- The world of the transport after all of it. -/
def brokenLineWorld : World :=
  ((runAll brokenLineCalls).run ⟨(Transport.new narrowConfig).bridge, []⟩).2

theorem brokenLine_carries_packets :
    ∃ frames count,
      List.Forall₂ (fun packet frame => Frame.encode packet.1 packet.2 = .ok frame)
        brokenLine.sent frames ∧
      IsCutAfter frames brokenLine.taken count ∧
      (brokenLine.taken = frames.flatten → count = brokenLine.sent.length) ∧
      deliveredFor ⟨"peer"⟩ brokenLineWorld.history ++
          (brokenLineWorld.bridge.stateOf ⟨"peer"⟩).queue =
        Course.empty.events 64 ++
          brokenLine.phase.events (((brokenLine.sent.take count).map arrival).map .received) ∧
      ∀ payload : Payload, arrival (payload.tag, payload.content) = payload := by
  obtain ⟨_, life, rfl⟩ := life_of_runAll obeys_brokenLineCalls .begins rfl
    (returns_run (runAll brokenLineCalls) ⟨(Transport.new narrowConfig).bridge, []⟩)
  have hasHeard : noticesFor ⟨"peer"⟩ brokenLineWorld.history = [] ++ brokenLine.reports := by
    decide +kernel
  exact link_carries_packets reached_brokenLine (by decide) (by decide) life
    (by decide +kernel) hasHeard rfl

example :
    deliveredFor ⟨"peer"⟩ brokenLineWorld.history ++
        (brokenLineWorld.bridge.stateOf ⟨"peer"⟩).queue =
      [.connected, .received (.bytes [65]), .disconnected] := by
  decide +kernel

end Broken

end Transport
end ScriptHost
