import ScriptHost.Proofs.Frame
import ScriptHost.Proofs.Text.Utf8

/-!
# Packets arrive as they were sent

A frame that can be sent stands in the stream as a frame that a decoder of a sufficient
limit finds. So the stream of several packets has a greedy parse that ends with the last of
them, and its payloads are those that were sent. Frames under tags that no payload has take
their place in the stream and yield nothing.
-/

namespace ScriptHost

namespace Frame

/-- The four bytes of a length write this length. -/
theorem lengthOf_lengthBytes
    {length : Nat}
    (isWord : length < UInt32.size) :
    lengthOf (UInt8.ofNat length) (UInt8.ofNat (length / 0x100))
      (UInt8.ofNat (length / 0x10000)) (UInt8.ofNat (length / 0x1000000)) = length := by
  have isBound : length < 0x100000000 := isWord
  simp only [lengthOf, UInt8.toNat_ofNat']
  omega

theorem encode_eq_ok_iff
    (tag : UInt8)
    (body frame : Bytes) :
    encode tag body = .ok frame ↔
      headerLength + body.length < UInt32.size ∧
        frame = lengthBytes (headerLength + body.length) ++ tag :: body := by
  simp only [encode]
  split
  next isWord =>
    constructor
    · intro same
      cases same
      exact ⟨isWord, rfl⟩
    · rintro ⟨-, rfl⟩
      rfl
  next tooLong =>
    constructor
    · intro same
      cases same
    · rintro ⟨isWord, -⟩
      exact absurd isWord tooLong

/-- The length of a frame counts the header and the body. -/
theorem length_of_encode
    {tag : UInt8}
    {body frame : Bytes}
    (isEncoded : encode tag body = .ok frame) :
    frame.length = headerLength + body.length := by
  rw [encode_eq_ok_iff] at isEncoded
  obtain ⟨-, rfl⟩ := isEncoded
  rw [List.length_append, List.length_cons, Nat.add_comm body.length, ← Nat.add_assoc]
  rfl

/-- A frame that is within a limit stands in a stream as one that a decoder finds. -/
theorem exists_wireFrame
    {limit : Nat}
    {tag : UInt8}
    {body frame : Bytes}
    (isEncoded : encode tag body = .ok frame)
    (fits : frame.length ≤ limit) :
    ∃ wireFrame : WireFrame limit, wireFrame.bytes = frame ∧
      wireFrame.payload? = Payload.ofBody? tag body := by
  rw [length_of_encode isEncoded] at fits
  rw [encode_eq_ok_iff] at isEncoded
  obtain ⟨isWord, rfl⟩ := isEncoded
  have counts := lengthOf_lengthBytes isWord
  exact ⟨⟨_, _, _, _, tag, body, counts, counts.symm ▸ fits⟩, rfl, rfl⟩

end Frame

namespace Payload

/-- A payload is what its tag and its content stand for. -/
theorem ofBody?_content (payload : Payload) :
    ofBody? payload.tag payload.content = some payload := by
  cases payload with
  | bytes content => rfl
  | text content =>
      change some (text (Utf8.decodeLossy (Utf8.encode content))) = _
      rw [Utf8.decodeLossy_encode]

/-- A tag that no payload has stands for none. -/
theorem ofBody?_eq_none
    {tag : UInt8}
    (isForeign : ∀ payload : Payload, payload.tag ≠ tag)
    (body : Bytes) :
    ofBody? tag body = none := by
  have notBytes : tag ≠ 0 := (isForeign (bytes [])).symm
  have notText : tag ≠ 1 := (isForeign (text "")).symm
  rw [ofBody?, if_neg notBytes, if_neg notText]

end Payload

/-- What is sent as one frame: a payload, or a body under a tag that no payload has. -/
inductive Packet
  | known (payload : Payload)
  | foreign (tag : UInt8) (body : Bytes) (isForeign : ∀ payload : Payload, payload.tag ≠ tag)

namespace Packet

/-- The tag under which a packet travels. -/
def tag : Packet → UInt8
  | known payload => payload.tag
  | foreign tag _ _ => tag

/-- The bytes that follow the tag. -/
def body : Packet → Bytes
  | known payload => payload.content
  | foreign _ body _ => body

/-- The payload that is sent, if there is one. -/
def payload? : Packet → Option Payload
  | known payload => some payload
  | foreign _ _ _ => none

/-- The frame of a packet. -/
def encode (packet : Packet) : Except Frame.EncodeError Bytes :=
  match packet with
  | known payload => Frame.encodePayload payload
  | foreign tag body _ => Frame.encode tag body

theorem encode_eq (packet : Packet) : packet.encode = Frame.encode packet.tag packet.body := by
  cases packet <;> rfl

theorem ofBody?_body (packet : Packet) :
    Payload.ofBody? packet.tag packet.body = packet.payload? := by
  cases packet with
  | known payload => exact payload.ofBody?_content
  | foreign tag body isForeign => exact Payload.ofBody?_eq_none isForeign body

variable {limit : Nat}

theorem exists_wireFrame
    {packet : Packet}
    {frame : Bytes}
    (isEncoded : packet.encode = .ok frame)
    (fits : frame.length ≤ limit) :
    ∃ wireFrame : WireFrame limit, wireFrame.bytes = frame ∧
      wireFrame.payload? = packet.payload? := by
  rw [encode_eq] at isEncoded
  obtain ⟨wireFrame, isFrame, isPayload⟩ := Frame.exists_wireFrame isEncoded fits
  exact ⟨wireFrame, isFrame, isPayload.trans packet.ofBody?_body⟩

/-- The stream of several packets parses into their frames. -/
theorem exists_parse_eq
    {packets : List Packet}
    {frames : List Bytes}
    (areEncoded : List.Forall₂ (fun packet frame => packet.encode = .ok frame) packets frames)
    (fit : ∀ frame ∈ frames, frame.length ≤ limit) :
    ∃ wireFrames : List (WireFrame limit), parse limit frames.flatten = (wireFrames, []) ∧
      WireFrame.payloads wireFrames = packets.filterMap payload? := by
  induction areEncoded with
  | nil => exact ⟨[], parse_of_cut?_eq_none rfl, rfl⟩
  | @cons packet frame packets frames isEncoded areEncoded inductionHypothesis =>
      obtain ⟨wireFrame, isFrame, isPayload⟩ :=
        exists_wireFrame isEncoded (fit frame List.mem_cons_self)
      obtain ⟨wireFrames, isParsed, arePayloads⟩ :=
        inductionHypothesis fun other member => fit other (List.mem_cons_of_mem _ member)
      refine ⟨wireFrame :: wireFrames, ?_, ?_⟩
      · rw [List.flatten_cons, ← isFrame, parse_bytes_append, isParsed]
      · rw [WireFrame.payloads_cons, arePayloads, isPayload, List.filterMap_cons]
        cases packet.payload? <;> rfl

end Packet

namespace FrameDecoder

/-- A new decoder that has seen a stream without a bad length has found the payloads of its
greedy parse and holds its tail. -/
theorem pushAll_new
    {limit cap : Nat}
    {chunks : List Bytes}
    (isCap : cap = max limit Frame.headerLength)
    (clean : ¬IsMalformed cap (parse cap chunks.flatten).2) :
    (new limit).pushAll chunks =
      (WireFrame.payloads (parse cap chunks.flatten).1, after cap chunks.flatten) := by
  have start : new limit = after cap [] := by
    rw [isCap, after, parse_of_cut?_eq_none rfl]
    rfl
  obtain ⟨samePayloads, sameDecoder⟩ := @pushAll_after cap [] chunks clean
  rw [parse_of_cut?_eq_none rfl] at samePayloads
  rw [start]
  exact Prod.ext samePayloads sameDecoder

/-- Packets whose frames are within the limit arrive as they were sent, in order, wherever
their stream is cut. Frames under foreign tags do not disturb the others. The decoder that
has found them is as good as new. -/
theorem pushAll_encoded
    {limit : Nat}
    {packets : List Packet}
    {frames chunks : List Bytes}
    (areEncoded : List.Forall₂ (fun packet frame => packet.encode = .ok frame) packets frames)
    (fit : ∀ frame ∈ frames, frame.length ≤ max limit Frame.headerLength)
    (isCut : chunks.flatten = frames.flatten) :
    (new limit).pushAll chunks = (packets.filterMap Packet.payload?, new limit) ∧
      ((new limit).pushAll chunks).2.buffered = 0 := by
  obtain ⟨wireFrames, isParsed, arePayloads⟩ := Packet.exists_parse_eq areEncoded fit
  rw [← isCut] at isParsed
  have arrived := @pushAll_new limit _ chunks rfl (by rw [isParsed]; exact id)
  rw [isParsed, arePayloads, after, isParsed] at arrived
  exact ⟨arrived, congrArg (fun result => buffered result.2) arrived⟩

/-- A text with a letter of two bytes, a body under a foreign tag, and nothing. -/
def mixedPackets : List Packet :=
  [.known (.text "hé"), .foreign 9 [1, 2] (by rintro (_ | _) same <;> cases same),
    .known (.bytes [])]

/-- The frames of the mixed packets. -/
def mixedFrames : List Bytes :=
  [[8, 0, 0, 0, 1, 0x68, 0xC3, 0xA9], [7, 0, 0, 0, 9, 1, 2], [5, 0, 0, 0, 0]]

/-- Their stream, cut within a letter, at a tag, and within a length. -/
def mixedChunks : List Bytes :=
  [[8, 0, 0, 0, 1, 0x68, 0xC3], [0xA9, 7, 0, 0, 0], [], [9, 1, 2, 5, 0], [0, 0, 0]]

theorem pushAll_mixedChunks :
    (new 8).pushAll mixedChunks = ([.text "hé", .bytes []], new 8) ∧
      ((new 8).pushAll mixedChunks).2.buffered = 0 :=
  @pushAll_encoded 8 mixedPackets mixedFrames mixedChunks
    (.cons (by decide +kernel) (.cons (by decide +kernel) (.cons (by decide +kernel) .nil)))
    (by decide) (by decide)

end FrameDecoder
end ScriptHost
