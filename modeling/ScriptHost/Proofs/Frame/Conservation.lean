import ScriptHost.Proofs.Frame.Packets

/-!
# No byte is lost or invented

A frame of a stream says what its payload's own frame would say, as long as its tag is that of
a payload and, under the tag of a text, its body is one. So what a decoder has returned and
what it holds back make up, in order, the bytes that it has been fed.
-/

namespace ScriptHost

namespace Frame

/-- Four bytes count no further than they can write. -/
theorem lengthOf_lt (a b c d : UInt8) : lengthOf a b c d < UInt32.size := by
  have first := a.toNat_lt
  have second := b.toNat_lt
  have third := c.toNat_lt
  have fourth := d.toNat_lt
  change _ < 0x100000000
  rw [lengthOf]
  omega

/-- A length that four bytes write is written by these four bytes only. -/
theorem lengthBytes_lengthOf (a b c d : UInt8) : lengthBytes (lengthOf a b c d) = [a, b, c, d] := by
  have first := a.toNat_lt
  have second := b.toNat_lt
  have third := c.toNat_lt
  have fourth := d.toNat_lt
  have ofNat_eq {value : Nat} (byte : UInt8) (same : value % 0x100 = byte.toNat) :
      UInt8.ofNat value = byte := by
    rw [← UInt8.toNat_inj, UInt8.toNat_ofNat']
    exact same
  rw [lengthBytes, ofNat_eq a (by rw [lengthOf]; omega), ofNat_eq b (by rw [lengthOf]; omega),
    ofNat_eq c (by rw [lengthOf]; omega), ofNat_eq d (by rw [lengthOf]; omega)]

end Frame

namespace WireFrame

variable {limit : Nat}

/-- The tag of a frame is known, and the body of a text is valid UTF-8. -/
structure IsFaithful (frame : WireFrame limit) : Prop where
  isKnown : frame.payload?.isSome
  isText : ∀ text, frame.payload? = some (.text text) → (Utf8.decode? frame.body).isSome

/-- The payload of a faithful frame has the frame's tag, and its content is the body. -/
theorem IsFaithful.payload?_eq
    {frame : WireFrame limit}
    (faithful : frame.IsFaithful) :
    ∃ payload, frame.payload? = some payload ∧ payload.tag = frame.tag ∧
      payload.content = frame.body := by
  obtain ⟨payload, isPayload⟩ := Option.isSome_iff_exists.mp faithful.isKnown
  refine ⟨payload, isPayload, ?_⟩
  have isText := faithful.isText
  rw [payload?, Payload.ofBody?] at isPayload isText
  split_ifs at isPayload isText with isZero isOne
  · cases isPayload
    exact ⟨isZero.symm, rfl⟩
  · cases isPayload
    obtain ⟨text, isBody⟩ := Option.isSome_iff_exists.mp (isText _ rfl)
    rw [Utf8.decodeLossy_of_decode? isBody]
    exact ⟨isOne.symm, (Utf8.decode?_eq_some_iff _ _).mp isBody⟩

/-- The frame of a tag and a body, as they stand in a frame of a stream, is this frame. -/
theorem encode_eq (frame : WireFrame limit) :
    Frame.encode frame.tag frame.body = .ok frame.bytes := by
  rw [Frame.encode_eq_ok_iff, ← frame.counts, Frame.lengthBytes_lengthOf]
  exact ⟨Frame.lengthOf_lt .., rfl⟩

/-- Faithful frames are the frames of their payloads. -/
theorem forall₂_encodePayload
    {frames : List (WireFrame limit)}
    (faithful : ∀ frame ∈ frames, frame.IsFaithful) :
    List.Forall₂ (fun payload frame => Frame.encodePayload payload = .ok frame)
      (payloads frames) (frames.map bytes) := by
  induction frames with
  | nil => exact .nil
  | cons frame frames inductionHypothesis =>
      obtain ⟨payload, isPayload, isTag, isBody⟩ :=
        (faithful frame List.mem_cons_self).payload?_eq
      have isEncoded : Frame.encodePayload payload = .ok frame.bytes := by
        rw [Frame.encodePayload, isTag, isBody, encode_eq]
      rw [payloads_cons, isPayload]
      exact .cons isEncoded
        (inductionHypothesis fun other member => faithful other (List.mem_cons_of_mem _ member))

end WireFrame

/-- The beginning of a stream that never reaches a bad length does not reach one, and has the
first of its frames. -/
theorem parse_of_isPrefix
    {limit : Nat}
    {start stream : Bytes}
    (isPrefix : start <+: stream)
    (clean : ¬IsMalformed limit (parse limit stream).2) :
    ¬IsMalformed limit (parse limit start).2 ∧
      (parse limit start).1 <+: (parse limit stream).1 := by
  obtain ⟨rest, rfl⟩ := isPrefix
  constructor
  · intro malformed
    rw [parse_append_of_isMalformed malformed] at clean
    exact clean (malformed.append rest)
  · rw [parse_append]
    exact List.prefix_append _ _

namespace FrameDecoder

/-- Encoding undoes decoding. In a stream that has no bad length and faithful frames only, the
frames of the payloads returned so far, followed by the bytes held back, are at any time the
bytes pushed so far. -/
theorem flatten_encoded_pushAll
    {limit : Nat}
    {chunks pushed : List Bytes}
    (clean : ¬IsMalformed (new limit).limit (parse (new limit).limit chunks.flatten).2)
    (faithful : ∀ frame ∈ (parse (new limit).limit chunks.flatten).1, frame.IsFaithful)
    (soFar : pushed <+: chunks) :
    ∃ frames : List Bytes,
      List.Forall₂ (fun payload frame => Frame.encodePayload payload = .ok frame)
        ((new limit).pushAll pushed).1 frames ∧
      frames.flatten ++ ((new limit).pushAll pushed).2.buffer = pushed.flatten := by
  have isPrefix : pushed.flatten <+: chunks.flatten := by
    obtain ⟨later, rfl⟩ := soFar
    rw [List.flatten_append]
    exact List.prefix_append _ _
  obtain ⟨cleanSoFar, framesSoFar⟩ := parse_of_isPrefix isPrefix clean
  rw [pushAll_new rfl cleanSoFar]
  refine ⟨_, WireFrame.forall₂_encodePayload fun frame member =>
    faithful frame (framesSoFar.subset member), ?_⟩
  rw [← List.flatMap_def]
  exact flatMap_bytes_parse pushed.flatten

/-- A text with a letter of two bytes, cut within the letter, nothing, and the beginning of
another frame. -/
def faithfulChunks : List Bytes :=
  [[8, 0, 0, 0, 1, 0x68, 0xC3], [0xA9, 5, 0], [0, 0, 0, 9, 0, 0]]

theorem flatten_encoded_faithfulChunks :
    ∃ frames : List Bytes,
      List.Forall₂ (fun payload frame => Frame.encodePayload payload = .ok frame)
        ((new 9).pushAll (faithfulChunks.take 2)).1 frames ∧
      frames.flatten ++ ((new 9).pushAll (faithfulChunks.take 2)).2.buffer =
        [8, 0, 0, 0, 1, 0x68, 0xC3, 0xA9, 5, 0] := by
  let first : WireFrame 9 := ⟨8, 0, 0, 0, 1, [0x68, 0xC3, 0xA9], rfl, by decide⟩
  let second : WireFrame 9 := ⟨5, 0, 0, 0, 0, [], rfl, by decide⟩
  have isParsed : parse 9 faithfulChunks.flatten = ([first, second], [9, 0, 0]) := by
    rw [show faithfulChunks.flatten = first.bytes ++ (second.bytes ++ [9, 0, 0]) from rfl,
      parse_bytes_append, parse_bytes_append, parse_of_cut?_eq_none rfl]
  have firstFaithful : first.IsFaithful := ⟨rfl, fun _ _ => by decide +kernel⟩
  have secondFaithful : second.IsFaithful := ⟨rfl, fun _ isText => by cases isText⟩
  refine @flatten_encoded_pushAll 9 faithfulChunks (faithfulChunks.take 2) ?_ ?_
    (List.take_prefix 2 _)
  · change ¬IsMalformed 9 (parse 9 _).2
    rw [isParsed]
    exact id
  · change ∀ frame ∈ (parse 9 _).1, _
    rw [isParsed]
    intro frame member
    rcases List.mem_cons.mp member with rfl | member
    · exact firstFaithful
    · rw [List.mem_singleton.mp member]
      exact secondFaithful

end FrameDecoder
end ScriptHost
