import ScriptHost.Proofs.Frame.Packets

/-!
# Streams that break off

A stream of frames may break off at any byte. A parse of what there is finds the frames that
are whole, and its tail is a part of the next one, which is no bad length. So a decoder finds
the payloads of the whole frames, wherever the stream was cut into chunks.
-/

namespace ScriptHost

namespace WireFrame

variable {limit : Nat}

theorem cut?_bytes (frame : WireFrame limit) : cut? limit frame.bytes = some (frame, []) := by
  have isCut := frame.cut?_bytes_append []
  rwa [List.append_nil] at isCut

/-- A part of a frame is no frame, and has no bad length. -/
theorem cut?_of_prefix
    {frame : WireFrame limit}
    {start : Bytes}
    (isPrefix : start <+: frame.bytes)
    (isPart : start.length < frame.bytes.length) :
    cut? limit start = none ∧ ¬IsMalformed limit start := by
  obtain ⟨rest, isFrame⟩ := isPrefix
  have isCut := frame.cut?_bytes
  rw [← isFrame] at isCut isPart
  constructor
  · cases isOther : cut? limit start with
    | none => rfl
    | some found =>
        obtain ⟨other, more⟩ := found
        have isStart := eq_append_of_cut?_eq_some isOther
        rw [isStart, List.append_assoc, other.cut?_bytes_append] at isCut
        obtain ⟨-, nothingLeft⟩ := Prod.mk.inj (Option.some.inj isCut)
        rw [(List.append_eq_nil_iff.mp nothingLeft).2, List.append_nil] at isPart
        exact absurd isPart (Nat.lt_irrefl _)
  · intro malformed
    rw [cut?_of_isMalformed (malformed.append rest)] at isCut
    cases isCut

end WireFrame

/-- How much of a stream of frames has been read: so many frames as a whole, and a part of the
next. -/
structure IsCutAfter
    (frames : List Bytes)
    (stream : Bytes)
    (count : Nat) : Prop where
  count_le : count ≤ frames.length
  isPrefix : (frames.take count).flatten <+: stream
  isPart : count < frames.length → stream.length < (frames.take (count + 1)).flatten.length

/-- When all is read, no frame is missing. -/
theorem IsCutAfter.count_eq
    {frames : List Bytes}
    {stream : Bytes}
    {count : Nat}
    (isCut : IsCutAfter frames stream count)
    (isWhole : stream = frames.flatten) :
    count = frames.length := by
  rcases Nat.lt_or_eq_of_le isCut.count_le with isLess | isAll
  · have isPart := isCut.isPart isLess
    obtain ⟨rest, isRest⟩ := List.take_prefix (count + 1) frames
    have isSum : frames.flatten.length =
        (frames.take (count + 1)).flatten.length + rest.flatten.length := by
      rw [← List.length_append, ← List.flatten_append, isRest]
    rw [isWhole, isSum] at isPart
    exact absurd isPart (Nat.not_lt.mpr (Nat.le_add_right ..))
  · exact isAll

namespace Frame

variable {limit : Nat}

/-- Of a stream of frames that breaks off, a parse finds those that are whole, and its tail is
no bad length. -/
theorem exists_parse_prefix
    {sent : List (UInt8 × Bytes)}
    {frames : List Bytes}
    (areEncoded : List.Forall₂ (fun packet frame => encode packet.1 packet.2 = .ok frame)
      sent frames)
    (fit : ∀ frame ∈ frames, frame.length ≤ limit)
    {stream : Bytes}
    (isPrefix : stream <+: frames.flatten) :
    ∃ count, IsCutAfter frames stream count ∧
      ¬IsMalformed limit (parse limit stream).2 ∧
      WireFrame.payloads (parse limit stream).1 =
        (sent.take count).filterMap fun packet => Payload.ofBody? packet.1 packet.2 := by
  induction areEncoded generalizing stream with
  | nil =>
      rw [List.flatten_nil, List.prefix_nil] at isPrefix
      subst isPrefix
      rw [parse_of_cut?_eq_none rfl]
      exact ⟨0, ⟨Nat.le_refl _, List.nil_prefix, fun isLess => absurd isLess (Nat.lt_irrefl _)⟩,
        id, rfl⟩
  | @cons packet frame sent frames isEncoded areEncoded inductionHypothesis =>
      obtain ⟨wireFrame, isFrame, isPayload⟩ :=
        exists_wireFrame isEncoded (fit frame List.mem_cons_self)
      subst isFrame
      rw [List.flatten_cons] at isPrefix
      rcases Nat.lt_or_ge stream.length wireFrame.bytes.length with isPart | isWhole
      · have startsFrame := List.prefix_of_prefix_length_le isPrefix (List.prefix_append _ _)
          (Nat.le_of_lt isPart)
        obtain ⟨noCut, notMalformed⟩ := WireFrame.cut?_of_prefix startsFrame isPart
        rw [parse_of_cut?_eq_none noCut]
        refine ⟨0, ⟨Nat.zero_le _, List.nil_prefix, fun _ => ?_⟩, notMalformed, rfl⟩
        simpa using isPart
      · obtain ⟨rest, rfl⟩ := List.prefix_of_prefix_length_le (List.prefix_append _ _) isPrefix
          isWhole
        rw [List.prefix_append_right_inj] at isPrefix
        obtain ⟨count, isCut, notMalformed, arePayloads⟩ := inductionHypothesis
          (fun other member => fit other (List.mem_cons_of_mem _ member)) isPrefix
        rw [parse_bytes_append]
        refine ⟨count + 1, ⟨Nat.succ_le_succ isCut.count_le, ?_, ?_⟩, notMalformed, ?_⟩
        · rw [List.take_succ_cons, List.flatten_cons, List.prefix_append_right_inj]
          exact isCut.isPrefix
        · intro isLess
          rw [List.take_succ_cons, List.flatten_cons, List.length_append, List.length_append]
          exact Nat.add_lt_add_left (isCut.isPart (Nat.lt_of_succ_lt_succ isLess)) _
        · rw [WireFrame.payloads_cons, arePayloads, isPayload, List.take_succ_cons,
            List.filterMap_cons]
          cases Payload.ofBody? packet.1 packet.2 <;> rfl

end Frame

namespace FrameDecoder

/-- A new decoder that is fed a stream of frames that breaks off finds the payloads of those
that are whole. -/
theorem pushAll_prefix
    {limit : Nat}
    {sent : List (UInt8 × Bytes)}
    {frames chunks : List Bytes}
    (areEncoded : List.Forall₂ (fun packet frame => Frame.encode packet.1 packet.2 = .ok frame)
      sent frames)
    (fit : ∀ frame ∈ frames, frame.length ≤ max limit Frame.headerLength)
    (isPrefix : chunks.flatten <+: frames.flatten) :
    ∃ count, IsCutAfter frames chunks.flatten count ∧
      ((new limit).pushAll chunks).1 =
        (sent.take count).filterMap fun packet => Payload.ofBody? packet.1 packet.2 := by
  obtain ⟨count, isCut, notMalformed, arePayloads⟩ :=
    Frame.exists_parse_prefix areEncoded fit isPrefix
  refine ⟨count, isCut, ?_⟩
  rw [pushAll_new rfl notMalformed]
  exact arePayloads

end FrameDecoder

end ScriptHost
