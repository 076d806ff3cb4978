import ScriptHost.Proofs.Frame
import Mathlib.Tactic.SplitIfs

/-!
# What a decoder holds back

After each chunk a decoder holds the beginning of a frame that may still come: so few bytes
that their length is not there yet, or a good length and less than it counts. So it never holds
as many bytes as the largest frame has, and without a further byte nothing comes of them.

A decoder may find its way in the buffer by indices. None of them is ever out of range, whatever
the bytes are.
-/

namespace ScriptHost
namespace FrameDecoder

variable {limit : Nat}

/-- A frame that is not complete yet is shorter than the largest frame. -/
theorem length_lt_of_front_eq_incomplete
    (isLimit : Frame.headerLength ≤ limit)
    {bytes : Bytes}
    (isFront : front limit bytes = .incomplete) :
    bytes.length < limit := by
  change 5 ≤ limit at isLimit
  unfold front at isFront
  split at isFront
  next a b c d rest =>
    have header : Frame.headerLength = 5 := rfl
    simp only at isFront
    split_ifs at isFront with malformed
    cases rest with
    | nil => exact isLimit
    | cons tag rest =>
        simp only at isFront
        split_ifs at isFront with isShort
        simp only [List.length_cons]
        omega
  next notLong =>
    match bytes with
    | [] | [_] | [_, _] | [_, _, _] => simp only [List.length_cons, List.length_nil]; omega
    | a :: b :: c :: d :: rest => exact absurd rfl (notLong a b c d rest)

/-- What a decoder holds back is the beginning of a frame that may still come. -/
structure IsConfined
    (limit : Nat)
    (decoder : FrameDecoder) : Prop where
  limit_eq : decoder.limit = max limit Frame.headerLength
  front_eq : front decoder.limit decoder.buffer = .incomplete

theorem isConfined_new (limit : Nat) : (new limit).IsConfined limit :=
  ⟨rfl, rfl⟩

namespace IsConfined

variable {decoder : FrameDecoder}

theorem clear (confined : decoder.IsConfined limit) : decoder.clear.IsConfined limit :=
  ⟨confined.limit_eq, rfl⟩

/-- Whatever is pushed, and however the scan ends, what is held back is confined. -/
theorem push
    (confined : decoder.IsConfined limit)
    (chunk : Bytes) :
    (decoder.push chunk).2.IsConfined limit := by
  rw [push_eq]
  refine ⟨confined.limit_eq, ?_⟩
  change front decoder.limit (if _ then _ else _) = _
  split_ifs with malformed
  · rfl
  · rw [front_of_cut?_eq_none (cut?_parse _), if_neg malformed]

theorem buffered_lt (confined : decoder.IsConfined limit) :
    decoder.buffered < max limit Frame.headerLength := by
  rw [← confined.limit_eq]
  refine length_lt_of_front_eq_incomplete ?_ confined.front_eq
  rw [confined.limit_eq]
  exact Nat.le_max_right _ _

theorem push_nil (confined : decoder.IsConfined limit) : decoder.push [] = ([], decoder) := by
  have isScanned : scan decoder.limit [] decoder.buffer = ([], decoder.buffer) := by
    rw [scan]
    split <;> rename_i isFront <;> rw [confined.front_eq] at isFront <;> cases isFront
  rw [FrameDecoder.push, List.append_nil, isScanned]
  rfl

end IsConfined

/-! ## Indices -/

theorem difference?_append (taken stream : Bytes) :
    difference? (taken ++ stream).length taken.length = some stream.length := by
  rw [List.length_append, difference?, if_pos (Nat.le_add_right _ _), Nat.add_sub_cancel_left]

theorem slice?_append
    (taken stream : Bytes)
    {first last : Nat}
    (isOrdered : first ≤ last)
    (inRange : last ≤ stream.length) :
    slice? (taken ++ stream) (taken.length + first) (taken.length + last) =
      some ((stream.drop first).take (last - first)) := by
  rw [slice?, if_pos ⟨by omega, by rw [List.length_append]; omega⟩, List.drop_length_add_append,
    Nat.add_sub_add_left]

theorem slice?_append_all (taken stream : Bytes) :
    slice? (taken ++ stream) taken.length (taken ++ stream).length = some stream := by
  have isSlice := slice?_append taken stream (Nat.zero_le stream.length) (Nat.le_refl _)
  rwa [List.drop_zero, Nat.sub_zero, List.take_length, Nat.add_zero,
    ← List.length_append] at isSlice

/-- Of a good length that begins no complete frame, not all bytes are there. -/
theorem length_lt_of_cut?_eq_none
    {a b c d : UInt8}
    {rest : Bytes}
    (noCut : WireFrame.cut? limit (a :: b :: c :: d :: rest) = none)
    (notMalformed : ¬IsMalformed limit (a :: b :: c :: d :: rest)) :
    (a :: b :: c :: d :: rest).length < Frame.lengthOf a b c d := by
  have header : Frame.headerLength = 5 := rfl
  obtain ⟨isLeast, isMost⟩ := not_or.mp notMalformed
  cases rest with
  | nil =>
      simp only [List.length_cons, List.length_nil]
      omega
  | cons tag rest =>
      by_contra complete
      simp only [List.length_cons] at complete
      rw [WireFrame.cut?, dif_pos ⟨by omega, by omega, by omega⟩] at noCut
      cases noCut

theorem scanFrom_tail
    (found : List Payload)
    (taken : Bytes)
    {stream : Bytes}
    (noCut : WireFrame.cut? limit stream = none) :
    scanFrom limit (taken ++ stream) taken.length found =
      some (found, if IsMalformed limit stream then [] else stream) := by
  rw [scanFrom]
  split
  next isLeft =>
    rw [difference?_append] at isLeft
    cases isLeft
  next left isLeft =>
    rw [difference?_append] at isLeft
    cases isLeft
    rw [slice?_append_all]
    -- Fewer than four bytes are no length yet, and are kept whatever they are.
    rcases stream with _ | ⟨a, _ | ⟨b, _ | ⟨c, _ | ⟨d, rest⟩⟩⟩⟩
    iterate 4 rfl
    have isHeader := slice?_append taken (a :: b :: c :: d :: rest) (Nat.zero_le 4)
      (by simp only [List.length_cons]; omega)
    rw [Nat.add_zero] at isHeader
    rw [if_neg (by simp only [List.length_cons]; omega), isHeader]
    by_cases malformed : IsMalformed limit (a :: b :: c :: d :: rest)
    · rw [if_pos malformed]
      exact dif_pos malformed
    · rw [if_neg malformed]
      exact (dif_neg malformed).trans (dif_pos (length_lt_of_cut?_eq_none noCut malformed))

theorem scanFrom_bytes_append
    (found : List Payload)
    (taken : Bytes)
    (frame : WireFrame limit)
    (rest : Bytes) :
    scanFrom limit (taken ++ (frame.bytes ++ rest)) taken.length found =
      scanFrom limit (taken ++ frame.bytes ++ rest) (taken ++ frame.bytes).length
        (frame.payload?.toList ++ found) := by
  have header : Frame.headerLength = 5 := rfl
  obtain ⟨a, b, c, d, tag, body, counts, fits⟩ := frame
  generalize isStream : WireFrame.bytes ⟨a, b, c, d, tag, body, counts, fits⟩ ++ rest = stream
  replace isStream : a :: b :: c :: d :: tag :: (body ++ rest) = stream := isStream
  have isLong : stream.length = Frame.lengthOf a b c d + rest.length := by
    rw [← isStream, counts]
    simp only [List.length_cons, List.length_append]
    omega
  have isHeader : slice? (taken ++ stream) taken.length (taken.length + 4) =
      some [a, b, c, d] := by
    refine (slice?_append taken stream (Nat.zero_le 4) (by omega)).trans ?_
    rw [← isStream]
    rfl
  have isTag : (taken ++ stream)[taken.length + 4]? = some tag := by
    rw [List.getElem?_append_right (Nat.le_add_right _ _), Nat.add_sub_cancel_left, ← isStream]
    rfl
  have isBody : slice? (taken ++ stream) (taken.length + 5)
      (taken.length + Frame.lengthOf a b c d) = some body := by
    have bodyLength : Frame.lengthOf a b c d - 5 = body.length := by omega
    rw [slice?_append taken stream (by omega) (by omega), bodyLength, ← isStream]
    exact congrArg some List.take_left
  rw [scanFrom]
  split
  next isLeft =>
    rw [difference?_append] at isLeft
    cases isLeft
  next left isLeft =>
    rw [difference?_append] at isLeft
    cases isLeft
    rw [if_neg (by omega), isHeader]
    refine (dif_neg (by omega)).trans ((dif_neg (by omega)).trans ?_)
    simp only [isTag, isBody]
    rw [List.append_assoc, List.length_append]
    simp only [WireFrame.bytes, WireFrame.payload?, List.cons_append, isStream]
    congr 1
    simp only [List.length_cons]
    omega

/-- Indices lead to the same frames and the same rest, and none of them is out of range. -/
theorem scanFrom_eq
    (found : List Payload)
    (taken stream : Bytes) :
    scanFrom limit (taken ++ stream) taken.length found = some (scan limit found stream) := by
  induction stream using @parse_induction limit generalizing found taken with
  | tail stream noCut =>
      rw [scanFrom_tail found taken noCut, scan_eq, parse_of_cut?_eq_none noCut]
      rfl
  | frame frame rest inductionHypothesis =>
      rw [scanFrom_bytes_append, inductionHypothesis, scan_eq, scan_eq, parse_bytes_append,
        WireFrame.payloads_cons, List.reverse_append, List.append_assoc]
      cases frame.payload? <;> rfl

theorem pushByIndex_eq
    (decoder : FrameDecoder)
    (chunk : Bytes) :
    decoder.pushByIndex chunk = some (decoder.push chunk) := by
  have isScanned := @scanFrom_eq decoder.limit [] [] (decoder.buffer ++ chunk)
  rw [pushByIndex]
  exact congrArg _ isScanned

/-- What can be relied on whatever a peer has sent: less is held back than the largest frame
has, it is neither a frame nor a bad length, no index of the next push will be out of range, and
nothing comes of a push without bytes. -/
structure Endures
    (limit : Nat)
    (decoder : FrameDecoder) : Prop where
  buffered_lt : decoder.buffered < max limit Frame.headerLength
  front_eq : front (max limit Frame.headerLength) decoder.buffer = .incomplete
  pushByIndex_eq : ∀ chunk, decoder.pushByIndex chunk = some (decoder.push chunk)
  push_nil : decoder.push [] = ([], decoder)

theorem IsConfined.endures
    {decoder : FrameDecoder}
    (confined : decoder.IsConfined limit) :
    decoder.Endures limit where
  buffered_lt := confined.buffered_lt
  front_eq := confined.limit_eq ▸ confined.front_eq
  pushByIndex_eq := decoder.pushByIndex_eq
  push_nil := confined.push_nil

end FrameDecoder
end ScriptHost
