import ScriptHost.Frame
import Mathlib.Data.List.Basic

/-!
# Framing does not depend on chunks

A stream of bytes has one greedy parse: frames of the lengths that they declare, one after
the other, and a tail in which no further frame is complete. A decoder that is fed the
stream in chunks finds the frames of this parse, wherever the chunks are cut, until the
tail begins with a length that no frame may have.
-/

namespace ScriptHost

/-- A frame as it stands in a stream. Its first four bytes count the whole of it, and the
count is within the limit. -/
structure WireFrame (limit : Nat) where
  a : UInt8
  b : UInt8
  c : UInt8
  d : UInt8
  tag : UInt8
  body : Bytes
  counts : Frame.lengthOf a b c d = Frame.headerLength + body.length
  fits : Frame.lengthOf a b c d ≤ limit

namespace WireFrame

variable {limit : Nat}

/-- The bytes of a frame. -/
def bytes (frame : WireFrame limit) : Bytes :=
  frame.a :: frame.b :: frame.c :: frame.d :: frame.tag :: frame.body

/-- The payload of a frame whose tag is known. -/
def payload? (frame : WireFrame limit) : Option Payload :=
  Payload.ofBody? frame.tag frame.body

/-- The payloads of frames, in order. Frames whose tag is not known have none. -/
def payloads (frames : List (WireFrame limit)) : List Payload :=
  frames.filterMap payload?

/-- The payloads of frames come frame by frame. -/
theorem payloads_cons
    (frame : WireFrame limit)
    (frames : List (WireFrame limit)) :
    payloads (frame :: frames) = frame.payload?.toList ++ payloads frames := by
  rw [payloads, List.filterMap_cons]
  cases frame.payload? <;> rfl

theorem payloads_append (first second : List (WireFrame limit)) :
    payloads (first ++ second) = payloads first ++ payloads second :=
  List.filterMap_append

/-- The complete frame at the front of a byte sequence, and the bytes after it. -/
def cut? (limit : Nat) : Bytes → Option (WireFrame limit × Bytes)
  | a :: b :: c :: d :: tag :: rest =>
      if isFrame : Frame.headerLength ≤ Frame.lengthOf a b c d ∧
          Frame.lengthOf a b c d ≤ limit ∧
          Frame.lengthOf a b c d ≤ Frame.headerLength + rest.length then
        some (
          { a, b, c, d, tag
            body := rest.take (Frame.lengthOf a b c d - Frame.headerLength)
            counts := by
              rw [List.length_take]
              omega
            fits := isFrame.2.1 },
          rest.drop (Frame.lengthOf a b c d - Frame.headerLength))
      else none
  | _ => none

/-- A frame that is cut off a stream stood at its front. -/
theorem eq_append_of_cut?_eq_some
    {stream rest : Bytes}
    {frame : WireFrame limit}
    (isCut : cut? limit stream = some (frame, rest)) :
    stream = frame.bytes ++ rest := by
  unfold cut? at isCut
  split at isCut
  · split at isCut
    · cases isCut
      simp only [bytes, List.cons_append, List.take_append_drop]
    · cases isCut
  · cases isCut

/-- A frame at the front of a stream is cut off it. -/
theorem cut?_bytes_append
    (frame : WireFrame limit)
    (rest : Bytes) :
    cut? limit (frame.bytes ++ rest) = some (frame, rest) := by
  obtain ⟨a, b, c, d, tag, body, counts, fits⟩ := frame
  have bodyLength : Frame.lengthOf a b c d - Frame.headerLength = body.length := by omega
  simp only [bytes, List.cons_append, cut?]
  rw [dif_pos ⟨by omega, fits, by rw [List.length_append]; omega⟩]
  simp only [bodyLength, List.take_left, List.drop_left]

end WireFrame

/-- A byte sequence begins with a length that no frame may have. -/
def IsMalformed (limit : Nat) : Bytes → Prop
  | a :: b :: c :: d :: _ =>
      Frame.lengthOf a b c d < Frame.headerLength ∨ limit < Frame.lengthOf a b c d
  | _ => False

instance (limit : Nat) : DecidablePred (IsMalformed limit)
  | _ :: _ :: _ :: _ :: _ => inferInstanceAs (Decidable (_ ∨ _))
  | [] | [_] | [_, _] | [_, _, _] => inferInstanceAs (Decidable False)

/-- A malformed front stays malformed, whatever follows. -/
theorem IsMalformed.append
    {limit : Nat}
    {bytes : Bytes}
    (malformed : IsMalformed limit bytes)
    (more : Bytes) :
    IsMalformed limit (bytes ++ more) := by
  unfold IsMalformed at malformed
  split at malformed
  · exact malformed
  · exact malformed.elim

/-- No frame stands at the front of a malformed sequence. -/
theorem WireFrame.cut?_of_isMalformed
    {limit : Nat}
    {bytes : Bytes}
    (malformed : IsMalformed limit bytes) :
    cut? limit bytes = none := by
  cases isCut : cut? limit bytes with
  | none => rfl
  | some pair =>
      obtain ⟨frame, rest⟩ := pair
      rw [eq_append_of_cut?_eq_some isCut] at malformed
      have counts := frame.counts
      have fits := frame.fits
      rcases malformed with tooShort | tooLong <;> omega

/-! ## The greedy parse -/

/-- The frames of a stream, in order, and the tail that is left over. -/
def parse
    (limit : Nat)
    (stream : Bytes) : List (WireFrame limit) × Bytes :=
  match _isCut : WireFrame.cut? limit stream with
  | none => ([], stream)
  | some (frame, rest) => (frame :: (parse limit rest).1, (parse limit rest).2)
  termination_by stream.length
  decreasing_by all_goals
    rw [WireFrame.eq_append_of_cut?_eq_some _isCut, List.length_append]
    exact Nat.lt_add_of_pos_left (Nat.succ_pos _)

variable {limit : Nat}

/-- Nothing is parsed where no frame can be cut off. -/
theorem parse_of_cut?_eq_none
    {stream : Bytes}
    (noCut : WireFrame.cut? limit stream = none) :
    parse limit stream = ([], stream) := by
  rw [parse]
  split
  · rfl
  · rename_i isCut
    rw [noCut] at isCut
    cases isCut

/-- A frame at the front of a stream is parsed first. -/
theorem parse_bytes_append
    (frame : WireFrame limit)
    (rest : Bytes) :
    parse limit (frame.bytes ++ rest) =
      (frame :: (parse limit rest).1, (parse limit rest).2) := by
  rw [parse]
  split
  · rename_i noCut
    rw [frame.cut?_bytes_append] at noCut
    cases noCut
  · rename_i isCut
    rw [frame.cut?_bytes_append] at isCut
    cases isCut
    rfl

/-- What holds of every tail, and of a stream if it holds of the stream without its first
frame, holds of every stream. -/
theorem parse_induction
    {motive : Bytes → Prop}
    (tail : ∀ stream, WireFrame.cut? limit stream = none → motive stream)
    (frame : ∀ (frame : WireFrame limit) rest, motive rest → motive (frame.bytes ++ rest))
    (stream : Bytes) :
    motive stream := by
  induction stream using parse.induct limit with
  | case1 stream noCut => exact tail stream noCut
  | case2 stream first rest isCut inductionHypothesis =>
      rw [WireFrame.eq_append_of_cut?_eq_some isCut]
      exact frame first rest inductionHypothesis

/-- The frames and the tail make up the stream. -/
theorem flatMap_bytes_parse (stream : Bytes) :
    (parse limit stream).1.flatMap WireFrame.bytes ++ (parse limit stream).2 = stream := by
  induction stream using @parse_induction limit with
  | tail stream noCut =>
      rw [parse_of_cut?_eq_none noCut]
      rfl
  | frame first rest inductionHypothesis =>
      rw [parse_bytes_append, List.flatMap_cons, List.append_assoc, inductionHypothesis]

/-- No frame is complete in the tail. -/
theorem cut?_parse (stream : Bytes) : WireFrame.cut? limit (parse limit stream).2 = none := by
  induction stream using @parse_induction limit with
  | tail stream noCut =>
      rw [parse_of_cut?_eq_none noCut]
      exact noCut
  | frame first rest inductionHypothesis =>
      rw [parse_bytes_append]
      exact inductionHypothesis

/-- The parse of a longer stream goes on where the parse of its beginning ends. -/
theorem parse_append
    (first second : Bytes) :
    parse limit (first ++ second) =
      ((parse limit first).1 ++ (parse limit ((parse limit first).2 ++ second)).1,
        (parse limit ((parse limit first).2 ++ second)).2) := by
  induction first using @parse_induction limit with
  | tail stream noCut => rw [parse_of_cut?_eq_none noCut, List.nil_append]
  | frame frame rest inductionHypothesis =>
      rw [List.append_assoc, parse_bytes_append, parse_bytes_append, inductionHypothesis]
      rfl

/-- Once a bad length is reached, the parse does not go on. -/
theorem parse_append_of_isMalformed
    {first : Bytes}
    (malformed : IsMalformed limit (parse limit first).2)
    (second : Bytes) :
    parse limit (first ++ second) = ((parse limit first).1, (parse limit first).2 ++ second) := by
  have stops := parse_of_cut?_eq_none
    (WireFrame.cut?_of_isMalformed (malformed.append second))
  rw [parse_append, stops, List.append_nil]

/-! ## What a decoder finds -/

namespace FrameDecoder

/-- A frame at the front of a stream is found there. -/
theorem front_bytes_append
    (frame : WireFrame limit)
    (rest : Bytes) :
    front limit (frame.bytes ++ rest) = .frame frame.tag frame.body rest := by
  obtain ⟨a, b, c, d, tag, body, counts, fits⟩ := frame
  have bodyLength : Frame.lengthOf a b c d - Frame.headerLength = body.length := by omega
  simp only [WireFrame.bytes, List.cons_append, front]
  rw [if_neg (by omega), if_neg (by rw [List.length_append]; omega)]
  simp only [bodyLength, List.take_left, List.drop_left]

/-- Where no frame is at the front, a stream is malformed or incomplete. -/
theorem front_of_cut?_eq_none
    {stream : Bytes}
    (noCut : WireFrame.cut? limit stream = none) :
    front limit stream = if IsMalformed limit stream then .malformed else .incomplete := by
  match stream with
  | [] | [_] | [_, _] | [_, _, _] => rfl
  | a :: b :: c :: d :: rest =>
      by_cases malformed : IsMalformed limit (a :: b :: c :: d :: rest)
      · rw [if_pos malformed]
        exact if_pos malformed
      · rw [if_neg malformed]
        refine (if_neg malformed).trans ?_
        cases rest with
        | nil => rfl
        | cons tag rest =>
            have counts := not_or.mp malformed
            have incomplete : ¬Frame.lengthOf a b c d ≤ Frame.headerLength + rest.length := by
              intro complete
              rw [WireFrame.cut?, dif_pos ⟨by omega, by omega, complete⟩] at noCut
              cases noCut
            exact if_pos (by omega)

/-- A scan ends where the stream is incomplete, and keeps what is left. -/
private theorem scan_of_incomplete
    {stream : Bytes}
    (found : List Payload)
    (isFront : front limit stream = .incomplete) :
    scan limit found stream = (found, stream) := by
  rw [scan]
  split <;> simp_all

/-- A scan ends where the stream is malformed, and drops what is left. -/
private theorem scan_of_malformed
    {stream : Bytes}
    (found : List Payload)
    (isFront : front limit stream = .malformed) :
    scan limit found stream = (found, []) := by
  rw [scan]
  split <;> simp_all

/-- A scan passes over a frame and finds its payload. -/
private theorem scan_bytes_append
    (found : List Payload)
    (frame : WireFrame limit)
    (rest : Bytes) :
    scan limit found (frame.bytes ++ rest) =
      scan limit (frame.payload?.toList ++ found) rest := by
  rw [scan]
  split
  · rename_i isFront
    rw [front_bytes_append] at isFront
    cases isFront
  · rename_i isFront
    rw [front_bytes_append] at isFront
    cases isFront
  · rename_i isFront
    rw [front_bytes_append] at isFront
    cases isFront
    rw [WireFrame.payload?]
    cases Payload.ofBody? frame.tag frame.body <;> rfl

/-- A scan finds the payloads of the parse. It keeps the tail, unless a bad length makes it
drop the tail. -/
theorem scan_eq
    (found : List Payload)
    (stream : Bytes) :
    scan limit found stream =
      ((WireFrame.payloads (parse limit stream).1).reverse ++ found,
        if IsMalformed limit (parse limit stream).2 then [] else (parse limit stream).2) := by
  induction stream using @parse_induction limit generalizing found with
  | tail stream noCut =>
      rw [parse_of_cut?_eq_none noCut]
      have isFront := front_of_cut?_eq_none noCut
      by_cases malformed : IsMalformed limit stream
      · rw [if_pos malformed] at isFront
        rw [scan_of_malformed found isFront, if_pos malformed]
        rfl
      · rw [if_neg malformed] at isFront
        rw [scan_of_incomplete found isFront, if_neg malformed]
        rfl
  | frame frame rest inductionHypothesis =>
      rw [parse_bytes_append, scan_bytes_append, inductionHypothesis, WireFrame.payloads_cons,
        List.reverse_append, List.append_assoc]
      cases frame.payload? <;> rfl

/-- A push finds the payloads of the frames that a stream holds now. -/
theorem push_eq
    (decoder : FrameDecoder)
    (chunk : Bytes) :
    decoder.push chunk =
      (WireFrame.payloads (parse decoder.limit (decoder.buffer ++ chunk)).1,
        { decoder with
          buffer := if IsMalformed decoder.limit (parse decoder.limit (decoder.buffer ++ chunk)).2
            then [] else (parse decoder.limit (decoder.buffer ++ chunk)).2 }) := by
  simp only [push, scan_eq, List.append_nil, List.reverse_reverse]

/-! ## Chunk after chunk -/

/-- Push chunks one after the other. -/
def pushAll (decoder : FrameDecoder) : List Bytes → List Payload × FrameDecoder
  | [] => ([], decoder)
  | chunk :: chunks =>
      let (payloads, next) := decoder.push chunk
      let (morePayloads, last) := next.pushAll chunks
      (payloads ++ morePayloads, last)

/-- Chunks can be pushed one sequence after the other. -/
theorem pushAll_append
    (decoder : FrameDecoder)
    (first second : List Bytes) :
    decoder.pushAll (first ++ second) =
      ((decoder.pushAll first).1 ++ ((decoder.pushAll first).2.pushAll second).1,
        ((decoder.pushAll first).2.pushAll second).2) := by
  induction first generalizing decoder with
  | nil => rfl
  | cons chunk first inductionHypothesis =>
      simp only [List.cons_append, pushAll, inductionHypothesis, List.append_assoc]

@[simp] theorem limit_pushAll
    (decoder : FrameDecoder)
    (chunks : List Bytes) :
    (decoder.pushAll chunks).2.limit = decoder.limit := by
  induction chunks generalizing decoder with
  | nil => rfl
  | cons chunk chunks inductionHypothesis => exact inductionHypothesis _

/-- Whatever a new decoder has seen, it is as good as new once it has forgotten it. -/
theorem clear_pushAll_new
    (limit : Nat)
    (chunks : List Bytes) :
    ((new limit).pushAll chunks).2.clear = new limit := by
  rw [clear, limit_pushAll]
  rfl

/-- A decoder that has seen the beginning of a stream, and holds its tail. -/
def after
    (limit : Nat)
    (stream : Bytes) : FrameDecoder :=
  ⟨limit, (parse limit stream).2⟩

/-- One chunk takes the decoder from a beginning of the stream to a longer one. -/
theorem push_after
    (stream chunk : Bytes) :
    (after limit stream).push chunk =
      (WireFrame.payloads (parse limit ((parse limit stream).2 ++ chunk)).1,
        if IsMalformed limit (parse limit (stream ++ chunk)).2 then ⟨limit, []⟩
        else after limit (stream ++ chunk)) := by
  have sameTail : (parse limit (stream ++ chunk)).2 =
      (parse limit ((parse limit stream).2 ++ chunk)).2 := by
    rw [parse_append]
  simp only [push_eq, after, sameTail]
  split <;> rfl

/-- As long as no bad length is reached, the decoder holds the tail of the stream. -/
theorem pushAll_after
    {stream : Bytes}
    {chunks : List Bytes}
    (clean : ¬IsMalformed limit (parse limit (stream ++ chunks.flatten)).2) :
    WireFrame.payloads (parse limit stream).1 ++ ((after limit stream).pushAll chunks).1 =
        WireFrame.payloads (parse limit (stream ++ chunks.flatten)).1 ∧
      ((after limit stream).pushAll chunks).2 = after limit (stream ++ chunks.flatten) := by
  induction chunks generalizing stream with
  | nil =>
      rw [List.flatten_nil, List.append_nil]
      exact ⟨List.append_nil _, rfl⟩
  | cons chunk chunks inductionHypothesis =>
      rw [List.flatten_cons, ← List.append_assoc] at clean ⊢
      have cleanSoFar : ¬IsMalformed limit (parse limit (stream ++ chunk)).2 := by
        intro malformed
        rw [parse_append_of_isMalformed malformed] at clean
        exact clean (malformed.append _)
      obtain ⟨samePayloads, sameDecoder⟩ := inductionHypothesis clean
      rw [pushAll, push_after, if_neg cleanSoFar]
      refine ⟨?_, sameDecoder⟩
      rw [← samePayloads, parse_append stream chunk, WireFrame.payloads_append,
        List.append_assoc]

/-- However a stream is cut into chunks, a decoder finds the payloads of its greedy parse
and holds back its tail, until a bad length is reached. The chunk that completes the bad
length brings the payloads that were missing before it, and leaves a decoder that is as
good as new. -/
theorem pushAll_follows_parse
    {limit cap : Nat}
    {chunks : List Bytes}
    (isCap : cap = max limit Frame.headerLength)
    (clean : ¬IsMalformed cap (parse cap chunks.flatten).2) :
    ((new limit).pushAll chunks).1 = WireFrame.payloads (parse cap chunks.flatten).1 ∧
      ((new limit).pushAll chunks).2.buffered = (parse cap chunks.flatten).2.length ∧
      (∀ others : List Bytes, others.flatten = chunks.flatten →
        ((new limit).pushAll others).1 = ((new limit).pushAll chunks).1 ∧
          ((new limit).pushAll others).2.buffered =
            ((new limit).pushAll chunks).2.buffered) ∧
      ∀ chunk, IsMalformed cap (parse cap (chunks.flatten ++ chunk)).2 →
        ((new limit).pushAll chunks).1 ++ (((new limit).pushAll chunks).2.push chunk).1 =
            WireFrame.payloads (parse cap (chunks.flatten ++ chunk)).1 ∧
          (((new limit).pushAll chunks).2.push chunk).2 = new limit ∧
          ∀ others, (new limit).pushAll (chunks ++ chunk :: others) =
            (WireFrame.payloads (parse cap (chunks.flatten ++ chunk)).1 ++
              ((new limit).pushAll others).1, ((new limit).pushAll others).2) := by
  have start : new limit = after cap [] := by
    rw [isCap, after, parse_of_cut?_eq_none rfl]
    rfl
  have follows : ∀ others : List Bytes, others.flatten = chunks.flatten →
      ((new limit).pushAll others).1 = WireFrame.payloads (parse cap chunks.flatten).1 ∧
        ((new limit).pushAll others).2 = after cap chunks.flatten := by
    intro others sameStream
    rw [← sameStream, ← List.nil_append others.flatten] at clean
    obtain ⟨samePayloads, sameDecoder⟩ := pushAll_after clean
    rw [parse_of_cut?_eq_none rfl] at samePayloads
    rw [start, ← sameStream]
    exact ⟨samePayloads, sameDecoder⟩
  obtain ⟨samePayloads, sameDecoder⟩ := follows chunks rfl
  refine ⟨samePayloads, congrArg buffered sameDecoder, ?_, ?_⟩
  · intro others sameStream
    obtain ⟨otherPayloads, otherDecoder⟩ := follows others sameStream
    rw [samePayloads, sameDecoder, otherPayloads, otherDecoder]
    exact ⟨rfl, rfl⟩
  · intro chunk malformed
    have isNew : new limit = ⟨cap, []⟩ := by
      rw [isCap]
      rfl
    have pushed : (after cap chunks.flatten).push chunk =
        (WireFrame.payloads (parse cap ((parse cap chunks.flatten).2 ++ chunk)).1, new limit) := by
      rw [push_after, if_pos malformed, isNew]
    have allPayloads : WireFrame.payloads (parse cap (chunks.flatten ++ chunk)).1 =
        WireFrame.payloads (parse cap chunks.flatten).1 ++
          WireFrame.payloads (parse cap ((parse cap chunks.flatten).2 ++ chunk)).1 := by
      rw [parse_append, WireFrame.payloads_append]
    rw [samePayloads, sameDecoder, pushed, allPayloads]
    refine ⟨rfl, rfl, ?_⟩
    intro others
    rw [pushAll_append, samePayloads, sameDecoder, pushAll, pushed, List.append_assoc]

/-- A frame, cut within its length, and the length of another. -/
def cutStream : List Bytes :=
  [[7, 0, 0], [0, 0, 104], [105, 6, 0, 0, 0]]

/-- A stream that is cut within a frame keeps the part that has come, and a bad length empties the
decoder. -/
theorem pushAll_cutStream :
    ((new 8).pushAll cutStream).1 = [.bytes [104, 105]] ∧
      ((new 8).pushAll cutStream).2.buffered = 4 ∧
      (((new 8).pushAll cutStream).2.push [0, 65, 0, 0, 0, 9]).2 = new 8 := by
  let first : WireFrame 8 := ⟨7, 0, 0, 0, 0, [104, 105], rfl, by decide⟩
  let second : WireFrame 8 := ⟨6, 0, 0, 0, 0, [65], rfl, by decide⟩
  have isParsed : parse 8 cutStream.flatten = ([first], [6, 0, 0, 0]) := by
    rw [show cutStream.flatten = first.bytes ++ [6, 0, 0, 0] from rfl, parse_bytes_append,
      parse_of_cut?_eq_none rfl]
  have isBad : parse 8 (cutStream.flatten ++ [0, 65, 0, 0, 0, 9]) =
      ([first, second], [0, 0, 0, 9]) := by
    rw [show cutStream.flatten ++ [0, 65, 0, 0, 0, 9] =
      first.bytes ++ (second.bytes ++ [0, 0, 0, 9]) from rfl, parse_bytes_append,
      parse_bytes_append, parse_of_cut?_eq_none rfl]
  obtain ⟨samePayloads, sameCount, -, resets⟩ :=
    @pushAll_follows_parse 8 8 cutStream rfl (by rw [isParsed]; decide)
  rw [isParsed] at samePayloads sameCount
  have isReset := resets [0, 65, 0, 0, 0, 9] (by rw [isBad]; decide)
  exact ⟨samePayloads, sameCount, isReset.2.1⟩

end FrameDecoder

end ScriptHost
