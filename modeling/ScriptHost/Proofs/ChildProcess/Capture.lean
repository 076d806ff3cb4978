import ScriptHost.Proofs.Text.Lines
import ScriptHost.Shell.Machine

/-!
# What is captured of a child

Bytes come from the two streams of a child in chunks that are cut anywhere and mixed in any
way, and each stream ends when it likes. What is captured is merged from the lines of the two
streams: every line is whole and in its normal form, and the lines of one stream keep their
order. A stream that cannot be read to its end gives the lines that have ended by then.
-/

namespace ScriptHost

/-- The stream beside a stream. -/
def Stream.other : Stream → Stream
  | .output => .errors
  | .errors => .output

/-- The two streams deliver what was written to them: each stream in any number of chunks, and
then its end. How chunks of one stream are mixed with those of the other is left open. -/
def Delivers
    (written : Stream → Bytes)
    (arrivals : List Arrival) : Prop :=
  ∀ stream, ∃ chunks : List Bytes,
    chunks.flatten = written stream ∧
      arrivals.filter (·.stream = stream) = chunks.map (.bytes stream) ++ [.ended stream]

/-- A list is merged from one list for each stream: every item has the tag of a stream, and the
items with the tag of a stream are those of its list, in order. -/
def IsMerged
    {α : Type}
    (parts : Stream → List α)
    (merged : List α) : Prop :=
  ∃ tagged : List (Stream × α),
    tagged.map Prod.snd = merged ∧
      ∀ stream, (tagged.filter (·.1 = stream)).map Prod.snd = parts stream

namespace IsMerged

variable {α β : Type} {parts otherParts : Stream → List α} {merged otherMerged : List α}

theorem nil : IsMerged (fun _ => ([] : List α)) [] :=
  ⟨[], rfl, fun _ => rfl⟩

/-- All items are of one stream. -/
theorem ofStream
    (stream : Stream)
    (items : List α) :
    IsMerged (fun other => if other = stream then items else []) items := by
  refine ⟨items.map (stream, ·), by simp [Function.comp_def], fun other => ?_⟩
  rw [List.filter_map, List.map_map]
  by_cases same : other = stream
  · simp [Function.comp_def, same]
  · simp [Function.comp_def, Ne.symm same, same]

/-- Sequences that follow on each other can be merged one after the other. -/
theorem append
    (isMerged : IsMerged parts merged)
    (others : IsMerged otherParts otherMerged) :
    IsMerged (fun stream => parts stream ++ otherParts stream) (merged ++ otherMerged) := by
  obtain ⟨tagged, rfl, areParts⟩ := isMerged
  obtain ⟨otherTagged, rfl, areOtherParts⟩ := others
  refine ⟨tagged ++ otherTagged, List.map_append, fun stream => ?_⟩
  rw [List.filter_append, List.map_append, areParts, areOtherParts]

/-- What is merged can be changed item by item before or after. -/
theorem map
    (isMerged : IsMerged parts merged)
    (change : α → β) :
    IsMerged (fun stream => (parts stream).map change) (merged.map change) := by
  obtain ⟨tagged, rfl, areParts⟩ := isMerged
  refine ⟨tagged.map (Prod.map id change), by simp [Function.comp_def], fun stream => ?_⟩
  simp only [← areParts, List.filter_map, List.map_map]
  rfl

/-- What is merged comes from one of the streams. -/
theorem exists_mem_part
    (isMerged : IsMerged parts merged)
    {item : α}
    (isItem : item ∈ merged) :
    ∃ stream, item ∈ parts stream := by
  obtain ⟨tagged, rfl, areParts⟩ := isMerged
  obtain ⟨⟨stream, _⟩, isTagged, rfl⟩ := List.mem_map.mp isItem
  refine ⟨stream, ?_⟩
  rw [← areParts]
  exact List.mem_map_of_mem (List.mem_filter.mpr ⟨isTagged, by simp⟩)

/-- If the other stream gives nothing, there is nothing to merge. -/
theorem eq_part
    (isMerged : IsMerged parts merged)
    {stream : Stream}
    (isSilent : parts stream.other = []) :
    merged = parts stream := by
  obtain ⟨tagged, rfl, areParts⟩ := isMerged
  rw [← areParts, List.map_eq_nil_iff, List.filter_eq_nil_iff] at isSilent
  rw [← areParts, List.filter_eq_self.mpr]
  intro item isTagged
  have notOther := isSilent item isTagged
  cases stream <;> cases tag : item.1 <;> simp_all [Stream.other]

end IsMerged

namespace Capture

/-! ## Lines of bytes -/

/-- The lines of a stream as they are read, each with its line feed. What follows the last line
feed is a line unless it is empty. -/
def pieces (bytes : Bytes) : List Bytes :=
  (cutLines bytes).1 ++ if (cutLines bytes).2 = [] then [] else [(cutLines bytes).2]

/-- Bytes without a line feed are a line that has begun. -/
theorem cutLines_of_notMem
    {line : Bytes}
    (noLineFeed : lineFeed ∉ line) :
    cutLines line = ([], line) := by
  induction line with
  | nil => rfl
  | cons byte line inductionHypothesis =>
      rw [List.mem_cons, not_or] at noLineFeed
      simp only [cutLines, inductionHypothesis noLineFeed.2]
      rw [if_neg (Ne.symm noLineFeed.1)]

/-- A line ends with its line feed. -/
theorem cutLines_append
    {line : Bytes}
    (noLineFeed : lineFeed ∉ line)
    (rest : Bytes) :
    cutLines (line ++ lineFeed :: rest) =
      ((line ++ [lineFeed]) :: (cutLines rest).1, (cutLines rest).2) := by
  induction line with
  | nil => simp [cutLines]
  | cons byte line inductionHypothesis =>
      rw [List.mem_cons, not_or] at noLineFeed
      simp only [List.cons_append, cutLines, inductionHypothesis noLineFeed.2]
      rw [if_neg (Ne.symm noLineFeed.1)]

/-- Bytes are a line that has not ended, or a line that has, and more bytes. -/
@[elab_as_elim]
theorem lineInduction
    {motive : Bytes → Prop}
    (unended : ∀ line, lineFeed ∉ line → motive line)
    (ended : ∀ line rest, lineFeed ∉ line → motive rest → motive (line ++ lineFeed :: rest))
    (bytes : Bytes) :
    motive bytes := by
  induction h : bytes.length using Nat.strongRecOn generalizing bytes with
  | _ size inductionHypothesis =>
    by_cases hasLineFeed : lineFeed ∈ bytes
    · obtain ⟨line, rest, rfl, noLineFeed⟩ := List.eq_append_cons_of_mem hasLineFeed
      have shorter : rest.length < size := by
        rw [← h, List.length_append, List.length_cons]
        omega
      exact ended line rest noLineFeed (inductionHypothesis _ shorter rest rfl)
    · exact unended bytes hasLineFeed

/-- The line that has begun has no line feed yet. -/
theorem notMem_snd_cutLines (bytes : Bytes) : lineFeed ∉ (cutLines bytes).2 := by
  induction bytes using lineInduction with
  | unended line noLineFeed => rwa [cutLines_of_notMem noLineFeed]
  | ended line rest noLineFeed inductionHypothesis => rwa [cutLines_append noLineFeed]

/-- Bytes without a line feed are one piece, if there are any. -/
theorem pieces_of_notMem
    {line : Bytes}
    (noLineFeed : lineFeed ∉ line) :
    pieces line = if line = [] then [] else [line] := by
  rw [pieces, cutLines_of_notMem noLineFeed, List.nil_append]

/-- The first piece ends with the first line feed. -/
theorem pieces_append_lineFeed
    {line : Bytes}
    (noLineFeed : lineFeed ∉ line)
    (rest : Bytes) :
    pieces (line ++ lineFeed :: rest) = (line ++ [lineFeed]) :: pieces rest := by
  rw [pieces, cutLines_append noLineFeed]
  rfl

/-- The lines that have ended are pieces for good, whatever follows. -/
theorem pieces_append (bytes more : Bytes) :
    pieces (bytes ++ more) = (cutLines bytes).1 ++ pieces ((cutLines bytes).2 ++ more) := by
  induction bytes using lineInduction with
  | unended line noLineFeed => rw [cutLines_of_notMem noLineFeed, List.nil_append]
  | ended line rest noLineFeed inductionHypothesis =>
      rw [List.append_assoc, List.cons_append, pieces_append_lineFeed noLineFeed,
        inductionHypothesis, cutLines_append noLineFeed]
      rfl

/-- Lines that have ended stay lines when more bytes come. -/
theorem fst_cutLines_append (bytes more : Bytes) :
    (cutLines (bytes ++ more)).1 =
      (cutLines bytes).1 ++ (cutLines ((cutLines bytes).2 ++ more)).1 := by
  induction bytes using lineInduction with
  | unended line noLineFeed => rw [cutLines_of_notMem noLineFeed, List.nil_append]
  | ended line rest noLineFeed inductionHypothesis =>
      rw [List.append_assoc, List.cons_append, cutLines_append noLineFeed,
        cutLines_append noLineFeed, inductionHypothesis]
      rfl

/-- Whole lines are cut into themselves. -/
theorem pieces_flatten_cutLines (bytes : Bytes) :
    pieces (cutLines bytes).1.flatten = (cutLines bytes).1 := by
  induction bytes using lineInduction with
  | unended line noLineFeed =>
      rw [cutLines_of_notMem noLineFeed]
      rfl
  | ended line rest noLineFeed inductionHypothesis =>
      rw [cutLines_append noLineFeed, List.flatten_cons, List.append_assoc, List.singleton_append,
        pieces_append_lineFeed noLineFeed, inductionHypothesis]

/-- What is kept of the bytes of a stream: all of them, or the lines that have ended if reading
fails. -/
def taken (fails : Bool) (bytes : Bytes) : Bytes :=
  if fails then (cutLines bytes).1.flatten else bytes

/-- A stream tells the whole lines of what has come, and goes on with the line that has begun. -/
theorem pieces_taken_append (fails : Bool) (bytes more : Bytes) :
    pieces (taken fails (bytes ++ more)) =
      (cutLines bytes).1 ++ pieces (taken fails ((cutLines bytes).2 ++ more)) := by
  cases fails with
  | false => exact pieces_append bytes more
  | true =>
      simp only [taken, if_true, pieces_flatten_cutLines]
      exact fst_cutLines_append bytes more

/-! ## The text of a line -/

/-- Of the line ends, a line without a line feed can only lose carriage returns. -/
theorem rdropWhile_isLineEnd
    {content : List Char}
    (noLineFeed : '\n' ∉ content) :
    content.rdropWhile isLineEnd = content.rdropWhile (· = '\r') := by
  induction content using List.reverseRecOn with
  | nil => rfl
  | append_singleton content char inductionHypothesis =>
      rw [List.mem_append, List.mem_singleton, not_or] at noLineFeed
      have sameEnd : isLineEnd char = decide (char = '\r') := by
        simp [isLineEnd, Ne.symm noLineFeed.2]
      rw [List.rdropWhile_concat, List.rdropWhile_concat, sameEnd,
        inductionHypothesis noLineFeed.1]

/-- The text of a line ends with one line feed in place of its line end. -/
theorem toList_lineText (line : Bytes) :
    (lineText line).toList = (Utf8.decoded line).rdropWhile isLineEnd ++ ['\n'] := by
  rw [lineText, String.toList_append, dropLineEnd, String.toList_ofList, Utf8.toList_decodeLossy]
  rfl

/-- A line that is not ended has the text of a line. -/
theorem toList_lineText_unended
    {line : Bytes}
    (noLineFeed : lineFeed ∉ line) :
    (lineText line).toList = Text.normalLine (Utf8.decoded line) := by
  rw [toList_lineText, rdropWhile_isLineEnd (Utf8.notMem_decoded noLineFeed), Text.normalLine]

/-- A line that is ended has the text of a line. -/
theorem toList_lineText_ended
    {line : Bytes}
    (noLineFeed : lineFeed ∉ line) :
    (lineText (line ++ [lineFeed])).toList = Text.normalLine (Utf8.decoded line) := by
  have isDecoded : Utf8.decoded (line ++ [lineFeed]) = Utf8.decoded line ++ ['\n'] := by
    rw [lineFeed, Utf8.decoded_append_lineFeed, Utf8.decoded_nil]
  rw [toList_lineText, isDecoded, List.rdropWhile_concat_pos _ _ _ rfl,
    rdropWhile_isLineEnd (Utf8.notMem_decoded noLineFeed), Text.normalLine]

/-- The lines that are kept of a stream are those of its text. -/
theorem map_lineText_pieces (bytes : Bytes) :
    (pieces bytes).map (fun line => (lineText line).toList) =
      Text.normalLines (Utf8.decoded bytes) := by
  induction bytes using lineInduction with
  | unended line noLineFeed =>
      rw [pieces_of_notMem noLineFeed]
      split_ifs with isEmpty
      · rw [isEmpty, Utf8.decoded_nil]
        rfl
      · rw [Text.normalLines, Text.lines_of_notMem (Utf8.notMem_decoded noLineFeed)
          (Utf8.decoded_ne_nil isEmpty), List.map_singleton, List.map_singleton,
          toList_lineText_unended noLineFeed]
  | ended line rest noLineFeed inductionHypothesis =>
      rw [pieces_append_lineFeed noLineFeed, List.map_cons, inductionHypothesis,
        toList_lineText_ended noLineFeed, lineFeed, Utf8.decoded_append_lineFeed,
        Text.normalLines_append (Utf8.notMem_decoded noLineFeed)]

/-- To read line by line is to read the whole. -/
theorem flatten_decoded_pieces (bytes : Bytes) :
    ((pieces bytes).map Utf8.decoded).flatten = Utf8.decoded bytes := by
  induction bytes using lineInduction with
  | unended line noLineFeed =>
      rw [pieces_of_notMem noLineFeed]
      split_ifs with isEmpty
      · rw [isEmpty, Utf8.decoded_nil]
        rfl
      · exact List.append_nil _
  | ended line rest noLineFeed inductionHypothesis =>
      rw [pieces_append_lineFeed noLineFeed, List.map_cons, List.flatten_cons,
        inductionHypothesis, lineFeed, Utf8.decoded_append_lineFeed,
        Utf8.decoded_append_lineFeed, Utf8.decoded_nil, List.append_assoc]
      rfl

/-! ## Arrivals -/

/-- The bytes that come from a stream. -/
def bytesFrom (stream : Stream) (arrivals : List Arrival) : Bytes :=
  (arrivals.filter (·.stream = stream)).flatMap Arrival.content

/-- Whether reading a stream fails. -/
def failsOn (stream : Stream) (arrivals : List Arrival) : Bool :=
  arrivals.any (· = .failed stream)

/-- A stream of which nothing arrives does not fail. -/
theorem failsOn_of_filter_eq_nil
    {stream : Stream}
    {arrivals : List Arrival}
    (nothing : arrivals.filter (·.stream = stream) = []) :
    failsOn stream arrivals = false := by
  rw [List.filter_eq_nil_iff] at nothing
  rw [failsOn, List.any_eq_false]
  intro arrival isArrival isFailure
  rw [of_decide_eq_true isFailure] at isArrival
  exact nothing _ isArrival (decide_eq_true rfl)

/-- Whether a stream fails does not depend on what arrives of the other one. -/
theorem failsOn_cons_of_ne
    {stream : Stream}
    {arrival : Arrival}
    (isOther : arrival ≠ .failed stream)
    (arrivals : List Arrival) :
    failsOn stream (arrival :: arrivals) = failsOn stream arrivals := by
  rw [failsOn, List.any_cons, decide_eq_false isOther, Bool.false_or, failsOn]

variable {capture : Capture} {stream : Stream}

theorem begun_setBegun (line : Bytes) : (capture.setBegun line stream).begun stream = line := by
  cases stream <;> rfl

/-- A line that begins on one stream leaves that of the other one as it is. -/
theorem begun_setBegun_of_ne
    {other : Stream}
    (isOther : other ≠ stream)
    (line : Bytes) :
    (capture.setBegun line other).begun stream = capture.begun stream := by
  cases other <;> cases stream <;> first | rfl | exact absurd rfl isOther

/-- With a chunk come the lines that it ends. -/
theorem lines_receive (chunk : Bytes) :
    (capture.receive stream chunk).lines =
      capture.lines ++ (cutLines (capture.begun stream ++ chunk)).1 := by
  cases stream <;> rfl

/-- After a chunk, the line has begun that it leaves unended. -/
theorem begun_receive (chunk : Bytes) :
    (capture.receive stream chunk).begun stream =
      (cutLines (capture.begun stream ++ chunk)).2 :=
  begun_setBegun _

/-- The end of a stream tells the line that has begun, if there is one. -/
theorem lines_finish :
    (capture.finish stream).lines =
      capture.lines ++ if capture.begun stream = [] then [] else [capture.begun stream] := by
  unfold finish
  split
  next nothing => rw [if_pos nothing, List.append_nil]
  next line isSome =>
    rw [if_neg isSome]
    cases stream <;> rfl

theorem begun_finish : (capture.finish stream).begun stream = [] := by
  unfold finish
  split
  next nothing => exact nothing
  next => exact begun_setBegun _

theorem lines_giveUp : (capture.giveUp stream).lines = capture.lines := by
  cases stream <;> rfl

/-- What comes from one stream leaves the line that has begun on the other. -/
theorem begun_arrive_of_ne
    {arrival : Arrival}
    (isOther : arrival.stream ≠ stream) :
    (capture.arrive arrival).begun stream = capture.begun stream := by
  cases arrival with
  | bytes other chunk => exact begun_setBegun_of_ne isOther _
  | ended other =>
      simp only [arrive, finish]
      split
      next => rfl
      next => exact begun_setBegun_of_ne isOther _
  | failed other => exact begun_setBegun_of_ne isOther _

/-- What is still to come from a stream: it is to be read out, or nothing comes any more. -/
def Awaits
    (capture : Capture)
    (stream : Stream)
    (arrivals : List Arrival) : Prop :=
  lineFeed ∉ capture.begun stream ∧
    (IsReadOut arrivals stream ∨
      arrivals.filter (·.stream = stream) = [] ∧ capture.begun stream = [])

/-- What arrives of the other stream changes nothing that a stream waits for. -/
theorem Awaits.arrive_of_ne
    {arrival : Arrival}
    {arrivals : List Arrival}
    (awaits : Awaits capture stream (arrival :: arrivals))
    (isOther : arrival.stream ≠ stream) :
    Awaits (capture.arrive arrival) stream arrivals := by
  rw [Awaits, IsReadOut, List.filter_cons_of_neg (by simpa using isOther)] at awaits
  rwa [Awaits, begun_arrive_of_ne isOther]

/-- What comes next from a stream ends some of its lines, and the others are still to come. -/
theorem Awaits.arrive
    {arrival : Arrival}
    {arrivals : List Arrival}
    (awaits : Awaits capture stream (arrival :: arrivals))
    (same : arrival.stream = stream) :
    Awaits (capture.arrive arrival) stream arrivals ∧
      ∃ kept, (capture.arrive arrival).lines = capture.lines ++ kept ∧
        pieces (taken (failsOn stream (arrival :: arrivals))
            (capture.begun stream ++ bytesFrom stream (arrival :: arrivals))) =
          kept ++ pieces (taken (failsOn stream arrivals)
            ((capture.arrive arrival).begun stream ++ bytesFrom stream arrivals)) := by
  rw [bytesFrom, List.filter_cons_of_pos (by simpa using same), List.flatMap_cons, ← bytesFrom]
  obtain ⟨noLineFeed, ⟨chunks, last, isLast, areChunks⟩ | ⟨isOver, -⟩⟩ := awaits
  · rw [List.filter_cons_of_pos (by simpa using same)] at areChunks
    cases chunks with
    | nil =>
        -- Nothing more comes from the stream, so what has begun is kept or lost for good.
        obtain ⟨rfl, areOthers⟩ := List.cons.inj areChunks
        have nothingElse : bytesFrom stream arrivals = [] := by
          rw [bytesFrom, areOthers]
          rfl
        rw [nothingElse, failsOn_of_filter_eq_nil areOthers]
        cases arrival with
        | bytes => cases isLast
        | ended other =>
            obtain rfl : other = stream := same
            rw [failsOn_cons_of_ne (by rintro ⟨⟩), failsOn_of_filter_eq_nil areOthers]
            refine ⟨⟨?_, .inr ⟨areOthers, begun_finish⟩⟩, _, lines_finish, ?_⟩
            · rw [Capture.arrive, begun_finish]
              exact List.not_mem_nil
            · rw [Capture.arrive, begun_finish, Arrival.content, List.append_nil,
                List.append_nil, taken, if_neg Bool.false_ne_true,
                pieces_of_notMem noLineFeed]
              exact (List.append_nil _).symm
        | failed other =>
            obtain rfl : other = stream := same
            have fails : failsOn other (.failed other :: arrivals) = true := by
              rw [failsOn, List.any_cons, decide_eq_true rfl, Bool.true_or]
            have begun : (capture.giveUp other).begun other = [] := begun_setBegun _
            refine ⟨⟨?_, .inr ⟨areOthers, begun⟩⟩, [], ?_, ?_⟩
            · rw [Capture.arrive, begun]
              exact List.not_mem_nil
            · rw [List.append_nil]
              exact lines_giveUp
            · rw [fails, Capture.arrive, begun, Arrival.content, List.append_nil,
                List.append_nil, taken, if_pos rfl, cutLines_of_notMem noLineFeed]
              rfl
    | cons chunk chunks =>
        obtain ⟨rfl, areOthers⟩ := List.cons.inj areChunks
        rw [failsOn_cons_of_ne (by rintro ⟨⟩)]
        refine ⟨⟨?_, .inl ⟨chunks, last, isLast, areOthers⟩⟩, _, lines_receive chunk, ?_⟩
        · rw [Capture.arrive, begun_receive]
          exact notMem_snd_cutLines _
        · rw [Capture.arrive, begun_receive, Arrival.content, ← List.append_assoc,
            pieces_taken_append]
  · rw [List.filter_cons_of_pos (by simpa using same)] at isOver
    cases isOver

/-- What is kept from now on is merged from the lines that come from the streams, those that
have begun included. -/
theorem isMerged_of_awaits
    (arrivals : List Arrival)
    (awaits : ∀ stream, Awaits capture stream arrivals) :
    ∃ kept, (arrivals.foldl arrive capture).lines = capture.lines ++ kept ∧
      IsMerged (fun stream => pieces (taken (failsOn stream arrivals)
        (capture.begun stream ++ bytesFrom stream arrivals))) kept := by
  induction arrivals generalizing capture with
  | nil =>
      have nothing : ∀ stream, capture.begun stream = [] := by
        intro stream
        obtain ⟨-, ⟨chunks, last, -, areChunks⟩ | ⟨-, isEmpty⟩⟩ := awaits stream
        · cases chunks <;> cases areChunks
        · exact isEmpty
      refine ⟨[], (List.append_nil _).symm, ?_⟩
      simp only [nothing]
      exact IsMerged.nil
  | cons arrival arrivals inductionHypothesis =>
      obtain ⟨awaitsSame, new, areLines, arePieces⟩ := (awaits arrival.stream).arrive rfl
      have awaitsNext : ∀ stream, Awaits (capture.arrive arrival) stream arrivals := by
        intro stream
        by_cases same : arrival.stream = stream
        · exact same ▸ awaitsSame
        · exact (awaits stream).arrive_of_ne same
      obtain ⟨later, areLater, isMerged⟩ := inductionHypothesis awaitsNext
      refine ⟨new ++ later, ?_, ?_⟩
      · rw [List.foldl_cons, areLater, areLines, List.append_assoc]
      -- New lines are of the stream that something comes from; the other one has none of them.
      · convert (IsMerged.ofStream arrival.stream new).append isMerged using 2 with stream
        split_ifs with same
        · rw [same, arePieces]
        · have isOther : arrival ≠ .failed stream := by
            rintro rfl
            exact same rfl
          rw [begun_arrive_of_ne (Ne.symm same), failsOn_cons_of_ne isOther, bytesFrom,
            List.filter_cons_of_neg (by simpa using Ne.symm same)]
          rfl

/-! ## What is captured -/

/-- The normal form of the text that bytes are read as. -/
def normalText (bytes : Bytes) : String :=
  String.ofList (Text.normalForm (Utf8.decodeLossy bytes).toList)

/-- A text keeps the lines of what was written to two streams: it is merged from the normal
lines of both, it is the normal form of what was written to one if nothing was to the other, and
it has its normal form itself. -/
structure KeepsLines
    (written : Stream → Bytes)
    (text : String) : Prop where
  isMerged : ∃ lines,
    IsMerged (fun stream => Text.normalLines (Utf8.decodeLossy (written stream)).toList) lines ∧
      text = String.ofList lines.flatten
  ofSilent : ∀ stream, written stream.other = [] → text = normalText (written stream)
  isNormal : normalText (Utf8.encode text) = text

/-- Texts that are merged line by line keep the lines of both streams. -/
theorem keepsLines_of_isMerged
    {written : Stream → Bytes}
    {lines : List (List Char)}
    (isMerged : IsMerged (fun stream => Text.normalLines (Utf8.decoded (written stream))) lines) :
    KeepsLines written (String.ofList lines.flatten) where
  isMerged := ⟨lines, by simpa only [Utf8.toList_decodeLossy] using isMerged, rfl⟩
  ofSilent := by
    intro stream isSilent
    have nothing : Text.normalLines (Utf8.decoded (written stream.other)) = [] := by
      rw [isSilent, Utf8.decoded_nil]
      rfl
    rw [isMerged.eq_part nothing, normalText, Utf8.toList_decodeLossy, Text.normalForm]
  isNormal := by
    have areNormal : ∀ line ∈ lines, Text.IsNormal line := by
      intro line isLine
      obtain ⟨stream, isOfStream⟩ := isMerged.exists_mem_part isLine
      exact Text.isNormal_of_mem_normalLines isOfStream
    rw [normalText, Utf8.decodeLossy_encode, String.toList_ofList,
      Text.normalForm_flatten areNormal]

/-- The text of a capture is that of its lines, one after the other. -/
theorem text_eq (capture : Capture) :
    capture.text =
      String.ofList (capture.lines.map fun line => (lineText line).toList).flatten := by
  rw [text, ← String.toList_inj, String.toList_join, String.toList_ofList, List.flatMap_map]
  rfl

end Capture

namespace Transmission

/-- What is kept of the bytes of a stream. -/
def taken
    (transmission : Transmission)
    (stream : Stream) : Bytes :=
  Capture.taken (Capture.failsOn stream transmission.arrivals)
    (Capture.bytesFrom stream transmission.arrivals)

/-- However bytes come from the streams, their lines are kept. -/
theorem keepsLines (transmission : Transmission) :
    Capture.KeepsLines transmission.taken transmission.capture.text := by
  have nothingBegun : ∀ stream, Capture.empty.begun stream = [] := by
    intro stream
    cases stream <;> rfl
  have awaits : ∀ stream, Capture.Awaits .empty stream transmission.arrivals := by
    intro stream
    rw [Capture.Awaits, nothingBegun]
    exact ⟨List.not_mem_nil, .inl (transmission.isReadOut stream)⟩
  obtain ⟨kept, areLines, isMerged⟩ := Capture.isMerged_of_awaits transmission.arrivals awaits
  have areTexts := isMerged.map fun line => (Capture.lineText line).toList
  simp only [nothingBegun, List.nil_append, Capture.map_lineText_pieces] at areTexts
  rw [Capture.text_eq, capture, areLines]
  exact Capture.keepsLines_of_isMerged areTexts

end Transmission

/-- Streams that end give all their bytes. -/
theorem Delivers.exists_transmission
    {written : Stream → Bytes}
    {arrivals : List Arrival}
    (delivers : Delivers written arrivals) :
    ∃ transmission : Transmission,
      transmission.arrivals = arrivals ∧ transmission.taken = written := by
  refine ⟨⟨arrivals, fun stream => ?_⟩, rfl, funext fun stream => ?_⟩
  · obtain ⟨chunks, -, areChunks⟩ := delivers stream
    exact ⟨chunks, .ended stream, rfl, areChunks⟩
  · obtain ⟨chunks, isWritten, areChunks⟩ := delivers stream
    have areContents : (chunks.map (Arrival.bytes stream)).map Arrival.content = chunks := by
      rw [List.map_map]
      exact List.map_id _
    have neverFails : Capture.failsOn stream arrivals = false := by
      rw [Capture.failsOn, List.any_eq_false]
      intro arrival isArrival isFailure
      obtain rfl := of_decide_eq_true isFailure
      have isOwn : .failed stream ∈ arrivals.filter (·.stream = stream) :=
        List.mem_filter.mpr ⟨isArrival, decide_eq_true rfl⟩
      rw [areChunks] at isOwn
      simp at isOwn
    rw [Transmission.taken, neverFails, Capture.bytesFrom, areChunks, ← isWritten,
      List.flatMap_def, List.map_append, areContents, List.flatten_append]
    exact List.append_nil _

/-- What chunks write to a stream. -/
def bytesOf
    (chunks : List (Stream × Bytes))
    (stream : Stream) : Bytes :=
  ((chunks.filter (·.1 = stream)).map Prod.snd).flatten

theorem Transmission.taken_ofChunks (chunks : List (Stream × Bytes)) :
    (ofChunks chunks).taken = bytesOf chunks := by
  have delivers : Delivers (bytesOf chunks) (arrivalsOf chunks) :=
    fun stream => ⟨_, rfl, filter_arrivalsOf chunks stream⟩
  obtain ⟨⟨_, _⟩, rfl, taken_eq⟩ := delivers.exists_transmission
  exact taken_eq

namespace ChildProcess

/-- What is kept of the bytes that a process writes to a stream: nothing if it does not come to
its end. -/
def wrote
    (machine : Machine)
    (operation? : Option OperationId)
    (files : FileSystem)
    (environment : List (String × String))
    (spec : ProcessSpec)
    (stream : Stream) : Bytes :=
  match (machine operation? files environment spec).ending with
  | .refused _ => []
  | .lost _ => []
  | .ended _ transmission => transmission.taken stream

/-- All that an installed program writes is kept. -/
theorem wrote_of_prepare
    {operation? : Option OperationId}
    {files entered : FileSystem}
    {environment : List (String × String)}
    {spec : ProcessSpec}
    {program : Shell.ShellM Nat}
    (prepared : Shell.prepare files spec = .ok (program, entered)) :
    wrote Shell.machine operation? files environment spec =
      bytesOf (program.run.run (Shell.initialState entered environment)).2.written := by
  funext stream
  rw [wrote, Shell.machine, prepared]
  exact congrFun (Transmission.taken_ofChunks _) stream

/-- A process whose output is captured tells a text that keeps the lines of what the process
wrote. -/
theorem exists_output_of_run
    {machine : Machine}
    {operation? : Option OperationId}
    {files : FileSystem}
    {environment : List (String × String)}
    {spec : ProcessSpec}
    (captures : spec.capture = true)
    {outcome : ProcessOutcome}
    (ran : (run machine operation? files environment spec).result = .ok outcome) :
    ∃ text, outcome.output? = some text ∧
      Capture.KeepsLines (wrote machine operation? files environment spec) text := by
  change conclude spec (machine operation? files environment spec).ending = .ok outcome at ran
  unfold wrote
  cases ending : (machine operation? files environment spec).ending with
  | refused source | lost source =>
      rw [ending] at ran
      cases ran
  | ended code? transmission =>
      rw [ending] at ran
      cases ran
      exact ⟨_, if_pos captures, transmission.keepsLines⟩

/-- What is captured of a child keeps the lines of both streams, in whatever chunks they are
delivered and however these are mixed; of a stream that cannot be read to its end, the lines that
have ended by then. So does the output of every process that ends, whatever becomes of it. And
lines that are read one by one are read as the whole is. -/
theorem capture_keepsLines :
    (∀ (written : Stream → Bytes) (arrivals : List Arrival), Delivers written arrivals →
      Capture.KeepsLines written (arrivals.foldl Capture.arrive .empty).text) ∧
    (∀ transmission : Transmission,
      Capture.KeepsLines transmission.taken transmission.capture.text) ∧
    (∀ (machine : Machine) (operation? : Option OperationId) (files : FileSystem)
        (environment : List (String × String)) (spec : ProcessSpec) (outcome : ProcessOutcome),
      spec.capture = true → (run machine operation? files environment spec).result = .ok outcome →
        ∃ text, outcome.output? = some text ∧
          Capture.KeepsLines (wrote machine operation? files environment spec) text) ∧
    ∀ bytes : Bytes,
      String.join ((Capture.pieces bytes).map Utf8.decodeLossy) = Utf8.decodeLossy bytes := by
  refine ⟨fun written arrivals delivers => ?_, Transmission.keepsLines,
    fun _ _ _ _ _ _ captures => exists_output_of_run captures, fun bytes => ?_⟩
  · obtain ⟨transmission, rfl, rfl⟩ := delivers.exists_transmission
    exact transmission.keepsLines
  · rw [← String.toList_inj, String.toList_join, List.flatMap_map, Utf8.toList_decodeLossy,
      ← Capture.flatten_decoded_pieces, List.flatMap_def]
    simp only [Utf8.toList_decodeLossy]

/-- Bytes of two streams: a line of a broken code point and one that does not end on the first,
one of a lone carriage return on the second. -/
def crossedWritten : Stream → Bytes
  | .output => [0xE2, 0x82, 13, 10, 98]
  | .errors => [120, 10, 13]

/-- Chunks of both streams side by side; the second one ends first. -/
def crossedArrivals : List Arrival := [
  .bytes .output [0xE2], .bytes .errors [120], .bytes .output [0x82, 13],
  .bytes .errors [10, 13], .ended .errors, .bytes .output [10, 98], .ended .output]

/-- The first stream breaks off in the middle of its second line. -/
def brokenArrivals : List Arrival := [
  .bytes .output [97, 10, 98], .bytes .errors [99], .failed .output, .ended .errors]

/-- The lines of streams that are delivered side by side, of a stream that breaks off, and of a
process. -/
theorem capture_crossedArrivals :
    Delivers crossedWritten crossedArrivals ∧
      Capture.KeepsLines crossedWritten (crossedArrivals.foldl Capture.arrive .empty).text ∧
      (crossedArrivals.foldl Capture.arrive .empty).text = "x\n\n\uFFFD\nb\n" ∧
      (brokenArrivals.foldl Capture.arrive .empty).text = "a\nc\n" ∧
      (run Shell.machine none (.ofWorkspace "w") [] ⟨"echo", ["hi"], true, none⟩).result =
        .ok ⟨0, some "hi\n"⟩ ∧
      Capture.KeepsLines
        (wrote Shell.machine none (.ofWorkspace "w") [] ⟨"echo", ["hi"], true, none⟩) "hi\n" := by
  have delivers : Delivers crossedWritten crossedArrivals := by
    intro stream
    cases stream with
    | output => exact ⟨[[0xE2], [0x82, 13], [10, 98]], rfl, rfl⟩
    | errors => exact ⟨[[120], [10, 13]], rfl, rfl⟩
  have ran : (run Shell.machine none (.ofWorkspace "w") [] ⟨"echo", ["hi"], true, none⟩).result =
      .ok ⟨0, some "hi\n"⟩ := by
    decide +kernel
  refine ⟨delivers, capture_keepsLines.1 _ _ delivers, by decide +kernel, by decide +kernel,
    ran, ?_⟩
  obtain ⟨text, isText, keepsLines⟩ := capture_keepsLines.2.2.1 _ _ _ _ _ _ rfl ran
  exact Option.some.inj isText ▸ keepsLines

end ChildProcess
end ScriptHost
