import ScriptHost.Text.Utf8

/-!
# Captured output

A child writes to two streams, and what arrives from both is kept as one text. Each
stream is put together line by line; a line is kept when its line feed arrives, or
when its stream ends in the middle of it. A stream that cannot be read any further is
given up, and so is the line that has begun on it. A kept line loses the line feeds and
carriage returns at its end and gets one line feed instead, so that the lines of the
two streams never run into each other.
-/

namespace ScriptHost

/-- A stream that a child writes to. -/
inductive Stream
  | output
  | errors
deriving DecidableEq, Repr

/-- What comes from a stream: some bytes, or its end, or a failure to read on. -/
inductive Arrival
  | bytes (stream : Stream) (chunk : Bytes)
  | ended (stream : Stream)
  | failed (stream : Stream)
deriving DecidableEq, Repr

namespace Arrival

/-- Where it comes from. -/
def stream : Arrival → Stream
  | bytes stream _ => stream
  | ended stream => stream
  | failed stream => stream

/-- The bytes that come with it. -/
def content : Arrival → Bytes
  | bytes _ chunk => chunk
  | ended _ => []
  | failed _ => []

/-- Whether nothing comes from its stream after it. -/
def isLast : Arrival → Bool
  | bytes _ _ => false
  | ended _ => true
  | failed _ => true

end Arrival

/-- A stream is read, in any number of chunks, until it ends or reading fails. -/
def IsReadOut
    (arrivals : List Arrival)
    (stream : Stream) : Prop :=
  ∃ (chunks : List Bytes) (last : Arrival), last.isLast = true ∧
    arrivals.filter (·.stream = stream) = chunks.map (.bytes stream) ++ [last]

/-- All that comes from a child. Both of its streams are read out; how the chunks of one are
mixed with those of the other is left open. -/
structure Transmission where
  arrivals : List Arrival
  isReadOut : ∀ stream, IsReadOut arrivals stream

/-- What comes from a child that writes chunks and then closes both of its streams. -/
def arrivalsOf (chunks : List (Stream × Bytes)) : List Arrival :=
  chunks.map (fun chunk => .bytes chunk.1 chunk.2) ++ [.ended .output, .ended .errors]

theorem filter_arrivalsOf
    (chunks : List (Stream × Bytes))
    (stream : Stream) :
    (arrivalsOf chunks).filter (·.stream = stream) =
      ((chunks.filter (·.1 = stream)).map Prod.snd).map (.bytes stream) ++ [.ended stream] := by
  have sameChunks : (chunks.map fun chunk => Arrival.bytes chunk.1 chunk.2).filter
      (·.stream = stream) =
        ((chunks.filter (·.1 = stream)).map Prod.snd).map (Arrival.bytes stream) := by
    rw [List.filter_map, List.map_map]
    refine List.map_congr_left fun chunk isChunk => ?_
    have isSame : chunk.1 = stream := of_decide_eq_true (List.mem_filter.mp isChunk).2
    rw [isSame]
    rfl
  rw [arrivalsOf, List.filter_append, sameChunks]
  cases stream <;> rfl

/-- The transmission of a child that writes chunks and then closes both of its streams. -/
def Transmission.ofChunks (chunks : List (Stream × Bytes)) : Transmission where
  arrivals := arrivalsOf chunks
  isReadOut stream := ⟨_, .ended stream, rfl, filter_arrivalsOf chunks stream⟩

/-- The byte of a line feed. -/
def lineFeed : UInt8 := 10

/-- What has been captured: the kept lines in the order in which they were completed,
and the line that has begun on each stream. -/
structure Capture where
  lines : List Bytes
  output : Bytes
  errors : Bytes
deriving DecidableEq, Repr

namespace Capture

/-- Nothing has been captured. -/
def empty : Capture :=
  ⟨[], [], []⟩

/-- The line that has begun on a stream. -/
def begun
    (capture : Capture) : Stream → Bytes
  | .output => capture.output
  | .errors => capture.errors

/-- Put another line in place of the one that has begun on a stream. -/
def setBegun
    (capture : Capture)
    (line : Bytes) : Stream → Capture
  | .output => { capture with output := line }
  | .errors => { capture with errors := line }

/-- Cut bytes after each line feed. The second component is what follows the last
one. -/
def cutLines : Bytes → List Bytes × Bytes
  | [] => ([], [])
  | byte :: rest =>
      let (lines, last) := cutLines rest
      if byte = lineFeed then ([byte] :: lines, last)
      else
        match lines with
        | [] => ([], byte :: last)
        | line :: lines => ((byte :: line) :: lines, last)

/-- Bytes arrive from a stream. -/
def receive
    (capture : Capture)
    (stream : Stream)
    (chunk : Bytes) : Capture :=
  let (lines, last) := cutLines (capture.begun stream ++ chunk)
  { capture with lines := capture.lines ++ lines }.setBegun last stream

/-- A stream ends. -/
def finish
    (capture : Capture)
    (stream : Stream) : Capture :=
  match capture.begun stream with
  | [] => capture
  | line => { capture with lines := capture.lines ++ [line] }.setBegun [] stream

/-- A stream cannot be read any further. The line that has begun on it is lost. -/
def giveUp
    (capture : Capture)
    (stream : Stream) : Capture :=
  capture.setBegun [] stream

/-- Something comes from a stream. -/
def arrive (capture : Capture) : Arrival → Capture
  | .bytes stream chunk => capture.receive stream chunk
  | .ended stream => capture.finish stream
  | .failed stream => capture.giveUp stream

/-- Whether a character ends a line. -/
def isLineEnd (char : Char) : Bool :=
  char = '\n' || char = '\r'

/-- A text without the line feeds and carriage returns at its end. -/
def dropLineEnd (text : String) : String :=
  String.ofList ((text.toList.reverse.dropWhile isLineEnd).reverse)

/-- The text of a kept line. -/
def lineText (line : Bytes) : String :=
  dropLineEnd (Utf8.decodeLossy line) ++ "\n"

/-- The text of everything that was kept. -/
def text (capture : Capture) : String :=
  String.join (capture.lines.map lineText)

end Capture

/-- What is captured of all that comes from a child. -/
def Transmission.capture (transmission : Transmission) : Capture :=
  transmission.arrivals.foldl Capture.arrive .empty

end ScriptHost
