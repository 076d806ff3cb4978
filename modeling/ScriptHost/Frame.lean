import ScriptHost.Text.Utf8

/-!
# Framed packets

A packet travels as a frame: a four-byte little-endian length that counts the
whole frame, a tag byte, and the body. A decoder keeps the bytes of an incomplete
frame and yields the payloads that each chunk completes. A length that no frame
may have drops everything the decoder holds.
-/

namespace ScriptHost

/-- The content of a packet. -/
inductive Payload
  | bytes (content : Bytes)
  | text (content : String)
  deriving DecidableEq

namespace Payload

/-- The tag under which a payload travels. -/
def tag : Payload → UInt8
  | bytes _ => 0
  | text _ => 1

/-- The bytes that a payload stands for. -/
def content : Payload → Bytes
  | bytes content => content
  | text content => Utf8.encode content

/-- The payload that a tag and a body stand for; other tags stand for none. -/
def ofBody?
    (tag : UInt8)
    (body : Bytes) : Option Payload :=
  if tag = 0 then some (bytes body)
  else if tag = 1 then some (text (Utf8.decodeLossy body))
  else none

end Payload

namespace Frame

/-- The number of bytes before the body of a frame. -/
def headerLength : Nat := 5

/-- The largest frame that a decoder accepts unless it is told otherwise. -/
def defaultLimit : Nat := 16 * 1024 * 1024

/-- The four bytes of a length, lowest first. -/
def lengthBytes (length : Nat) : Bytes :=
  [UInt8.ofNat length, UInt8.ofNat (length / 0x100),
    UInt8.ofNat (length / 0x10000), UInt8.ofNat (length / 0x1000000)]

/-- The length that four bytes write, lowest first. -/
def lengthOf (a b c d : UInt8) : Nat :=
  a.toNat + 0x100 * b.toNat + 0x10000 * c.toNat + 0x1000000 * d.toNat

/-- Why a packet cannot travel. -/
inductive EncodeError
  | tooLarge (length : Nat)
  deriving DecidableEq

namespace EncodeError

/-- The words in which an oversized packet is reported. -/
def message : EncodeError → String
  | tooLarge length =>
      "frame of " ++ toString length ++ " bytes exceeds the 4294967295 byte limit"

end EncodeError

/-- The frame of a tag and a body, if its length fits four bytes. -/
def encode
    (tag : UInt8)
    (body : Bytes) : Except EncodeError Bytes :=
  let length := headerLength + body.length
  if length < UInt32.size then
    .ok (lengthBytes length ++ tag :: body)
  else
    .error (.tooLarge length)

/-- The frame of a payload. -/
def encodePayload (payload : Payload) : Except EncodeError Bytes :=
  encode payload.tag payload.content

end Frame

/-- A decoder holds the bytes of a frame that is not complete yet. -/
structure FrameDecoder where
  limit : Nat
  buffer : Bytes
  deriving DecidableEq

namespace FrameDecoder

/-- A decoder that holds nothing. No limit is below the length of an empty frame. -/
def new (limit : Nat) : FrameDecoder :=
  ⟨max limit Frame.headerLength, []⟩

/-- The number of bytes held back. -/
def buffered (decoder : FrameDecoder) : Nat :=
  decoder.buffer.length

/-- Forget the bytes held back. -/
def clear (decoder : FrameDecoder) : FrameDecoder :=
  { decoder with buffer := [] }

/-- What stands at the front of a byte sequence. -/
inductive Front
  | incomplete
  | malformed
  | frame (tag : UInt8) (body rest : Bytes)
  deriving DecidableEq

/-- Look at the front of a byte sequence. The length field decides as soon as its
four bytes are there. -/
def front (limit : Nat) : Bytes → Front
  | a :: b :: c :: d :: rest =>
      let length := Frame.lengthOf a b c d
      if length < Frame.headerLength ∨ limit < length then .malformed
      else
        match rest with
        | [] => .incomplete
        | tag :: rest =>
            let bodyLength := length - Frame.headerLength
            if rest.length < bodyLength then .incomplete
            else .frame tag (rest.take bodyLength) (rest.drop bodyLength)
  | _ => .incomplete

/-- What remains after the front frame is shorter than the whole. -/
theorem length_lt_of_front_eq_frame
    {limit : Nat}
    {bytes : Bytes}
    {tag : UInt8}
    {body rest : Bytes}
    (isFrame : front limit bytes = .frame tag body rest) :
    rest.length < bytes.length := by
  unfold front at isFrame
  split at isFrame
  · simp only at isFrame
    split at isFrame
    · cases isFrame
    · split at isFrame
      · cases isFrame
      · split at isFrame
        · cases isFrame
        · cases isFrame
          simp only [List.length_drop, List.length_cons]
          omega
  · cases isFrame

/-- Take complete frames from the front of a byte sequence. The payloads found are
put before `found`, last first; the second component is what stays in the buffer. -/
def scan
    (limit : Nat)
    (found : List Payload)
    (bytes : Bytes) : List Payload × Bytes :=
  match _isFrame : front limit bytes with
  | .incomplete => (found, bytes)
  | .malformed => (found, [])
  | .frame tag body rest =>
      match Payload.ofBody? tag body with
      | some payload => scan limit (payload :: found) rest
      | none => scan limit found rest
  termination_by bytes.length
  decreasing_by all_goals exact length_lt_of_front_eq_frame _isFrame

/-- Add a chunk and yield the payloads of the frames that it completes. -/
def push
    (decoder : FrameDecoder)
    (chunk : Bytes) : List Payload × FrameDecoder :=
  let (found, rest) := scan decoder.limit [] (decoder.buffer ++ chunk)
  (found.reverse, { decoder with buffer := rest })

/-- A difference, if it is not negative. -/
def difference? (whole part : Nat) : Option Nat :=
  if part ≤ whole then some (whole - part) else none

/-- The bytes from one index up to another, if both are in range. -/
def slice?
    (bytes : Bytes)
    (first last : Nat) : Option Bytes :=
  if first ≤ last ∧ last ≤ bytes.length then some ((bytes.drop first).take (last - first))
  else none

/-- Take complete frames from a buffer, from an index on. There is no result if an index is
out of range or a difference is negative. -/
def scanFrom
    (limit : Nat)
    (buffer : Bytes)
    (offset : Nat)
    (found : List Payload) : Option (List Payload × Bytes) :=
  match _isLeft : difference? buffer.length offset with
  | none => none
  | some left =>
      if left < 4 then (slice? buffer offset buffer.length).map (found, ·)
      else
        match slice? buffer offset (offset + 4) with
        | some [a, b, c, d] =>
            let length := Frame.lengthOf a b c d
            if _malformed : length < Frame.headerLength ∨ limit < length then some (found, [])
            else if _isShort : left < length then
              (slice? buffer offset buffer.length).map (found, ·)
            else
              match buffer[offset + 4]?, slice? buffer (offset + 5) (offset + length) with
              | some tag, some body =>
                  scanFrom limit buffer (offset + length)
                    ((Payload.ofBody? tag body).toList ++ found)
              | _, _ => none
        | _ => none
  termination_by buffer.length - offset
  decreasing_by
    have header : Frame.headerLength = 5 := rfl
    unfold difference? at _isLeft
    split at _isLeft
    · cases _isLeft
      omega
    · cases _isLeft

/-- Add a chunk and yield the payloads of the frames that it completes, by way of indices. -/
def pushByIndex
    (decoder : FrameDecoder)
    (chunk : Bytes) : Option (List Payload × FrameDecoder) :=
  (scanFrom decoder.limit (decoder.buffer ++ chunk) 0 []).map fun (found, rest) =>
    (found.reverse, { decoder with buffer := rest })

@[simp] theorem buffered_new (limit : Nat) : (new limit).buffered = 0 := rfl

@[simp] theorem buffered_clear (decoder : FrameDecoder) : decoder.clear.buffered = 0 := rfl

end FrameDecoder
end ScriptHost
