import ScriptHost.Text.Utf8

/-!
# MD5 digests

The digest of a sequence of bytes: the bytes are padded to whole blocks of sixty-four,
and every block is mixed into a state of four words in sixty-four steps.
-/

namespace ScriptHost
namespace Md5

/-- The four words of a digest. -/
structure State where
  a : UInt32
  b : UInt32
  c : UInt32
  d : UInt32
deriving DecidableEq, Repr

/-- The state before the first block. -/
def initial : State where
  a := 0x67452301
  b := 0xefcdab89
  c := 0x98badcfe
  d := 0x10325476

/-- How far each step rotates. -/
def rotations : Array UInt32 := #[
  7, 12, 17, 22, 7, 12, 17, 22, 7, 12, 17, 22, 7, 12, 17, 22,
  5, 9, 14, 20, 5, 9, 14, 20, 5, 9, 14, 20, 5, 9, 14, 20,
  4, 11, 16, 23, 4, 11, 16, 23, 4, 11, 16, 23, 4, 11, 16, 23,
  6, 10, 15, 21, 6, 10, 15, 21, 6, 10, 15, 21, 6, 10, 15, 21]

/-- The constant that each step adds. -/
def constants : Array UInt32 := #[
  0xd76aa478, 0xe8c7b756, 0x242070db, 0xc1bdceee, 0xf57c0faf, 0x4787c62a, 0xa8304613, 0xfd469501,
  0x698098d8, 0x8b44f7af, 0xffff5bb1, 0x895cd7be, 0x6b901122, 0xfd987193, 0xa679438e, 0x49b40821,
  0xf61e2562, 0xc040b340, 0x265e5a51, 0xe9b6c7aa, 0xd62f105d, 0x02441453, 0xd8a1e681, 0xe7d3fbc8,
  0x21e1cde6, 0xc33707d6, 0xf4d50d87, 0x455a14ed, 0xa9e3e905, 0xfcefa3f8, 0x676f02d9, 0x8d2a4c8a,
  0xfffa3942, 0x8771f681, 0x6d9d6122, 0xfde5380c, 0xa4beea44, 0x4bdecfa9, 0xf6bb4b60, 0xbebfbc70,
  0x289b7ec6, 0xeaa127fa, 0xd4ef3085, 0x04881d05, 0xd9d4d039, 0xe6db99e5, 0x1fa27cf8, 0xc4ac5665,
  0xf4292244, 0x432aff97, 0xab9423a7, 0xfc93a039, 0x655b59c3, 0x8f0ccc92, 0xffeff47d, 0x85845dd1,
  0x6fa87e4f, 0xfe2ce6e0, 0xa3014314, 0x4e0811a1, 0xf7537e82, 0xbd3af235, 0x2ad7d2bb, 0xeb86d391]

/-- Turn a word to the left. -/
def rotateLeft (word amount : UInt32) : UInt32 :=
  (word <<< amount) ||| (word >>> (32 - amount))

/-- The mixing function of a step and the word of the block that it takes. -/
def mix (step : Nat) (state : State) : UInt32 × Nat :=
  if step < 16 then ((state.b &&& state.c) ||| (~~~state.b &&& state.d), step)
  else if step < 32 then
    ((state.d &&& state.b) ||| (~~~state.d &&& state.c), (5 * step + 1) % 16)
  else if step < 48 then (state.b ^^^ state.c ^^^ state.d, (3 * step + 5) % 16)
  else (state.c ^^^ (state.b ||| ~~~state.d), 7 * step % 16)

/-- One step on a block. -/
def advance
    (block : Array UInt32)
    (state : State)
    (step : Nat) : State :=
  let (mixed, index) := mix step state
  let sum := mixed + state.a + constants.getD step 0 + block.getD index 0
  { a := state.d
    b := state.b + rotateLeft sum (rotations.getD step 0)
    c := state.b
    d := state.c }

/-- Mix a block into a state. -/
def absorb (state : State) (block : Array UInt32) : State :=
  let mixed := (List.range 64).foldl (advance block) state
  { a := state.a + mixed.a
    b := state.b + mixed.b
    c := state.c + mixed.c
    d := state.d + mixed.d }

/-- The bytes of a number, the lowest first. -/
def littleEndian (count value : Nat) : Bytes :=
  (List.range count).map fun index => UInt8.ofNat (value / Nat.pow 256 index % 256)

/-- The number of zeros that fill a message of a length up to eight bytes before the
end of a block. -/
def zeroCount (length : Nat) : Nat :=
  (119 - length % 64) % 64

/-- A message with what fills its last block: a one bit, zeros and its length in bits. -/
def padded (message : Bytes) : Bytes :=
  message ++ 0x80 :: List.replicate (zeroCount message.length) 0
    ++ littleEndian 8 (message.length * 8 % UInt64.size)

/-- The word of four bytes, the lowest first. -/
def word (first second third fourth : UInt8) : UInt32 :=
  first.toUInt32 ||| (second.toUInt32 <<< 8) ||| (third.toUInt32 <<< 16)
    ||| (fourth.toUInt32 <<< 24)

/-- The words of a message. -/
def words : Bytes → List UInt32
  | first :: second :: third :: fourth :: rest => word first second third fourth :: words rest
  | _ => []

/-- Words are collected until a block is full, and then mixed in. -/
structure Progress where
  state : State
  block : Array UInt32

/-- Take in one word. -/
def Progress.take (progress : Progress) (word : UInt32) : Progress :=
  let block := progress.block.push word
  if block.size = 16 then ⟨absorb progress.state block, #[]⟩
  else ⟨progress.state, block⟩

/-- The state after a message. -/
def finalState (message : Bytes) : State :=
  ((words (padded message)).foldl Progress.take ⟨initial, #[]⟩).state

/-- The digest of a message. -/
def digest (message : Bytes) : Bytes :=
  let state := finalState message
  [state.a, state.b, state.c, state.d].flatMap fun word => littleEndian 4 word.toNat

/-- The digest of a message in hex digits. -/
def hexDigest (message : Bytes) : String :=
  String.ofList ((digest message).flatMap fun byte =>
    [Nat.digitChar (byte.toNat / 16), Nat.digitChar (byte.toNat % 16)])

end Md5
end ScriptHost
