import ScriptHost.Json.Numeral

/-!
# JSON tokens

A text is cut into tokens up to the first one that is not well formed, which is the
last token then. Strings keep their escapes as units of sixteen bits: whether
surrogates are paired matters only to who reads the string.
-/

namespace ScriptHost
namespace Json

/-- What is wrong with a text: something that cannot stand there, or an end that
comes too early. -/
inductive Fault
  | malformed
  | truncated
deriving DecidableEq, Repr

/-- A part of a string: a character, or the unit that four hex digits write. -/
inductive Piece
  | char (value : Char)
  | unit (value : Nat)
deriving DecidableEq, Repr

/-- A string as it is written, up to its closing quote or its first fault. -/
structure Quoted where
  pieces : List Piece
  fault? : Option Fault
deriving DecidableEq, Repr

namespace Quoted

/-- The string of no pieces, closed or broken. -/
def stop (fault? : Option Fault) : Quoted :=
  ⟨[], fault?⟩

/-- Put a piece in front. -/
def cons
    (piece : Piece)
    (quoted : Quoted) : Quoted :=
  ⟨piece :: quoted.pieces, quoted.fault?⟩

/-- Whether a unit is the first of a surrogate pair. -/
def isLeading (unit : Nat) : Bool :=
  0xd800 ≤ unit && unit < 0xdc00

/-- Whether a unit is the second of a surrogate pair. -/
def isTrailing (unit : Nat) : Bool :=
  0xdc00 ≤ unit && unit < 0xe000

/-- The character of a surrogate pair. -/
def pairChar (leading trailing : Nat) : Char :=
  Char.ofNat (0x10000 + (leading - 0xd800) * 0x400 + (trailing - 0xdc00))

/-- The characters of pieces that a fault may follow. A surrogate without its partner
is a fault; if the text breaks off right after the first of a pair, that comes first. -/
def decodePieces (fault? : Option Fault) : List Piece → Except Fault (List Char)
  | [] =>
      match fault? with
      | none => .ok []
      | some fault => .error fault
  | .char value :: rest => (value :: ·) <$> decodePieces fault? rest
  | .unit leading :: .unit trailing :: rest =>
      if isLeading leading then
        if isTrailing trailing then
          (pairChar leading trailing :: ·) <$> decodePieces fault? rest
        else .error .malformed
      else if isTrailing leading then .error .malformed
      else (Char.ofNat leading :: ·) <$> decodePieces fault? (.unit trailing :: rest)
  | [.unit unit] =>
      if isTrailing unit then .error .malformed
      else if isLeading unit then .error (fault?.getD .malformed)
      else (Char.ofNat unit :: ·) <$> decodePieces fault? []
  | .unit unit :: rest =>
      if isLeading unit || isTrailing unit then .error .malformed
      else (Char.ofNat unit :: ·) <$> decodePieces fault? rest

/-- The characters of a string. -/
def decode (quoted : Quoted) : Except Fault (List Char) :=
  decodePieces quoted.fault? quoted.pieces

end Quoted

/-- A token. The last four are the broken ones among which a text may end, apart from
a string with a fault. -/
inductive Token
  | null
  | bool (value : Bool)
  | number (numeral : Numeral)
  | string (body : Quoted)
  | openArray
  | closeArray
  | openObject
  | closeObject
  | comma
  | colon
  | brokenNumber (fault : Fault)
  | broken (fault : Fault)
deriving Repr

namespace Token

/-- The value of a hex digit. -/
def hexValue? (char : Char) : Option Nat :=
  if '0' ≤ char ∧ char ≤ '9' then some (char.toNat - '0'.toNat)
  else if 'a' ≤ char ∧ char ≤ 'f' then some (char.toNat - 'a'.toNat + 10)
  else if 'A' ≤ char ∧ char ≤ 'F' then some (char.toNat - 'A'.toNat + 10)
  else none

/-- The unit that four hex digits write. -/
def hexUnit? (first second third fourth : Char) : Option Nat := do
  let first ← hexValue? first
  let second ← hexValue? second
  let third ← hexValue? third
  let fourth ← hexValue? fourth
  pure (((first * 16 + second) * 16 + third) * 16 + fourth)

/-- The character of a short escape. -/
def shortEscape? (char : Char) : Option Char :=
  match char with
  | '"' => some '"'
  | '\\' => some '\\'
  | '/' => some '/'
  | 'b' => some '\x08'
  | 'f' => some '\x0c'
  | 'n' => some '\n'
  | 'r' => some '\r'
  | 't' => some '\t'
  | _ => none

/-- The fault of a hex escape that fewer than four characters follow: the text ends
too early if fewer than four bytes are left. -/
def shortHexFault (rest : List Char) : Fault :=
  if (String.ofList rest).utf8ByteSize < 4 then .truncated else .malformed

/-- Read a string after its opening quote. The answer is what follows the closing
quote; after a fault nothing follows. -/
def scanString : List Char → Quoted × List Char
  | [] => (.stop (some .truncated), [])
  | '"' :: rest => (.stop none, rest)
  | ['\\'] => (.stop (some .truncated), [])
  | '\\' :: 'u' :: first :: second :: third :: fourth :: rest =>
      match hexUnit? first second third fourth with
      | none => (.stop (some .malformed), [])
      | some unit =>
          let (quoted, rest) := scanString rest
          (quoted.cons (.unit unit), rest)
  | '\\' :: 'u' :: rest => (.stop (some (shortHexFault rest)), [])
  | '\\' :: escape :: rest =>
      match shortEscape? escape with
      | none => (.stop (some .malformed), [])
      | some char =>
          let (quoted, rest) := scanString rest
          (quoted.cons (.char char), rest)
  | char :: rest =>
      if char.toNat < 0x20 then (.stop (some .malformed), [])
      else
        let (quoted, rest) := scanString rest
        (quoted.cons (.char char), rest)

/-- The leading digits of a text and what follows them. -/
def scanDigits (chars : List Char) : List Nat × List Char :=
  ((chars.takeWhile Char.isDigit).map fun digit => digit.toNat - '0'.toNat,
    chars.dropWhile Char.isDigit)

/-- The fault of a place where a digit is missing. -/
def missingDigit (rest : List Char) : Fault :=
  if rest.isEmpty then .truncated else .malformed

/-- Read the digits of an exponent. -/
def scanExponentDigits
    (numeral : Numeral)
    (negative : Bool)
    (chars : List Char) : Token × List Char :=
  match scanDigits chars with
  | ([], rest) => (.brokenNumber (missingDigit rest), [])
  | (digits, rest) =>
      let magnitude : Int := Numeral.ofDigits digits
      let exponent := if negative then -magnitude else magnitude
      (.number { numeral with exponent? := some exponent }, rest)

/-- Read the exponent of a number, if there is one. -/
def scanExponent (numeral : Numeral) : List Char → Token × List Char
  | 'e' :: rest => scanSigned rest
  | 'E' :: rest => scanSigned rest
  | rest => (.number numeral, rest)
where
  /-- Read an exponent after its letter. -/
  scanSigned : List Char → Token × List Char
    | '+' :: rest => scanExponentDigits numeral false rest
    | '-' :: rest => scanExponentDigits numeral true rest
    | rest => scanExponentDigits numeral false rest

/-- Read the digits after the point of a number, if there is one. -/
def scanFraction (numeral : Numeral) : List Char → Token × List Char
  | '.' :: rest =>
      match scanDigits rest with
      | ([], rest) => (.brokenNumber (missingDigit rest), [])
      | (digits, rest) => scanExponent { numeral with fraction? := some digits } rest
  | rest => scanExponent numeral rest

/-- Read a number after its sign. A zero is followed by no further digit. -/
def scanNumber
    (negative : Bool)
    (chars : List Char) : Token × List Char :=
  match scanDigits chars with
  | ([], rest) => (.brokenNumber (missingDigit rest), [])
  | (0 :: _ :: _, _) => (.brokenNumber .malformed, [])
  | (digits, rest) => scanFraction ⟨negative, digits, none, none⟩ rest

/-- Read the rest of a word. -/
def scanWord (token : Token) : List Char → List Char → Token × List Char
  | [], rest => (token, rest)
  | _, [] => (.broken .truncated, [])
  | expected :: word, char :: rest =>
      if char = expected then scanWord token word rest else (.broken .malformed, [])

/-- Whether a character may stand between tokens. -/
def isBlank (char : Char) : Bool :=
  char = ' ' || char = '\n' || char = '\t' || char = '\r'

/-- Read a token that begins with a given character. -/
def scanFrom (char : Char) (rest : List Char) : Token × List Char :=
  match char with
  | '[' => (.openArray, rest)
  | ']' => (.closeArray, rest)
  | '\x7b' => (.openObject, rest)
  | '\x7d' => (.closeObject, rest)
  | ',' => (.comma, rest)
  | ':' => (.colon, rest)
  | 'n' => scanWord .null ['u', 'l', 'l'] rest
  | 't' => scanWord (.bool true) ['r', 'u', 'e'] rest
  | 'f' => scanWord (.bool false) ['a', 'l', 's', 'e'] rest
  | '"' =>
      let (body, rest) := scanString rest
      (.string body, rest)
  | '-' => scanNumber true rest
  | _ => if char.isDigit then scanNumber false (char :: rest) else (.broken .malformed, [])

/-- Read tokens. Every token but a broken one takes a character at least, so the length
of the text bounds their number. -/
def scanBounded : Nat → List Char → List Token
  | 0, _ => []
  | _, [] => []
  | bound + 1, char :: rest =>
      if isBlank char then scanBounded bound rest
      else
        let (token, rest) := scanFrom char rest
        token :: scanBounded bound rest

/-- The tokens of a text. -/
def scan (chars : List Char) : List Token :=
  scanBounded chars.length chars

end Token
end Json
end ScriptHost
