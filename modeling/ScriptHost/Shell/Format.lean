import ScriptHost.Text.Utf8

/-!
# Formatted output

How commands write their arguments: escapes that stand for single bytes, and formats
that are used again as long as there are arguments.
-/

namespace ScriptHost
namespace Shell

/-- The byte of a short escape. -/
def escapeByte? (char : Char) : Option UInt8 :=
  match char with
  | 'a' => some 7
  | 'b' => some 8
  | 'f' => some 12
  | 'n' => some 10
  | 'r' => some 13
  | 't' => some 9
  | 'v' => some 11
  | '\\' => some 92
  | _ => none

/-- Whether a character is an octal digit. -/
def isOctal (char : Char) : Bool :=
  '0' ≤ char && char ≤ '7'

/-- The number that octal digits spell. -/
def ofOctal (digits : List Char) : Nat :=
  digits.foldl (fun value digit => value * 8 + (digit.toNat - '0'.toNat)) 0

/-- Up to `count` octal digits at the front of a text. -/
def octalDigits (count : Nat) (chars : List Char) : List Char :=
  (chars.take count).takeWhile isOctal

/-- Bytes, whether to stop after them, and the text that follows. -/
structure Escape where
  bytes : Bytes
  stops : Bool
  rest : List Char

/-- Read what follows a backslash. `leadingZero` tells whether octal digits follow a
zero of their own; only then can an escape stop the output. -/
def readEscape
    (leadingZero : Bool)
    (chars : List Char) : Escape :=
  match chars with
  | [] => ⟨[92], false, []⟩
  | char :: rest =>
      if leadingZero && char = 'c' then ⟨[], true, rest⟩
      else if leadingZero && char = '0' then
        let digits := octalDigits 3 rest
        ⟨[UInt8.ofNat (ofOctal digits)], false, rest.drop digits.length⟩
      else if isOctal char then
        let digits := octalDigits 3 chars
        ⟨[UInt8.ofNat (ofOctal digits)], false, chars.drop digits.length⟩
      else
        match escapeByte? char with
        | some byte => ⟨[byte], false, rest⟩
        | none => ⟨92 :: Utf8.encodeChar char, false, rest⟩

/-- The bytes of a text with escapes, and whether it stops the output. `bound` is at
least the number of characters. -/
def unescape (leadingZero : Bool) : Nat → List Char → Bytes × Bool
  | 0, _ => ([], false)
  | _, [] => ([], false)
  | bound + 1, '\\' :: rest =>
      let escape := readEscape leadingZero rest
      if escape.stops then (escape.bytes, true)
      else
        let (bytes, stops) := unescape leadingZero bound escape.rest
        (escape.bytes ++ bytes, stops)
  | bound + 1, char :: rest =>
      let (bytes, stops) := unescape leadingZero bound rest
      (Utf8.encodeChar char ++ bytes, stops)

/-- What `echo` writes. -/
def echoBytes
    (escapes : Bool)
    (arguments : List String) : Bytes :=
  let (newline, arguments) :=
    match arguments with
    | "-n" :: rest => (false, rest)
    | rest => (true, rest)
  let text := String.intercalate " " arguments
  let (bytes, stops) :=
    if escapes then unescape true (text.length + 1) text.toList else (Utf8.encode text, false)
  if newline && !stops then bytes ++ [10] else bytes

/-- The integer that a text spells. -/
def integer? (text : String) : Option Int :=
  let digits := fun chars : List Char =>
    if chars.isEmpty || !chars.all Char.isDigit then none
    else some (chars.foldl (fun value digit => value * 10 + (digit.toNat - '0'.toNat)) 0)
  match text.toList with
  | '-' :: rest => (digits rest).map fun value : Nat => -(value : Int)
  | '+' :: rest => (digits rest).map Int.ofNat
  | chars => (digits chars).map Int.ofNat

/-- The value of a digit in a base of up to sixteen. -/
def digitValue? (base : Nat) (char : Char) : Option Nat :=
  let value :=
    if char.isDigit then char.toNat - '0'.toNat
    else if char.isAlpha then char.toLower.toNat - 'a'.toNat + 10
    else base
  if value < base then some value else none

/-- The number that digits of a base spell. -/
def ofBase? (base : Nat) (digits : List Char) : Option Nat :=
  if digits.isEmpty then none
  else digits.foldlM (fun value digit => (digitValue? base digit).map (value * base + ·)) 0

/-- The constant that a text writes: hexadecimal after `0x`, octal after another zero and
decimal otherwise. -/
def constant? (chars : List Char) : Option Int :=
  let magnitude? : List Char → Option Nat
    | '0' :: 'x' :: digits => ofBase? 16 digits
    | '0' :: 'X' :: digits => ofBase? 16 digits
    | '0' :: digits => ofBase? 8 ('0' :: digits)
    | digits => ofBase? 10 digits
  match chars with
  | '-' :: rest => (magnitude? rest).map fun value : Nat => -(value : Int)
  | '+' :: rest => (magnitude? rest).map Int.ofNat
  | chars => (magnitude? chars).map Int.ofNat

/-- How a directive of a format fills its field. -/
structure Layout where
  left : Bool
  zeros : Bool
  sign : Bool
  width : Nat
  precision? : Option Nat

/-- The number that digits spell. -/
def ofDecimalDigits (digits : List Char) : Nat :=
  digits.foldl (fun value digit => value * 10 + (digit.toNat - '0'.toNat)) 0

/-- Read the layout of a directive after its percent sign. -/
def readLayout (chars : List Char) : Layout × List Char :=
  let isFlag := fun char : Char => ['-', '0', '+', ' ', '#'].contains char
  let flags := chars.takeWhile isFlag
  let rest := chars.dropWhile isFlag
  let layout := {
    left := flags.contains '-'
    zeros := flags.contains '0'
    sign := flags.contains '+'
    width := ofDecimalDigits (rest.takeWhile Char.isDigit)
    precision? := none }
  match rest.dropWhile Char.isDigit with
  | '.' :: rest =>
      ({ layout with precision? := some (ofDecimalDigits (rest.takeWhile Char.isDigit)) },
        rest.dropWhile Char.isDigit)
  | rest => (layout, rest)

/-- Fill the field of a text with blanks. -/
def Layout.fill (layout : Layout) (bytes : Bytes) : Bytes :=
  let blanks := List.replicate (layout.width - bytes.length) 32
  if layout.left then bytes ++ blanks else blanks ++ bytes

/-- Fill the field of a number, given its digits: with blanks in front of its sign or with
zeros after it. -/
def Layout.fillNumber
    (layout : Layout)
    (negative : Bool)
    (digits : List Char) : Bytes :=
  let sign := if negative then ['-'] else if layout.sign then ['+'] else []
  let least :=
    match layout.precision? with
    | some precision => precision
    | none => if layout.zeros && !layout.left then layout.width - sign.length else 0
  let digits := List.replicate (least - digits.length) '0' ++ digits
  layout.fill (Utf8.encode (String.ofList (sign ++ digits)))

/-- What a directive of a format writes for an argument. -/
def directiveBytes
    (layout : Layout)
    (directive : Char)
    (argument : String) : Bytes × Bool :=
  let number := (constant? argument.toList).getD 0
  let radix := fun base : Nat => layout.fillNumber false (Nat.toDigits base number.toNat)
  let decimal := layout.fillNumber (number < 0) (Nat.toDigits 10 number.natAbs)
  match directive with
  | 's' =>
      let bytes := Utf8.encode argument
      (layout.fill (bytes.take (layout.precision?.getD bytes.length)), false)
  | 'b' => unescape true (argument.length + 1) argument.toList
  | 'd' => (decimal, false)
  | 'i' => (decimal, false)
  | 'u' => (decimal, false)
  | 'x' => (radix 16, false)
  | 'X' => (layout.fillNumber false ((Nat.toDigits 16 number.toNat).map Char.toUpper), false)
  | 'o' => (radix 8, false)
  | 'c' => (layout.fill (Utf8.encode (String.ofList (argument.toList.take 1))), false)
  | _ => ([], false)

/-- The bytes of one use of a format, whether it stops the output, and the arguments
that are left. `bound` is at least the number of characters. -/
def formatOnce : Nat → List Char → List String → Bytes × Bool × List String
  | 0, _, arguments => ([], false, arguments)
  | _, [], arguments => ([], false, arguments)
  | bound + 1, '\\' :: rest, arguments =>
      let escape := readEscape false rest
      if escape.stops then (escape.bytes, true, arguments)
      else
        let (bytes, stops, arguments) := formatOnce bound escape.rest arguments
        (escape.bytes ++ bytes, stops, arguments)
  | bound + 1, '%' :: '%' :: rest, arguments =>
      let (bytes, stops, arguments) := formatOnce bound rest arguments
      (37 :: bytes, stops, arguments)
  | bound + 1, '%' :: rest, arguments =>
      match readLayout rest with
      | (_, []) => ([], true, arguments)
      | (layout, directive :: rest) =>
          let (here, stops) := directiveBytes layout directive (arguments.head?.getD "")
          if stops then (here, true, arguments.drop 1)
          else
            let (bytes, stops, arguments) := formatOnce bound rest (arguments.drop 1)
            (here ++ bytes, stops, arguments)
  | bound + 1, char :: rest, arguments =>
      let (bytes, stops, arguments) := formatOnce bound rest arguments
      (Utf8.encodeChar char ++ bytes, stops, arguments)

/-- The bytes of a format that is used again while it consumes arguments. `bound` is at
least the number of arguments. -/
def formatAll (format : String) : Nat → List String → Bytes
  | 0, _ => []
  | bound + 1, arguments =>
      let (bytes, stops, rest) := formatOnce (format.length + 1) format.toList arguments
      if stops || rest.isEmpty || rest.length = arguments.length then bytes
      else bytes ++ formatAll format bound rest

/-- What `printf` writes. -/
def printfBytes : List String → Bytes
  | [] => []
  | "--" :: format :: arguments => formatAll format (arguments.length + 1) arguments
  | format :: arguments => formatAll format (arguments.length + 1) arguments

end Shell
end ScriptHost
