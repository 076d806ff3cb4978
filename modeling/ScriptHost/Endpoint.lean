/-!
# Endpoints

An endpoint is an address and a port. Addresses have four bytes or eight groups of
sixteen bits; an address of the second kind stands in brackets and may carry the
number of a scope. Every endpoint has one text, and reading accepts other spellings of
it: leading zeros of a port or a group, capital hex digits, groups of zeros written
out, and the last two groups as four bytes.
-/

namespace ScriptHost

/-- An address of four bytes. -/
structure ShortAddress where
  first : UInt8
  second : UInt8
  third : UInt8
  fourth : UInt8
deriving DecidableEq, Repr

/-- An address of eight groups. -/
structure LongAddress where
  groups : List UInt16
  length_groups : groups.length = 8
deriving DecidableEq, Repr

/-- An address and a port. -/
inductive Endpoint
  | short (address : ShortAddress) (port : UInt16)
  | long (address : LongAddress) (scope : UInt32) (port : UInt16)
deriving DecidableEq, Repr

namespace Endpoint

/-! ## Writing -/

/-- The decimal digits of a number. -/
def decimal (value : Nat) : List Char :=
  Nat.toDigits 10 value

/-- An address of four bytes with points between them. -/
def shortText (address : ShortAddress) : List Char :=
  decimal address.first.toNat ++ '.' :: decimal address.second.toNat
    ++ '.' :: decimal address.third.toNat ++ '.' :: decimal address.fourth.toNat

/-- A group in hex digits. -/
def groupText (group : UInt16) : List Char :=
  Nat.toDigits 16 group.toNat

/-- Groups with colons between them. -/
def groupsText : List UInt16 → List Char
  | [] => []
  | [group] => groupText group
  | group :: rest => groupText group ++ ':' :: groupsText rest

/-- The number of zeros at the front. -/
def zeroRun (groups : List UInt16) : Nat :=
  (groups.takeWhile (· = 0)).length

/-- Where the longest run of zeros starts, and its length. Of equally long runs the
first one counts. -/
def longestZeroRun : List UInt16 → Nat × Nat
  | [] => (0, 0)
  | group :: rest =>
      let here := zeroRun (group :: rest)
      let (start, length) := longestZeroRun rest
      if length ≤ here then (0, here) else (start + 1, length)

/-- The bytes of an address that maps one of four bytes. -/
def mappedShort? (address : LongAddress) : Option ShortAddress :=
  match address.groups with
  | [0, 0, 0, 0, 0, 0xffff, high, low] =>
      some ⟨(high >>> 8).toUInt8, high.toUInt8, (low >>> 8).toUInt8, low.toUInt8⟩
  | _ => none

/-- An address of eight groups. The longest run of at least two zeros is left out. -/
def longText (address : LongAddress) : List Char :=
  match mappedShort? address with
  | some mapped => [':', ':', 'f', 'f', 'f', 'f', ':'] ++ shortText mapped
  | none =>
      let (start, length) := longestZeroRun address.groups
      if 1 < length then
        groupsText (address.groups.take start) ++ ':' :: ':'
          :: groupsText (address.groups.drop (start + length))
      else groupsText address.groups

/-- The number of a scope, unless it is zero. -/
def scopeText (scope : UInt32) : List Char :=
  if scope = 0 then [] else '%' :: decimal scope.toNat

/-- The address of an endpoint as it is written. -/
def addressText : Endpoint → String
  | .short address _ => String.ofList (shortText address)
  | .long address _ _ => String.ofList (longText address)

/-- The port of an endpoint. -/
def port : Endpoint → UInt16
  | .short _ port => port
  | .long _ _ port => port

/-- An endpoint with another port. -/
def withPort (port : UInt16) : Endpoint → Endpoint
  | .short address _ => .short address port
  | .long address scope _ => .long address scope port

/-- The characters of an endpoint. -/
def chars : Endpoint → List Char
  | .short address port => shortText address ++ ':' :: decimal port.toNat
  | .long address scope port =>
      '[' :: longText address ++ scopeText scope ++ ']' :: ':' :: decimal port.toNat

/-- The text of an endpoint. -/
def format (endpoint : Endpoint) : String :=
  String.ofList endpoint.chars

/-! ## Reading -/

/-- Reads a value from the front of a text. The answer holds what follows. -/
abbrev Reader (α : Type) := List Char → Option (α × List Char)

/-- Read a given character. -/
def expect (char : Char) : Reader Unit
  | first :: rest => if first = char then some ((), rest) else none
  | [] => none

/-- The value of a digit in a base up to sixteen. -/
def digit? (base : Nat) (char : Char) : Option Nat :=
  let value :=
    if '0' ≤ char ∧ char ≤ '9' then char.toNat - '0'.toNat
    else if 'a' ≤ char ∧ char ≤ 'f' then char.toNat - 'a'.toNat + 10
    else if 'A' ≤ char ∧ char ≤ 'F' then char.toNat - 'A'.toNat + 10
    else base
  if value < base then some value else none

/-- The digits at the front of a text and what follows them. -/
def digits (base : Nat) : List Char → List Nat × List Char
  | [] => ([], [])
  | char :: rest =>
      match digit? base char with
      | none => ([], char :: rest)
      | some value =>
          let (values, rest) := digits base rest
          (value :: values, rest)

/-- The number that digits spell. -/
def ofDigits (base : Nat) (digits : List Nat) : Nat :=
  digits.foldl (fun value digit => value * base + digit) 0

/-- Which numbers are accepted. -/
structure NumberForm where
  base : Nat
  limit : Nat
  mostDigits? : Option Nat
  leadingZeros : Bool

/-- Whether digits have an accepted form. -/
def NumberForm.accepts
    (form : NumberForm)
    (digits : List Nat) : Bool :=
  !digits.isEmpty
    && (form.mostDigits?.all fun most => digits.length ≤ most)
    && (form.leadingZeros || digits.length = 1 || digits.head? != some 0)
    && ofDigits form.base digits < form.limit

/-- Read a number of a form. -/
def readNumber (form : NumberForm) : Reader Nat := fun chars =>
  let (values, rest) := digits form.base chars
  if form.accepts values then some (ofDigits form.base values, rest) else none

/-- A byte of an address has up to three digits and no leading zero. -/
def byteForm : NumberForm := ⟨10, UInt8.size, some 3, false⟩

/-- A group of an address has up to four hex digits. -/
def groupForm : NumberForm := ⟨16, UInt16.size, some 4, true⟩

/-- A port has any number of digits. -/
def portForm : NumberForm := ⟨10, UInt16.size, none, true⟩

/-- A scope has any number of digits. -/
def scopeForm : NumberForm := ⟨10, UInt32.size, none, true⟩

/-- Read an address of four bytes. -/
def readShort : Reader ShortAddress := fun chars => do
  let (first, chars) ← readNumber byteForm chars
  let (_, chars) ← expect '.' chars
  let (second, chars) ← readNumber byteForm chars
  let (_, chars) ← expect '.' chars
  let (third, chars) ← readNumber byteForm chars
  let (_, chars) ← expect '.' chars
  let (fourth, chars) ← readNumber byteForm chars
  pure (⟨.ofNat first, .ofNat second, .ofNat third, .ofNat fourth⟩, chars)

/-- The two groups of four bytes. -/
def shortGroups (address : ShortAddress) : List UInt16 :=
  [.ofNat (address.first.toNat * 256 + address.second.toNat),
    .ofNat (address.third.toNat * 256 + address.fourth.toNat)]

/-- Read what follows a colon, or what stands in front without one. -/
def afterColon
    {α : Type}
    (first : Bool)
    (read : Reader α) : Reader α := fun chars =>
  if first then read chars
  else do
    let (_, chars) ← expect ':' chars
    read chars

/-- Read up to a number of groups. Four bytes may stand for the last two; the flag
tells whether they do. -/
def readGroups (first : Bool) : Nat → List Char → List UInt16 × Bool × List Char
  | 0, chars => ([], false, chars)
  | count + 1, chars =>
      let short? := if count = 0 then none else afterColon first readShort chars
      match short? with
      | some (address, rest) => (shortGroups address, true, rest)
      | none =>
          match afterColon first (readNumber groupForm) chars with
          | none => ([], false, chars)
          | some (group, rest) =>
              let (groups, inBytes, rest) := readGroups false count rest
              (.ofNat group :: groups, inBytes, rest)

/-- Eight groups as an address. -/
def longOfGroups? (groups : List UInt16) : Option LongAddress :=
  if length : groups.length = 8 then some ⟨groups, length⟩ else none

/-- Read an address of eight groups. Two colons stand for at least one group of
zeros. -/
def readLong : Reader LongAddress := fun chars =>
  let (head, inBytes, rest) := readGroups true 8 chars
  if head.length = 8 then (longOfGroups? head).map fun address => (address, rest)
  else if inBytes then none
  else do
    let (_, rest) ← expect ':' rest
    let (_, rest) ← expect ':' rest
    let (tail, _, rest) := readGroups true (7 - head.length) rest
    let zeros := List.replicate (8 - head.length - tail.length) 0
    let address ← longOfGroups? (head ++ zeros ++ tail)
    pure (address, rest)

/-- Read the number of a scope. Without one the scope is zero. -/
def readScope (chars : List Char) : UInt32 × List Char :=
  match expect '%' chars with
  | none => (0, chars)
  | some (_, rest) =>
      match readNumber scopeForm rest with
      | none => (0, chars)
      | some (scope, rest) => (.ofNat scope, rest)

/-- Read a port after its colon. -/
def readPort : Reader UInt16 := fun chars => do
  let (_, chars) ← expect ':' chars
  let (port, chars) ← readNumber portForm chars
  pure (.ofNat port, chars)

/-- Read an endpoint of four bytes. -/
def readShortEndpoint : Reader Endpoint := fun chars => do
  let (address, chars) ← readShort chars
  let (port, chars) ← readPort chars
  pure (.short address port, chars)

/-- Read an endpoint of eight groups. -/
def readLongEndpoint : Reader Endpoint := fun chars => do
  let (_, chars) ← expect '[' chars
  let (address, chars) ← readLong chars
  let (scope, chars) := readScope chars
  let (_, chars) ← expect ']' chars
  let (port, chars) ← readPort chars
  pure (.long address scope port, chars)

/-- The endpoint that characters spell. -/
def ofChars? (chars : List Char) : Option Endpoint :=
  match (readShortEndpoint chars).or (readLongEndpoint chars) with
  | some (endpoint, []) => some endpoint
  | _ => none

/-- The endpoint that a text spells. -/
def ofText? (text : String) : Option Endpoint :=
  ofChars? text.toList

end Endpoint
end ScriptHost
