/-!
# JSON values

A JSON value and its text. The members of an object keep their order, and a number
keeps the text it is written with, so that nothing is rounded here. Strings are
written between quotes with the short escapes where there are some and with four hex
digits for the other control characters.
-/

namespace ScriptHost

/-- A JSON value. -/
inductive Json
  | null
  | bool (value : Bool)
  | number (text : List Char)
  | string (value : List Char)
  | array (items : List Json)
  | object (members : List (List Char × Json))

namespace Json

instance : Inhabited Json := ⟨.null⟩

/-- The number of a natural number. -/
def nat (value : Nat) : Json :=
  .number (Nat.toDigits 10 value)

/-- The number of an integer. -/
def int (value : Int) : Json :=
  .number (if value < 0 then '-' :: Nat.toDigits 10 value.natAbs else Nat.toDigits 10 value.natAbs)

/-- The string of a text. -/
def text (value : String) : Json :=
  .string value.toList

/-- The object of named members. -/
def record (members : List (String × Json)) : Json :=
  .object (members.map fun (name, value) => (name.toList, value))

/-- The value of an optional part. -/
def optional
    {α : Type}
    (encode : α → Json) : Option α → Json
  | some value => encode value
  | none => .null

/-- The hex digit of a number below sixteen. -/
def hexDigit (value : Nat) : Char :=
  Nat.digitChar (value % 16)

/-- The written form of a character inside a string. -/
def escapeChar (char : Char) : List Char :=
  if char = '"' then ['\\', '"']
  else if char = '\\' then ['\\', '\\']
  else if 0x20 ≤ char.toNat then [char]
  else if char = '\n' then ['\\', 'n']
  else if char = '\r' then ['\\', 'r']
  else if char = '\t' then ['\\', 't']
  else if char.toNat = 8 then ['\\', 'b']
  else if char.toNat = 12 then ['\\', 'f']
  else ['\\', 'u', '0', '0', hexDigit (char.toNat / 16), hexDigit char.toNat]

/-- The written form of a string. -/
def quoted (value : List Char) : List Char :=
  '"' :: value.flatMap escapeChar ++ ['"']

/-- Put a comma between parts. -/
def separated : List (List Char) → List Char
  | [] => []
  | [part] => part
  | part :: rest => part ++ ',' :: separated rest

mutual

/-- The written form of a value, without blanks. -/
def written : Json → List Char
  | .null => ['n', 'u', 'l', 'l']
  | .bool true => ['t', 'r', 'u', 'e']
  | .bool false => ['f', 'a', 'l', 's', 'e']
  | .number text => text
  | .string value => quoted value
  | .array items => '[' :: separated (writtenItems items) ++ [']']
  | .object members => '\x7b' :: separated (writtenMembers members) ++ ['\x7d']

/-- The written forms of the items of an array. -/
def writtenItems : List Json → List (List Char)
  | [] => []
  | item :: rest => written item :: writtenItems rest

/-- The written forms of the members of an object. -/
def writtenMembers : List (List Char × Json) → List (List Char)
  | [] => []
  | (name, value) :: rest => (quoted name ++ ':' :: written value) :: writtenMembers rest

end

/-- The text of a value. -/
def render (value : Json) : String :=
  String.ofList value.written

end Json
end ScriptHost
