import ScriptHost.HandleTable
import ScriptHost.Operation
import ScriptHost.Frame
import ScriptHost.Value

/-!
# Conversions

The host takes a value as what it needs and refuses every other type; nothing is coerced.
Values that stand for absence are accepted where something may be left out. In the other
direction, what an operation yields and what a packet contains become values.
-/

namespace ScriptHost

/-- Why a value is not taken as something else. -/
structure ConversionError where
  source : String
  target : String
  detail? : Option String
deriving DecidableEq, Repr

/-- The words in which a conversion is refused. -/
def ConversionError.message (error : ConversionError) : String :=
  "Error converting from js '" ++ error.source ++ "' into type '" ++ error.target ++ "'"
    ++ (error.detail?.map (": " ++ ·)).getD ""

/-- A way to take a value. -/
abbrev Conversion (α : Type) := Value → Except ConversionError α

namespace Conversion

/-- Refuse a value for its type. -/
def refuse
    {α : Type}
    (target : String)
    (value : Value) : Except ConversionError α :=
  .error ⟨value.typeName, target, none⟩

/-- Take a string. -/
def string : Conversion String
  | .string text => .ok text
  | value => refuse "string" value

/-- Take a truth value. -/
def bool : Conversion Bool
  | .bool value => .ok value
  | value => refuse "bool" value

/-- Take a number. -/
def number : Conversion Binary64
  | .int value => .ok (.ofInt value.toInt)
  | .float value => .ok value
  | value => refuse "f64" value

/-- Take a number that is held as an integer. -/
def int : Conversion Int32
  | .int value => .ok value
  | value => refuse "i32" value

/-- Take a function. -/
def function : Conversion Function
  | .function function => .ok function
  | value => refuse "function" value

/-- Take a value with properties. -/
def object : Conversion Value := fun value =>
  if value.isObject then .ok value else refuse "object" value

/-- Take a value as it is. -/
def any : Conversion Value := .ok

/-- Take a value unless it stands for absence. -/
def optional
    {α : Type}
    (conversion : Conversion α) : Conversion (Option α) := fun value =>
  if value.isAbsent then .ok none else (conversion value).map some

/-- The handle that a number stands for: it is whole and fits thirty-two bits. -/
def handleOfNumber (number : Binary64) : Except ConversionError ScriptHandle :=
  match number.toInt? with
  | some value =>
      if 0 ≤ value ∧ value < UInt32.size then .ok ⟨UInt32.ofNat value.toNat⟩
      else .error ⟨"number", "handle", none⟩
  | none => .error ⟨"number", "handle", none⟩

/-- Take a handle. -/
def handle : Conversion ScriptHandle := fun value => do
  handleOfNumber (← number value)

/-- Take a byte. -/
def byte : Conversion UInt8 := fun value => do
  let number ← int value
  if number.toInt < 0 then throw ⟨"i32", "u8", some "Underflow"⟩
  else if 255 < number.toInt then throw ⟨"i32", "u8", some "Overflow"⟩
  else pure (UInt8.ofNat number.toInt.toNat)

/-- Take the bytes of a packet: a text, a sequence of bytes, or an array of them. -/
def packet : Conversion Bytes
  | .string text => .ok (Utf8.encode text)
  | .bytes content => .ok content
  | .array items => items.mapM byte
  | value => refuse "array" value

end Conversion

namespace Value

/-- The number that stands for a handle. -/
def ofHandle (handle : ScriptHandle) : Value :=
  float (.ofInt handle.raw.toNat)

/-- The value of what an operation yields. Nothing and no value are undefined. -/
def ofOperationValue : Option OperationValue → Value
  | none => undefined
  | some .void => undefined
  | some (.int value) => int value
  | some (.long value) => float (.ofInt value.toInt)
  | some (.float bits) => float (.ofBinary32 bits)
  | some (.double bits) => float ⟨bits⟩
  | some (.bool value) => bool value
  | some (.text value) => string value

/-- The value of the content of a packet. -/
def ofPayload : Payload → Value
  | .bytes content => bytes content
  | .text content => string content

end Value
end ScriptHost
