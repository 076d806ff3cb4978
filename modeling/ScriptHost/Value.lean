import ScriptHost.Binary64
import ScriptHost.Text.Utf8

/-!
# Script values

The values that pass between a script and its host. An integral number that fits
thirty-two bits may be held as an integer or as a floating-point number; both are the same
number. The properties of an object keep an order: those named by an index come first, in
the order of the indices.
-/

namespace ScriptHost

/-- A function of a script or of the host, by its name. -/
inductive Function
  | script (name : String)
  | host (name : String)
deriving DecidableEq, Repr

/-- A script value. -/
inductive Value
  | undefined
  | null
  | bool (value : Bool)
  | int (value : Int32)
  | float (value : Binary64)
  | string (value : String)
  | symbol (description : String)
  | bigInt (value : Int)
  | array (items : List Value)
  | object (properties : List (String × Value))
  | bytes (content : Bytes)
  | words (content : List UInt16)
  | function (function : Function)
  | error (name : String) (message : Value)
deriving Inhabited

namespace Value

/-- The type of a value as messages about conversions name it. -/
def typeName : Value → String
  | undefined => "undefined"
  | null => "null"
  | bool _ => "bool"
  | int _ => "int"
  | float _ => "float"
  | string _ => "string"
  | symbol _ => "symbol"
  | bigInt _ => "big_int"
  | array _ => "array"
  | object _ => "object"
  | bytes _ => "object"
  | words _ => "object"
  | function _ => "function"
  | error _ _ => "exception"

/-- Whether a value stands for an argument that is left out. -/
def isAbsent : Value → Bool
  | undefined => true
  | null => true
  | _ => false

/-- Whether a value has properties. -/
def isObject : Value → Bool
  | array _ => true
  | object _ => true
  | bytes _ => true
  | words _ => true
  | function _ => true
  | error _ _ => true
  | _ => false

/-! ## Numbers -/

/-- The least and the greatest number that is held as an integer. -/
def intRange : Int × Int := (Int32.minValue.toInt, Int32.maxValue.toInt)

/-- Whether an integer is held as such. -/
def fitsInt (value : Int) : Bool :=
  intRange.1 ≤ value && value ≤ intRange.2

/-- The number of an integer. -/
def ofInt (value : Int) : Value :=
  if fitsInt value then int (Int32.ofInt value) else float (.ofInt value)

/-- A number as a script writes it: held as an integer wherever that loses nothing. -/
def ofBinary64 (number : Binary64) : Value :=
  match number.toInt? with
  | some value =>
      if fitsInt value && !number.isNegativeZero then int (Int32.ofInt value) else float number
  | none => float number

/-- The number that the host gives back for a count. -/
def ofCount (count : Nat) : Value :=
  float (.ofInt count)

/-! ## Properties -/

/-- The index that a name of a property spells. -/
def index? (name : String) : Option Nat :=
  match name.toNat? with
  | some index => if toString index = name && index < UInt32.size - 1 then some index else none
  | none => none

/-- Whether a property comes before another one for the sake of its index. -/
def comesBefore (left right : String × Value) : Bool :=
  match index? left.1, index? right.1 with
  | some left, some right => left ≤ right
  | some _, none => true
  | none, some _ => false
  | none, none => true

/-- An object with properties that were set one after the other. A name that is set again
keeps its place. -/
def record (properties : List (String × Value)) : Value :=
  let set := fun (found : List (String × Value)) (property : String × Value) =>
    if found.any fun other => other.1 = property.1 then
      found.map fun other => if other.1 = property.1 then property else other
    else found ++ [property]
  object ((properties.foldl set []).mergeSort comesBefore)

/-- The values of a sequence under their indices. -/
def indexed (items : List Value) : List (String × Value) :=
  items.zipIdx.map fun (item, index) => (toString index, item)

/-- The bytes of a sequence as values. -/
def byteValues (content : Bytes) : List Value :=
  content.map fun byte => int (Int32.ofNat byte.toNat)

/-- The words of a sequence as values. -/
def wordValues (content : List UInt16) : List Value :=
  content.map fun word => int (Int32.ofNat word.toNat)

/-- The properties of a value that are seen by those who go through them. -/
def properties : Value → List (String × Value)
  | array items => indexed items
  | object properties => properties
  | bytes content => indexed (byteValues content)
  | words content => indexed (wordValues content)
  | _ => []

/-- The property of a name. What is not there is undefined. -/
def property (value : Value) (name : String) : Value :=
  (value.properties.lookup name).getD undefined

end Value
end ScriptHost
