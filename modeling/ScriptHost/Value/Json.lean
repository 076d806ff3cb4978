import ScriptHost.Json
import ScriptHost.Value.Text

/-!
# Values as JSON

What JSON has no form for is left out of objects and is null in arrays. Numbers that are
not finite are null, and an integer without bounds cannot be written at all.
-/

namespace ScriptHost
namespace Value

/-- The words in which an integer without bounds is refused. -/
def bigIntRefusal : String := "Do not know how to serialize a BigInt"

/-- The JSON of a number. -/
def numberJson (number : Binary64) : Json :=
  match number.meaning with
  | .finite _ _ _ => .number number.scriptText.toList
  | _ => .null

mutual

/-- The JSON of a value: none if there is no form for it, an error if it cannot be
written. -/
def json? : Value → Except String (Option Json)
  | undefined => .ok none
  | null => .ok (some .null)
  | bool value => .ok (some (.bool value))
  | int value => .ok (some (.int value.toInt))
  | float value => .ok (some (numberJson value))
  | string value => .ok (some (.text value))
  | symbol _ => .ok none
  | bigInt _ => .error bigIntRefusal
  | array items => (jsonItems items).map fun items => some (.array items)
  | object properties =>
      (jsonMembers properties).map fun members => some (.record members)
  | bytes content =>
      .ok (some (.record (content.zipIdx.map fun (byte, index) =>
        (toString index, .nat byte.toNat))))
  | words content =>
      .ok (some (.record (content.zipIdx.map fun (word, index) =>
        (toString index, .nat word.toNat))))
  | function _ => .ok none
  | error _ _ => .ok (some (.record []))

/-- The JSON of the items of an array. -/
def jsonItems : List Value → Except String (List Json)
  | [] => .ok []
  | item :: rest => do
      let first ← json? item
      let others ← jsonItems rest
      pure (first.getD .null :: others)

/-- The JSON of the properties of an object. -/
def jsonMembers : List (String × Value) → Except String (List (String × Json))
  | [] => .ok []
  | (name, value) :: rest => do
      let first? ← json? value
      let others ← jsonMembers rest
      pure (match first? with
        | some first => (name, first) :: others
        | none => others)

end

/-- The JSON text of a value. -/
def jsonText? (value : Value) : Except String (Option String) :=
  (json? value).map fun json => json.map Json.render

mutual

/-- The value that JSON stands for. -/
def ofJson : Json → Value
  | .null => null
  | .bool value => bool value
  | .number text =>
      match (String.ofList text).toInt? with
      | some value => ofInt value
      | none => float .nan
  | .string text => string (String.ofList text)
  | .array items => array (ofJsonItems items)
  | .object members => record (ofJsonMembers members)

/-- The values of the items of an array. -/
def ofJsonItems : List Json → List Value
  | [] => []
  | item :: rest => ofJson item :: ofJsonItems rest

/-- The values of the members of an object. -/
def ofJsonMembers : List (List Char × Json) → List (String × Value)
  | [] => []
  | (name, value) :: rest => (String.ofList name, ofJson value) :: ofJsonMembers rest

end

end Value
end ScriptHost
