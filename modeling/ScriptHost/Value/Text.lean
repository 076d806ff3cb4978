import ScriptHost.Binary64.Text
import ScriptHost.Value

/-!
# The text of a value

Every value but a symbol has a text. The text of an array consists of the texts of its
items with commas between them; what is absent leaves nothing. Whoever reports a thrown
value takes the message of an error and the text of everything else.
-/

namespace ScriptHost
namespace Value

/-- Put a comma between texts. -/
def commaSeparated (texts : List String) : String :=
  String.intercalate "," texts

/-- The text of a function. -/
def functionText : String :=
  "function () \x7b\n    [native code]\n\x7d"

/-- The text of an error with a message. -/
def errorText (name message : String) : String :=
  if message = "" then name else name ++ ": " ++ message

mutual

/-- The text of a value; none for a symbol and whatever contains one. -/
def text? : Value → Option String
  | undefined => some "undefined"
  | null => some "null"
  | bool true => some "true"
  | bool false => some "false"
  | int value => some (toString value.toInt)
  | float value => some value.scriptText
  | string value => some value
  | symbol _ => none
  | bigInt value => some (toString value)
  | array items => (itemTexts? items).map commaSeparated
  | object _ => some "[object Object]"
  | bytes content => some (commaSeparated (content.map fun byte => toString byte.toNat))
  | words content => some (commaSeparated (content.map fun word => toString word.toNat))
  | function _ => some functionText
  | error name undefined => some name
  | error name message => (text? message).map (errorText name)

/-- The texts of the items of an array. -/
def itemTexts? : List Value → Option (List String)
  | [] => some []
  | item :: rest =>
      match text? item, itemTexts? rest with
      | some text, some texts => some ((if item.isAbsent then "" else text) :: texts)
      | _, _ => none

end

/-- The words for a thrown value that has none of its own. -/
def unnamedThrow : String := "uncaught exception"

/-- The words in which a thrown value is reported. -/
def thrownMessage : Value → String
  | error _ undefined => unnamedThrow
  | error _ null => unnamedThrow
  | error _ message => (text? message).getD unnamedThrow
  | value => (text? value).getD unnamedThrow

end Value
end ScriptHost
