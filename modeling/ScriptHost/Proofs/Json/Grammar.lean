import ScriptHost.Json.Reading

/-!
# The grammar of JSON

Which texts are JSON, said without reading them: what a text of the grammar spells is a tree, and
blanks may stand wherever a token ends. A string keeps its escapes and a number its parts.
-/

namespace ScriptHost
namespace Json

/-- Blanks between tokens. -/
def IsGap (text : List Char) : Prop :=
  ∀ char ∈ text, Token.isBlank char = true

/-! ## Numbers -/

/-- Decimal digits, at least one. -/
structure IsDecimal (digits : List Nat) : Prop where
  ne_nil : digits ≠ []
  isDigit : ∀ digit ∈ digits, digit < 10

/-- Digits as characters. -/
def digitChars (digits : List Nat) : List Char :=
  digits.map Nat.digitChar

/-- The digits before the point: zero alone, or digits that do not begin with zero. -/
structure IsWhole (digits : List Nat) : Prop extends IsDecimal digits where
  noLeadingZero : digits = [0] ∨ digits.head? ≠ some 0

/-- The sign of a number. -/
inductive SpellsSign : (negative : Bool) → List Char → Prop
  | absent : SpellsSign false []
  | minus : SpellsSign true ['-']

/-- The digits after the point. -/
inductive SpellsFraction : Option (List Nat) → List Char → Prop
  | absent : SpellsFraction none []
  | point {digits : List Nat} (isDecimal : IsDecimal digits) :
      SpellsFraction (some digits) ('.' :: digitChars digits)

/-- The sign of an exponent, which may be a plus, too. -/
inductive SpellsExponentSign : (negative : Bool) → List Char → Prop
  | absent : SpellsExponentSign false []
  | plus : SpellsExponentSign false ['+']
  | minus : SpellsExponentSign true ['-']

/-- The exponent of a number. -/
inductive SpellsExponent : Option Int → List Char → Prop
  | absent : SpellsExponent none []
  | present {letter : Char} {negative : Bool} {sign : List Char} {digits : List Nat}
      (isLetter : letter = 'e' ∨ letter = 'E')
      (spellsSign : SpellsExponentSign negative sign)
      (isDecimal : IsDecimal digits) :
      SpellsExponent
        (some (if negative then -(Numeral.ofDigits digits : Int) else Numeral.ofDigits digits))
        (letter :: (sign ++ digitChars digits))

/-- The text of a number. -/
inductive SpellsNumeral (numeral : Numeral) : List Char → Prop
  | parts {sign fraction exponent : List Char}
      (spellsSign : SpellsSign numeral.negative sign)
      (isWhole : IsWhole numeral.whole)
      (spellsFraction : SpellsFraction numeral.fraction? fraction)
      (spellsExponent : SpellsExponent numeral.exponent? exponent) :
      SpellsNumeral numeral (sign ++ (digitChars numeral.whole ++ (fraction ++ exponent)))

/-! ## Strings -/

/-- A part of a string: a character, a short escape or four hex digits. -/
inductive SpellsPiece : Piece → List Char → Prop
  | plain {char : Char}
      (isPlain : 0x20 ≤ char.toNat)
      (noQuote : char ≠ '"')
      (noEscape : char ≠ '\\') :
      SpellsPiece (.char char) [char]
  | short {char escape : Char}
      (isEscape : Token.shortEscape? escape = some char) :
      SpellsPiece (.char char) ['\\', escape]
  | hex {first second third fourth : Char} {unit : Nat}
      (isUnit : Token.hexUnit? first second third fourth = some unit) :
      SpellsPiece (.unit unit) ['\\', 'u', first, second, third, fourth]

/-- The parts of a string one after the other. -/
inductive SpellsPieces : List Piece → List Char → Prop
  | nil : SpellsPieces [] []
  | cons {piece : Piece} {pieces : List Piece} {text others : List Char}
      (spells : SpellsPiece piece text)
      (spellsOthers : SpellsPieces pieces others) :
      SpellsPieces (piece :: pieces) (text ++ others)

/-- A string between its quotes. -/
inductive SpellsString : Quoted → List Char → Prop
  | quotes {pieces : List Piece} {text : List Char} (spells : SpellsPieces pieces text) :
      SpellsString ⟨pieces, none⟩ ('"' :: (text ++ ['"']))

/-! ## Values -/

mutual

/-- The text of a value, without blanks around it. -/
inductive Spells : Reading → List Char → Prop
  | null : Spells .null ['n', 'u', 'l', 'l']
  | true : Spells (.bool true) ['t', 'r', 'u', 'e']
  | false : Spells (.bool false) ['f', 'a', 'l', 's', 'e']
  | number {numeral : Numeral} {text : List Char} (spells : SpellsNumeral numeral text) :
      Spells (.number numeral) text
  | string {body : Quoted} {text : List Char} (spells : SpellsString body text) :
      Spells (.string body) text
  | emptyArray {gap : List Char} (isGap : IsGap gap) :
      Spells (.array [] none) ('[' :: (gap ++ [']']))
  | array {items : List Reading} {text : List Char} (spells : SpellsItems items text) :
      Spells (.array items none) ('[' :: (text ++ [']']))
  | emptyObject {gap : List Char} (isGap : IsGap gap) :
      Spells (.object [] none) ('\x7b' :: (gap ++ ['\x7d']))
  | object {members : List (Quoted × Reading)} {text : List Char}
      (spells : SpellsMembers members text) :
      Spells (.object members none) ('\x7b' :: (text ++ ['\x7d']))

/-- The text of a value with blanks around it, which is how a whole document is written. -/
inductive SpellsPadded : Reading → List Char → Prop
  | gaps {value : Reading} {before text after : List Char}
      (isBefore : IsGap before)
      (spells : Spells value text)
      (isAfter : IsGap after) :
      SpellsPadded value (before ++ (text ++ after))

/-- The items of an array, at least one. -/
inductive SpellsItems : List Reading → List Char → Prop
  | last {item : Reading} {text : List Char} (spells : SpellsPadded item text) :
      SpellsItems [item] text
  | next {item : Reading} {items : List Reading} {text others : List Char}
      (spells : SpellsPadded item text)
      (spellsOthers : SpellsItems items others) :
      SpellsItems (item :: items) (text ++ ',' :: others)

/-- A member of an object: its name, a colon and its value. -/
inductive SpellsMember : Quoted × Reading → List Char → Prop
  | colon {name : Quoted} {value : Reading} {before nameText after text : List Char}
      (isBefore : IsGap before)
      (spellsName : SpellsString name nameText)
      (isAfter : IsGap after)
      (spells : SpellsPadded value text) :
      SpellsMember (name, value) (before ++ (nameText ++ (after ++ ':' :: text)))

/-- The members of an object, at least one. -/
inductive SpellsMembers : List (Quoted × Reading) → List Char → Prop
  | last {member : Quoted × Reading} {text : List Char} (spells : SpellsMember member text) :
      SpellsMembers [member] text
  | next {member : Quoted × Reading} {members : List (Quoted × Reading)}
      {text others : List Char}
      (spells : SpellsMember member text)
      (spellsOthers : SpellsMembers members others) :
      SpellsMembers (member :: members) (text ++ ',' :: others)

end

end Json
end ScriptHost
