import ScriptHost.Binary64.Shortest

/-!
# The text of a number

A number is written with its shortest digits. What else a text consists of is a
matter of style: the words for what is not finite, whether zero has a sign, and the
magnitudes from which on an exponent is written.
-/

namespace ScriptHost
namespace Binary64

/-- A way to write numbers. -/
structure Style where
  nan : String
  infinity : String
  signedZero : Bool
  /-- The decimal exponents of the leading digit that are written without an exponent. -/
  positional : Int → Bool

/-- Messages write every number in positional digits. -/
def messageStyle : Style where
  nan := "NaN"
  infinity := "inf"
  signedZero := true
  positional := fun _ => true

/-- Scripts write an exponent below a millionth and from `10 ^ 21` on. -/
def scriptStyle : Style where
  nan := "NaN"
  infinity := "Infinity"
  signedZero := false
  positional := fun leading => -6 ≤ leading && leading < 21

/-- Digits written in full, with a point if there are places after it. -/
def positionalChars
    (digits : List Char)
    (exponent : Int) : List Char :=
  if 0 ≤ exponent then digits ++ List.replicate exponent.toNat '0'
  else
    let places := (-exponent).toNat
    if places < digits.length then
      digits.take (digits.length - places) ++ '.' :: digits.drop (digits.length - places)
    else '0' :: '.' :: List.replicate (places - digits.length) '0' ++ digits

/-- Digits written with one place before the point and an exponent with its sign. -/
def scientificChars
    (digits : List Char)
    (leading : Int) : List Char :=
  let sign := if leading < 0 then '-' else '+'
  let tail :=
    match digits.drop 1 with
    | [] => []
    | rest => '.' :: rest
  digits.take 1 ++ tail ++ 'e' :: sign :: Nat.toDigits 10 leading.natAbs

/-- The text of a positive magnitude. -/
def magnitudeChars
    (style : Style)
    (significand : Nat)
    (exponent : Int) : List Char :=
  let decimal := shortestDecimal significand exponent
  let digits := Nat.toDigits 10 decimal.digits
  let leading := decimal.exponent + digits.length - 1
  if style.positional leading then positionalChars digits decimal.exponent
  else scientificChars digits leading

/-- The text of a number in a style. -/
def format
    (style : Style)
    (number : Binary64) : String :=
  let signed := fun (negative : Bool) (text : String) => if negative then "-" ++ text else text
  match number.meaning with
  | .nan => style.nan
  | .infinity negative => signed negative style.infinity
  | .finite negative 0 _ => signed (negative && style.signedZero) "0"
  | .finite negative significand exponent =>
      signed negative (String.ofList (magnitudeChars style significand exponent))

/-- The text of a number in a message. -/
def messageText (number : Binary64) : String :=
  number.format messageStyle

/-- The text of a number in a script. -/
def scriptText (number : Binary64) : String :=
  number.format scriptStyle

end Binary64
end ScriptHost
