import ScriptHost.Binary64

/-!
# JSON numerals

The parts of a number as it is written: a sign, digits, digits after a point and an
exponent. Reading one as a double first collects the leading digits that fit a
64-bit word, and then multiplies by a power of ten; a numeral is out of range if that
product is no longer finite.
-/

namespace ScriptHost
namespace Json

/-- A written number. -/
structure Numeral where
  negative : Bool
  whole : List Nat
  fraction? : Option (List Nat)
  exponent? : Option Int
deriving DecidableEq, Repr

namespace Numeral

/-- The number that decimal digits spell. -/
def ofDigits (digits : List Nat) : Nat :=
  digits.foldl (fun value digit => value * 10 + digit) 0

/-- The digits after the point. -/
def fraction (numeral : Numeral) : List Nat :=
  numeral.fraction?.getD []

/-- Whether only a sign and digits are written. -/
def isInteger (numeral : Numeral) : Bool :=
  numeral.fraction?.isNone && numeral.exponent?.isNone

/-- The unsigned 64-bit number that a numeral writes. A sign is not accepted. -/
def toWord? (numeral : Numeral) : Option UInt64 :=
  let value := ofDigits numeral.whole
  if numeral.isInteger && !numeral.negative && value < UInt64.size then some (UInt64.ofNat value)
  else none

/-- The exact value as digits and a power of ten. -/
def decimal (numeral : Numeral) : Nat × Int :=
  (ofDigits (numeral.whole ++ numeral.fraction),
    numeral.exponent?.getD 0 - numeral.fraction.length)

/-- The number nearest to the exact value. -/
def toBinary64 (numeral : Numeral) : Binary64 :=
  let (digits, exponent) := numeral.decimal
  if digits = 0 then .zero numeral.negative
  else if 400 < exponent + (Nat.toDigits 10 digits).length then .infinity numeral.negative
  else if exponent + (Nat.toDigits 10 digits).length < -400 then .zero numeral.negative
  else .ofDecimal numeral.negative digits exponent

/-- Collect digits as long as the number they spell fits a 64-bit word. The answer is
that number and how many digits were left out. -/
def collect (value : Nat) : List Nat → Nat × Nat
  | [] => (value, 0)
  | digit :: rest =>
      if value * 10 + digit < UInt64.size then collect (value * 10 + digit) rest
      else (value, rest.length + 1)

/-- The largest power of ten that is a double. -/
def largestPower : Int := 308

/-- The significand and the exponent of a positive double. -/
def parts (number : Binary64) : Nat × Int :=
  match number.meaning with
  | .finite _ significand exponent => (significand, exponent)
  | _ => (0, 0)

/-- Whether the product of two doubles is rounded to infinity. -/
def productOverflows (left right : Binary64) : Bool :=
  let (leftSignificand, leftExponent) := parts left
  let (rightSignificand, rightExponent) := parts right
  let exponent := leftExponent + rightExponent
  let firstInfinite := 0x3fffffffffffff * Binary64.factor 2 970
  0 ≤ exponent
    && firstInfinite ≤ leftSignificand * rightSignificand * Binary64.factor 2 exponent

/-- Whether the double of a numeral is out of range. -/
def overflows (numeral : Numeral) : Bool :=
  let (significand, dropped) := collect 0 (numeral.whole ++ numeral.fraction)
  let exponent := numeral.exponent?.getD 0 - numeral.fraction.length + dropped
  if significand = 0 || exponent ≤ 0 then false
  else if largestPower < exponent then true
  else productOverflows (.ofInt significand) (.ofDecimal false 1 exponent)

end Numeral
end Json
end ScriptHost
