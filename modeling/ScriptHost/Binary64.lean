/-!
# Numbers in double precision

A number of the binary64 format is held as its bit pattern and read as an exact value
`significand * 2 ^ exponent`. Nothing here is computed in hardware arithmetic: a result
that has to be rounded is rounded once, from an exact ratio, to the nearest number,
and a tie goes to the even significand.
-/

namespace ScriptHost

/-- A number of the binary64 format. -/
structure Binary64 where
  bits : UInt64
deriving DecidableEq, Repr, Inhabited

namespace Binary64

/-- What a bit pattern stands for. A finite number has the magnitude
`significand * 2 ^ exponent`. -/
inductive Meaning
  | nan
  | infinity (negative : Bool)
  | finite (negative : Bool) (significand : Nat) (exponent : Int)
deriving DecidableEq, Repr

/-- The number of bits of a fraction field. -/
def fractionBits : Nat := 52

/-- The bit that stands in front of the fraction of a normal number. -/
def leadingBit : Nat := 0x10000000000000

/-- The bit of a negative sign. -/
def signBit : Nat := 0x8000000000000000

/-- The exponent of the last place of the smallest numbers. -/
def leastExponent : Int := -1074

/-- The value of the exponent field that is kept for infinities and NaN. -/
def specialField : Nat := 2047

/-- The factor of a power above the bar of a ratio. A negative power leaves one there and
has its factor below the bar. -/
def factor (base : Nat) (exponent : Int) : Nat :=
  Nat.pow base exponent.toNat

/-- Whether a bit pattern has the negative sign. -/
def negative (number : Binary64) : Bool :=
  number.bits.toNat / signBit == 1

/-- The exponent field of a bit pattern. -/
def exponentField (number : Binary64) : Nat :=
  number.bits.toNat / leadingBit % 2048

/-- The fraction field of a bit pattern. -/
def fraction (number : Binary64) : Nat :=
  number.bits.toNat % leadingBit

/-- What a number stands for. -/
def meaning (number : Binary64) : Meaning :=
  if number.exponentField = specialField then
    if number.fraction = 0 then .infinity number.negative else .nan
  else if number.exponentField = 0 then
    .finite number.negative number.fraction leastExponent
  else
    .finite number.negative (leadingBit + number.fraction)
      (leastExponent + number.exponentField - 1)

/-- Put a sign and the bits of a magnitude together. -/
def ofMagnitude
    (negative : Bool)
    (magnitude : Nat) : Binary64 :=
  ⟨UInt64.ofNat ((if negative then signBit else 0) + magnitude)⟩

/-- The infinity of a sign. -/
def infinity (negative : Bool) : Binary64 :=
  ofMagnitude negative (specialField * leadingBit)

/-- The quiet NaN. -/
def nan : Binary64 :=
  ofMagnitude false (specialField * leadingBit + leadingBit / 2)

/-- The zero of a sign. -/
def zero (negative : Bool) : Binary64 :=
  ofMagnitude negative 0

/-- A quotient to the nearest natural number; a tie goes to the even one. -/
def roundQuotient (numerator denominator : Nat) : Nat :=
  let quotient := numerator / denominator
  let twice := 2 * (numerator % denominator)
  if twice < denominator then quotient
  else if denominator < twice then quotient + 1
  else quotient + quotient % 2

/-- The greatest `k` with `2 ^ k ≤ numerator / denominator`. -/
def floorLog2
    (numerator denominator : Nat) : Int :=
  let estimate : Int := numerator.log2 - denominator.log2
  if denominator * factor 2 estimate ≤ numerator * factor 2 (-estimate) then estimate
  else estimate - 1

/-- A ratio scaled by a power of two and rounded to a natural number. -/
def roundScaled
    (numerator denominator : Nat)
    (exponent : Int) : Nat :=
  roundQuotient (numerator * factor 2 (-exponent)) (denominator * factor 2 exponent)

/-- The bits of the magnitude nearest to a positive ratio. Numbers above the largest
finite one by half a place or more become infinite. -/
def magnitudeOfRatio (numerator denominator : Nat) : Nat :=
  let exponent := max leastExponent (floorLog2 numerator denominator - fractionBits)
  let significand := roundScaled numerator denominator exponent
  let field := (exponent - leastExponent).toNat
  let bits :=
    if significand < leadingBit then significand
    else (field + 1) * leadingBit + (significand - leadingBit)
  min bits (specialField * leadingBit)

/-- The number nearest to a ratio. -/
def ofRatio
    (negative : Bool)
    (numerator denominator : Nat) : Binary64 :=
  if numerator = 0 then zero negative
  else ofMagnitude negative (magnitudeOfRatio numerator denominator)

/-- The number nearest to `digits * 10 ^ exponent`. -/
def ofDecimal
    (negative : Bool)
    (digits : Nat)
    (exponent : Int) : Binary64 :=
  ofRatio negative (digits * factor 10 exponent) (factor 10 (-exponent))

/-- The number nearest to an integer. -/
def ofInt (value : Int) : Binary64 :=
  ofRatio (value < 0) value.natAbs 1

/-- The number nearest to `2 ^ exponent`. -/
def ofPowerOfTwo (exponent : Int) : Binary64 :=
  ofRatio false (factor 2 exponent) (factor 2 (-exponent))

/-- The number that a bit pattern of the binary32 format stands for. Every number of
that format is exact in this one. -/
def ofBinary32 (bits : UInt32) : Binary64 :=
  let negative := bits.toNat / 0x80000000 == 1
  let field := bits.toNat / 0x800000 % 256
  let fraction := bits.toNat % 0x800000
  if field = 255 then
    if fraction = 0 then infinity negative else nan
  else if field = 0 then ofRatio negative fraction (factor 2 149)
  else ofRatio negative ((0x800000 + fraction) * factor 2 (field - 1)) (factor 2 149)

/-- Whether a number is NaN. -/
def isNaN (number : Binary64) : Bool :=
  number.meaning == .nan

/-- Whether a number is the zero of the negative sign. -/
def isNegativeZero (number : Binary64) : Bool :=
  number == zero true

/-- The integer that a number is equal to. -/
def toInt? (number : Binary64) : Option Int :=
  match number.meaning with
  | .nan => none
  | .infinity _ => none
  | .finite negative significand exponent =>
      let signed := fun magnitude : Nat =>
        if negative then -(magnitude : Int) else (magnitude : Int)
      let numerator := significand * factor 2 exponent
      let denominator := factor 2 (-exponent)
      if numerator % denominator = 0 then some (signed (numerator / denominator)) else none

/-- The quotient by a positive natural number, rounded. -/
def divNat
    (number : Binary64)
    (divisor : Nat) : Binary64 :=
  match number.meaning with
  | .nan => nan
  | .infinity negative => infinity negative
  | .finite negative significand exponent =>
      ofRatio negative (significand * factor 2 exponent) (divisor * factor 2 (-exponent))

end Binary64
end ScriptHost
