import Mathlib.Algebra.Order.Field.Power
import Mathlib.Data.Rat.Cast.Order
import Mathlib.Tactic.Linarith
import Mathlib.Tactic.NormNum
import Mathlib.Tactic.Positivity
import Mathlib.Tactic.Ring
import ScriptHost.Binary64

/-!
# What numbers are worth

A finite number is worth a rational one. A ratio is worth what it is as a fraction, and the number
nearest to it is off by no more than half of its last place.
-/

namespace ScriptHost
namespace Binary64

/-- What a sign, a significand and an exponent are worth. -/
def worth
    (negative : Bool)
    (significand : Nat)
    (exponent : Int) : ℚ :=
  (if negative then -1 else 1) * (significand * 2 ^ exponent)

/-- What a number is worth. Infinities and NaN are worth nothing. -/
def value? (number : Binary64) : Option ℚ :=
  match number.meaning with
  | .nan => none
  | .infinity _ => none
  | .finite negative significand exponent => some (worth negative significand exponent)

/-- A finite number has the value that its parts are worth. -/
theorem value?_of_finite
    {number : Binary64}
    {negative : Bool}
    {significand : Nat}
    {exponent : Int}
    (isFinite : number.meaning = .finite negative significand exponent) :
    number.value? = some (worth negative significand exponent) := by
  rw [value?, isFinite]

/-- A number that has a value is finite. -/
theorem exists_finite_of_value?
    {number : Binary64}
    {value : ℚ}
    (isValue : number.value? = some value) :
    ∃ negative significand exponent,
      number.meaning = .finite negative significand exponent ∧
        value = worth negative significand exponent := by
  unfold value? at isValue
  split at isValue
  next => cases isValue
  next => cases isValue
  next negative significand exponent isFinite =>
    cases isValue
    exact ⟨negative, significand, exponent, isFinite, rfl⟩

/-! ## Factors -/

/-- A positive base has positive powers. -/
theorem factor_pos
    {base : Nat}
    (positive : 0 < base)
    (exponent : Int) :
    0 < factor base exponent :=
  Nat.pow_pos positive

/-- A power is the ratio of its two factors. -/
theorem factor_div_factor
    (base : Nat)
    (exponent : Int) :
    (factor base exponent : ℚ) / factor base (-exponent) = (base : ℚ) ^ exponent := by
  have factor_eq (power : Int) : (factor base power : ℚ) = (base : ℚ) ^ power.toNat :=
    Nat.cast_pow base _
  cases exponent with
  | ofNat power =>
      rw [factor_eq, factor_eq, show (-Int.ofNat power).toNat = 0 by simp, pow_zero, div_one]
      rfl
  | negSucc power =>
      rw [factor_eq, factor_eq, show (Int.negSucc power).toNat = 0 from rfl, pow_zero,
        Int.neg_negSucc, Int.toNat_natCast, one_div, zpow_negSucc]

/-- A ratio that is scaled by the factors of a power is the ratio times that power. -/
theorem scaled_ratio
    (numerator denominator base : Nat)
    (exponent : Int) :
    ((numerator * factor base exponent : Nat) : ℚ) /
        (denominator * factor base (-exponent) : Nat) =
      numerator / denominator * (base : ℚ) ^ exponent := by
  rw [Nat.cast_mul, Nat.cast_mul, mul_div_mul_comm, factor_div_factor]

/-- Higher places are whole numbers of lower ones. -/
theorem mul_zpow_add
    (count places : Nat)
    (place : Int) :
    (count * 2 ^ (place + places) : ℚ) = (count * 2 ^ places : Nat) * 2 ^ place := by
  rw [zpow_add₀ two_ne_zero, zpow_natCast]
  push_cast
  ring

theorem cast_leadingBit : (leadingBit : ℚ) = 2 ^ (fractionBits : Int) := by
  norm_num [leadingBit, fractionBits]

theorem two_mul_leadingBit : (2 * leadingBit : ℚ) = 2 ^ (fractionBits + 1 : Int) := by
  rw [cast_leadingBit, zpow_add_one₀ two_ne_zero, mul_comm]

/-! ## Whole numbers -/

/-- A significand and an exponent are worth a ratio of natural numbers, up to the sign. -/
theorem worth_eq
    (negative : Bool)
    (significand : Nat)
    (exponent : Int) :
    worth negative significand exponent =
      (if negative then -1 else 1) *
        ((significand * factor 2 exponent : Nat) / (factor 2 (-exponent) : Nat)) := by
  have scaled := scaled_ratio significand 1 2 exponent
  rw [Nat.one_mul, Nat.cast_one, div_one, Nat.cast_ofNat] at scaled
  rw [worth, scaled]

/-- A number is read as an integer if it is worth that integer, and only then. -/
theorem toInt?_eq_some_iff
    {number : Binary64}
    {integer : Int} :
    number.toInt? = some integer ↔ number.value? = some (integer : ℚ) := by
  unfold toInt? value?
  cases number.meaning with
  | nan => simp
  | infinity negative => simp
  | finite negative significand exponent =>
    have positive : 0 < factor 2 (-exponent) := factor_pos two_pos _
    have positiveQ : (0 : ℚ) < factor 2 (-exponent) := Nat.cast_pos.mpr positive
    dsimp only
    rw [worth_eq]
    generalize significand * factor 2 exponent = numerator at *
    generalize factor 2 (-exponent) = denominator at *
    split
    next isWhole =>
      obtain ⟨quotient, rfl⟩ := Nat.dvd_of_mod_eq_zero isWhole
      rw [Nat.mul_div_cancel_left _ positive, Nat.cast_mul, mul_div_cancel_left₀ _ positiveQ.ne',
        Option.some_inj, Option.some_inj]
      cases negative <;> simp <;> norm_cast
    next notWhole =>
      refine iff_of_false (Option.some_ne_none _).symm fun isWorth => notWhole ?_
      -- The magnitude of the integer would be the quotient.
      have isMagnitude : (numerator : ℚ) / denominator = integer.natAbs := by
        have isAbs := congrArg abs (Option.some_inj.mp isWorth)
        rw [abs_mul, abs_of_nonneg (show (0 : ℚ) ≤ numerator / denominator by positivity)] at isAbs
        rw [Nat.cast_natAbs, Int.cast_abs, ← isAbs]
        cases negative <;> simp
      rw [div_eq_iff positiveQ.ne', ← Nat.cast_mul, Nat.cast_inj] at isMagnitude
      rw [isMagnitude, Nat.mul_mod_left]

/-! ## The range of the format -/

/-- A finite number has a significand and an exponent within the format. -/
theorem bounds_of_finite
    {number : Binary64}
    {negative : Bool}
    {significand : Nat}
    {exponent : Int}
    (isFinite : number.meaning = .finite negative significand exponent) :
    significand < 2 * leadingBit ∧ leastExponent ≤ exponent ∧ exponent ≤ 971 := by
  have fraction_lt : number.fraction < leadingBit := Nat.mod_lt _ (by decide)
  have field_lt : number.exponentField < 2048 := Nat.mod_lt _ (by decide)
  unfold meaning at isFinite
  split at isFinite
  next => split at isFinite <;> cases isFinite
  next notSpecial =>
    simp only [specialField] at notSpecial
    split at isFinite
    all_goals
      cases isFinite
      refine ⟨by omega, ?_, ?_⟩
    all_goals simp only [leastExponent]; omega

/-- The magnitude of a finite number is below the first power of two that is beyond the format. -/
theorem magnitude_lt
    {number : Binary64}
    {negative : Bool}
    {significand : Nat}
    {exponent : Int}
    (isFinite : number.meaning = .finite negative significand exponent) :
    (significand * 2 ^ exponent : ℚ) < 2 ^ (1024 : Int) := by
  obtain ⟨inRange, -, isGreatest⟩ := bounds_of_finite isFinite
  have inRange : (significand : ℚ) < 2 * leadingBit := by exact_mod_cast inRange
  calc (significand * 2 ^ exponent : ℚ) < 2 * leadingBit * 2 ^ exponent := by gcongr
    _ = 2 ^ (fractionBits + 1 + exponent) := by
        rw [two_mul_leadingBit, ← zpow_add₀ two_ne_zero]
    _ ≤ 2 ^ (1024 : Int) := zpow_le_zpow_right₀ one_le_two (by unfold fractionBits; omega)

/-- Beyond the bits of a significand every number is whole. -/
theorem exists_nat_of_le
    {number : Binary64}
    {value : ℚ}
    (isValue : number.value? = some value)
    (isGreat : 2 * leadingBit ≤ value) :
    ∃ count : Nat, value = count := by
  obtain ⟨negative, significand, exponent, isFinite, rfl⟩ := exists_finite_of_value? isValue
  have positive : (0 : ℚ) < leadingBit := by norm_num [leadingBit]
  have inRange : (significand : ℚ) < 2 * leadingBit := by
    exact_mod_cast (bounds_of_finite isFinite).1
  have isAbove : (0 : ℚ) ≤ significand * 2 ^ exponent := by positivity
  cases negative with
  | true =>
      rw [worth, if_pos rfl] at isGreat
      linarith
  | false =>
      rw [worth, if_neg Bool.false_ne_true, one_mul] at isGreat ⊢
      have notBelow : 0 ≤ exponent := by
        by_contra isBelow
        have isSmall : (2 : ℚ) ^ exponent ≤ 1 :=
          zpow_le_one_of_nonpos₀ one_le_two (not_le.mp isBelow).le
        have := mul_le_of_le_one_right (show (0 : ℚ) ≤ significand by positivity) isSmall
        linarith
      obtain ⟨places, rfl⟩ := Int.eq_ofNat_of_zero_le notBelow
      exact ⟨significand * 2 ^ places, by push_cast; rfl⟩

/-! ## Fields -/

section Fields

variable {magnitude : Nat} (isFinite : magnitude < specialField * leadingBit)

include isFinite

/-- The bits of a number are its sign and its magnitude. -/
theorem toNat_bits_ofMagnitude (negative : Bool) :
    (ofMagnitude negative magnitude).bits.toNat =
      (if negative then signBit else 0) + magnitude := by
  simp only [specialField, leadingBit] at isFinite
  unfold ofMagnitude signBit
  rw [UInt64.toNat_ofNat']
  split <;> omega

theorem negative_ofMagnitude (negative : Bool) :
    (ofMagnitude negative magnitude).negative = negative := by
  rw [Binary64.negative, toNat_bits_ofMagnitude isFinite]
  simp only [specialField, leadingBit] at isFinite
  cases negative with
  | false => exact beq_false_of_ne (by rw [if_neg Bool.false_ne_true]; simp only [signBit]; omega)
  | true => exact beq_iff_eq.mpr (by rw [if_pos rfl]; simp only [signBit]; omega)

/-- The exponent field of a number is in the upper part of its magnitude. -/
theorem exponentField_ofMagnitude (negative : Bool) :
    (ofMagnitude negative magnitude).exponentField = magnitude / leadingBit := by
  rw [exponentField, toNat_bits_ofMagnitude isFinite]
  simp only [specialField, leadingBit, signBit] at *
  split <;> omega

/-- The fraction of a number is in the lower part of its magnitude. -/
theorem fraction_ofMagnitude (negative : Bool) :
    (ofMagnitude negative magnitude).fraction = magnitude % leadingBit := by
  rw [fraction, toNat_bits_ofMagnitude isFinite]
  simp only [leadingBit, signBit]
  split <;> omega

/-- A magnitude is read as a subnormal number or with its leading bit. -/
theorem meaning_ofMagnitude (negative : Bool) :
    (ofMagnitude negative magnitude).meaning =
      if magnitude / leadingBit = 0 then
        .finite negative (magnitude % leadingBit) leastExponent
      else
        .finite negative (leadingBit + magnitude % leadingBit)
          (leastExponent + (magnitude / leadingBit : Nat) - 1) := by
  rw [meaning, negative_ofMagnitude isFinite, exponentField_ofMagnitude isFinite,
    fraction_ofMagnitude isFinite, if_neg (Nat.div_lt_of_lt_mul ?_).ne]
  rwa [Nat.mul_comm]

end Fields

/-- Zero is worth nothing, whatever its sign. -/
theorem value?_zero (negative : Bool) : (zero negative).value? = some 0 := by
  have isZero : (zero negative).meaning = .finite negative 0 leastExponent :=
    meaning_ofMagnitude (by decide) negative
  rw [value?_of_finite isZero, worth, Nat.cast_zero, zero_mul, mul_zero]

/-- A significand has its leading bit, unless its last place is the smallest; and its number is
finite, also if the significand is carried into the next exponent. -/
structure IsPlaced
    (significand : Nat)
    (exponent : Int) : Prop where
  isLeast : leastExponent ≤ exponent
  isGreatest : exponent ≤ 970
  isNormal : leadingBit ≤ significand ∨ exponent = leastExponent
  isCarried : significand ≤ 2 * leadingBit

/-- The bits of a magnitude with the leading bit of its significand taken into the exponent. -/
def packed
    (significand : Nat)
    (exponent : Int) : Nat :=
  if significand < leadingBit then significand
  else ((exponent - leastExponent).toNat + 1) * leadingBit + (significand - leadingBit)

/-- A significand in its place is packed into a finite magnitude. -/
theorem IsPlaced.packed_lt
    {significand : Nat}
    {exponent : Int}
    (isPlaced : IsPlaced significand exponent) :
    packed significand exponent < specialField * leadingBit := by
  obtain ⟨isLeast, isGreatest, -, isCarried⟩ := isPlaced
  unfold packed
  split
  all_goals simp only [specialField, leadingBit, leastExponent] at *; omega

/-- The fields of a number that has its leading bit are taken apart again. -/
theorem value?_ofMagnitude_of_normal
    (negative : Bool)
    {field rest : Nat}
    (isNormal : 0 < field)
    (isFinite : field < specialField)
    (isRest : rest < leadingBit) :
    (ofMagnitude negative (field * leadingBit + rest)).value? =
      some (worth negative (leadingBit + rest) (leastExponent + field - 1)) := by
  have positive : 0 < leadingBit := by decide
  have isField : (field * leadingBit + rest) / leadingBit = field := by
    rw [Nat.mul_comm, Nat.mul_add_div positive, Nat.div_eq_of_lt isRest, Nat.add_zero]
  have isFraction : (field * leadingBit + rest) % leadingBit = rest :=
    Nat.mul_add_mod_of_lt isRest
  have inRange : field * leadingBit + rest < specialField * leadingBit := by
    rwa [← Nat.div_lt_iff_lt_mul positive, isField]
  apply value?_of_finite
  rw [meaning_ofMagnitude inRange, isField, isFraction, if_neg isNormal.ne']

/-- A significand that is carried into the next exponent is worth the same there. -/
theorem worth_carried
    (negative : Bool)
    (significand : Nat)
    (exponent : Int) :
    worth negative significand (exponent + 1) = worth negative (2 * significand) exponent := by
  unfold worth
  rw [zpow_add_one₀ two_ne_zero]
  push_cast
  ring

/-- A number is worth what its significand and its exponent are. -/
theorem IsPlaced.value?_eq
    {significand : Nat}
    {exponent : Int}
    (isPlaced : IsPlaced significand exponent)
    (negative : Bool) :
    (ofMagnitude negative (packed significand exponent)).value? =
      some (worth negative significand exponent) := by
  have isFinite := isPlaced.packed_lt
  obtain ⟨isLeast, isGreatest, isNormal, isCarried⟩ := isPlaced
  have positive : 0 < leadingBit := by decide
  by_cases isSmall : significand < leadingBit
  · have isLeast : exponent = leastExponent := isNormal.resolve_left (by omega)
    apply value?_of_finite
    rw [meaning_ofMagnitude isFinite, packed, if_pos isSmall, if_pos (Nat.div_eq_of_lt isSmall),
      Nat.mod_eq_of_lt isSmall, isLeast]
  have hasField : leastExponent + (exponent - leastExponent).toNat = exponent := by omega
  have inRange : (exponent - leastExponent).toNat + 2 < specialField := by
    simp only [specialField, leastExponent]
    omega
  rw [packed, if_neg isSmall]
  generalize (exponent - leastExponent).toNat = field at *
  -- A carry leaves no fraction and moves the leading bit into the next exponent.
  obtain isCarry | notCarry : significand = 2 * leadingBit ∨ significand < 2 * leadingBit := by
    omega
  · have isPacked : (field + 1) * leadingBit + (significand - leadingBit) =
        (field + 2) * leadingBit + 0 := by
      rw [isCarry, Nat.two_mul, Nat.add_sub_cancel, ← Nat.succ_mul]
      exact (Nat.add_zero _).symm
    rw [isPacked, value?_ofMagnitude_of_normal negative (by omega) (by omega) positive, isCarry,
      ← worth_carried, Nat.add_zero,
      show leastExponent + ((field + 2 : Nat) : Int) - 1 = exponent + 1 by omega]
  · rw [value?_ofMagnitude_of_normal negative (by omega) (by omega) (by omega),
      Nat.add_sub_cancel' (by omega),
      show leastExponent + ((field + 1 : Nat) : Int) - 1 = exponent by omega]

/-! ## Rounding -/

/-- A quotient is rounded down if the remainder is at most half of the denominator, and up if it is
at least half. -/
theorem roundQuotient_cases (numerator denominator : Nat) :
    (roundQuotient numerator denominator = numerator / denominator ∧
        2 * (numerator % denominator) ≤ denominator) ∨
      (roundQuotient numerator denominator = numerator / denominator + 1 ∧
        denominator ≤ 2 * (numerator % denominator)) := by
  unfold roundQuotient
  dsimp only
  split
  next isLess => exact .inl ⟨rfl, isLess.le⟩
  split
  next isMore => exact .inr ⟨rfl, isMore.le⟩
  next =>
    obtain isEven | isOdd := Nat.mod_two_eq_zero_or_one (numerator / denominator)
    · rw [isEven]
      exact .inl ⟨rfl, by omega⟩
    · rw [isOdd]
      exact .inr ⟨rfl, by omega⟩

/-- A quotient is rounded by no more than one half. -/
theorem abs_roundQuotient_sub_le
    (numerator : Nat)
    {denominator : Nat}
    (positive : 0 < denominator) :
    |(roundQuotient numerator denominator : ℚ) - numerator / denominator| ≤ 1 / 2 := by
  have positive : (0 : ℚ) < denominator := Nat.cast_pos.mpr positive
  have divided : (denominator : ℚ) * (numerator / denominator : Nat) +
      (numerator % denominator : Nat) = numerator := by
    exact_mod_cast Nat.div_add_mod numerator denominator
  have isSum : (numerator : ℚ) / denominator =
      (numerator / denominator : Nat) + (numerator % denominator : Nat) / denominator := by
    rw [div_eq_iff positive.ne', add_mul, div_mul_cancel₀ _ positive.ne', mul_comm, divided]
  rw [isSum, abs_le]
  obtain ⟨isDown, isLow⟩ | ⟨isUp, isHigh⟩ := roundQuotient_cases numerator denominator
  · rw [isDown]
    have isLow : ((numerator % denominator : Nat) : ℚ) / denominator ≤ 1 / 2 := by
      rw [div_le_iff₀ positive]
      have : (2 : ℚ) * (numerator % denominator : Nat) ≤ denominator := by exact_mod_cast isLow
      linarith
    have : (0 : ℚ) ≤ ((numerator % denominator : Nat) : ℚ) / denominator := by positivity
    constructor <;> linarith
  · rw [isUp]
    have isHigh : (1 : ℚ) / 2 ≤ ((numerator % denominator : Nat) : ℚ) / denominator := by
      rw [le_div_iff₀ positive]
      have : (denominator : ℚ) ≤ 2 * (numerator % denominator : Nat) := by exact_mod_cast isHigh
      linarith
    have : ((numerator % denominator : Nat) : ℚ) / denominator ≤ 1 := by
      rw [div_le_one positive]
      exact_mod_cast (Nat.mod_lt _ (by exact_mod_cast positive)).le
    push_cast
    constructor <;> linarith

/-- A quotient is rounded alike when both of its parts are scaled. -/
theorem roundQuotient_mul_left
    (numerator denominator : Nat)
    {scale : Nat}
    (positive : 0 < scale) :
    roundQuotient (scale * numerator) (scale * denominator) =
      roundQuotient numerator denominator := by
  have scaled : ∀ rest, 2 * (scale * rest) = scale * (2 * rest) := fun rest =>
    Nat.mul_left_comm ..
  unfold roundQuotient
  dsimp only
  rw [Nat.mul_div_mul_left _ _ positive, Nat.mul_mod_mul_left, scaled]
  simp only [Nat.mul_lt_mul_left positive]

/-- The natural number that is nearest to a number that is not negative; a tie goes to the even
one. -/
def nearest (value : ℚ) : Nat :=
  roundQuotient value.num.natAbs value.den

/-- The integer nearest to a quotient is the rounded quotient. -/
theorem nearest_div
    (numerator : Nat)
    {denominator : Nat}
    (positive : 0 < denominator) :
    nearest (numerator / denominator) = roundQuotient numerator denominator := by
  let ratio : ℚ := numerator / denominator
  have notNegative : 0 ≤ ratio.num := Rat.num_nonneg.mpr (by positivity)
  have same : ratio.num.natAbs * denominator = numerator * ratio.den := by
    have crossed : (ratio.num : ℚ) * denominator = numerator * ratio.den :=
      (div_eq_div_iff (Nat.cast_ne_zero.mpr ratio.den_nz)
        (Nat.cast_ne_zero.mpr positive.ne')).mp ratio.num_div_den
    have crossed : ratio.num * denominator = numerator * ratio.den := by exact_mod_cast crossed
    rw [← Int.natAbs_of_nonneg notNegative] at crossed
    exact_mod_cast crossed
  calc roundQuotient ratio.num.natAbs ratio.den
      = roundQuotient (denominator * ratio.num.natAbs) (denominator * ratio.den) :=
        (roundQuotient_mul_left _ _ positive).symm
    _ = roundQuotient (ratio.den * numerator) (ratio.den * denominator) := by
        rw [Nat.mul_comm denominator, same, Nat.mul_comm numerator, Nat.mul_comm denominator]
    _ = roundQuotient numerator denominator := roundQuotient_mul_left _ _ ratio.den_pos

/-- The nearest integer is no more than one half away. -/
theorem abs_nearest_sub_le
    {value : ℚ}
    (notNegative : 0 ≤ value) :
    |(nearest value : ℚ) - value| ≤ 1 / 2 := by
  have isNear := abs_roundQuotient_sub_le value.num.natAbs value.den_pos
  have isValue : (value.num.natAbs : ℚ) / value.den = value := by
    rw [Nat.cast_natAbs, abs_of_nonneg (Rat.num_nonneg.mpr notNegative), value.num_div_den]
  rwa [isValue] at isNear

/-- A power of two is at most a ratio if it is so with its factors on both sides. -/
theorem mul_factor_le_iff
    (numerator : Nat)
    {denominator : Nat}
    (positive : 0 < denominator)
    (exponent : Int) :
    denominator * factor 2 exponent ≤ numerator * factor 2 (-exponent) ↔
      (2 : ℚ) ^ exponent ≤ numerator / denominator := by
  have below : (0 : ℚ) < factor 2 (-exponent) := Nat.cast_pos.mpr (factor_pos two_pos _)
  have positive : (0 : ℚ) < denominator := Nat.cast_pos.mpr positive
  have isPower := factor_div_factor 2 exponent
  rw [Nat.cast_ofNat] at isPower
  rw [← isPower, div_le_div_iff₀ below positive, ← Nat.cast_mul, ← Nat.cast_mul, Nat.cast_le,
    Nat.mul_comm denominator]

/-- A ratio lies between the power of its logarithm and the next one. -/
theorem floorLog2_bounds
    {numerator denominator : Nat}
    (isPositive : 0 < numerator)
    (positive : 0 < denominator) :
    (2 : ℚ) ^ floorLog2 numerator denominator ≤ numerator / denominator ∧
      (numerator : ℚ) / denominator < 2 ^ (floorLog2 numerator denominator + 1) := by
  have power_le {number : Nat} (isPositive : 0 < number) :
      (2 : ℚ) ^ (number.log2 : Int) ≤ number := by
    exact_mod_cast Nat.log2_self_le isPositive.ne'
  have lt_power (number : Nat) : (number : ℚ) < 2 ^ ((number.log2 : Int) + 1) := by
    exact_mod_cast Nat.lt_log2_self
  have positiveQ : (0 : ℚ) < denominator := Nat.cast_pos.mpr positive
  unfold floorLog2
  dsimp only
  split
  next fits =>
    refine ⟨(mul_factor_le_iff numerator positive _).mp fits, ?_⟩
    rw [div_lt_iff₀ positiveQ]
    calc (numerator : ℚ) < 2 ^ ((numerator.log2 : Int) + 1) := lt_power numerator
      _ = 2 ^ ((numerator.log2 : Int) - denominator.log2 + 1) * 2 ^ (denominator.log2 : Int) := by
        rw [← zpow_add₀ two_ne_zero]
        congr 1
        ring
      _ ≤ _ := by gcongr; exact power_le positive
  next exceeds =>
    rw [mul_factor_le_iff numerator positive, not_le] at exceeds
    refine ⟨?_, by rwa [sub_add_cancel]⟩
    rw [le_div_iff₀ positiveQ]
    calc 2 ^ ((numerator.log2 : Int) - denominator.log2 - 1) * (denominator : ℚ)
        ≤ 2 ^ ((numerator.log2 : Int) - denominator.log2 - 1) *
          2 ^ ((denominator.log2 : Int) + 1) := by gcongr; exact (lt_power _).le
      _ = 2 ^ (numerator.log2 : Int) := by
        rw [← zpow_add₀ two_ne_zero]
        congr 1
        ring
      _ ≤ numerator := power_le isPositive

/-- A quotient below a power has a smaller logarithm. -/
theorem floorLog2_lt
    {numerator denominator : Nat}
    (isPositive : 0 < numerator)
    (positive : 0 < denominator)
    {exponent : Int}
    (isBelow : (numerator : ℚ) / denominator < 2 ^ exponent) :
    floorLog2 numerator denominator < exponent :=
  (zpow_lt_zpow_iff_right₀ one_lt_two).mp
    ((floorLog2_bounds isPositive positive).1.trans_lt isBelow)

/-- The exponent of the last place of the number nearest to a ratio. -/
def placeOf (numerator denominator : Nat) : Int :=
  max leastExponent (floorLog2 numerator denominator - fractionBits)

/-- The rounded significand is off by no more than half of its last place. -/
theorem abs_roundScaled_sub_le
    (numerator : Nat)
    {denominator : Nat}
    (positive : 0 < denominator)
    (exponent : Int) :
    |(roundScaled numerator denominator exponent : ℚ) - numerator / denominator / 2 ^ exponent| ≤
      1 / 2 := by
  have scaled := scaled_ratio numerator denominator 2 (-exponent)
  rw [neg_neg, zpow_neg, ← div_eq_mul_inv, Nat.cast_ofNat] at scaled
  rw [← scaled]
  exact abs_roundQuotient_sub_le _ (Nat.mul_pos positive (factor_pos two_pos _))

section Ratios

variable {numerator denominator : Nat} (isPositive : 0 < numerator) (positive : 0 < denominator)

include positive

/-- What is a whole number of last places above a ratio is not exceeded by rounding it. -/
theorem roundScaled_le
    {exponent : Int}
    {bound : Nat}
    (isBound : (numerator : ℚ) / denominator ≤ bound * 2 ^ exponent) :
    roundScaled numerator denominator exponent ≤ bound := by
  have isNear := (abs_le.mp (abs_roundScaled_sub_le numerator positive exponent)).2
  rw [← div_le_iff₀ (zpow_pos two_pos _)] at isBound
  have : (roundScaled numerator denominator exponent : ℚ) < bound + 1 := by linarith
  exact Nat.lt_succ_iff.mp (by exact_mod_cast this)

/-- What is a whole number of last places below a ratio is reached by rounding it. -/
theorem le_roundScaled
    {exponent : Int}
    {bound : Nat}
    (isBound : bound * 2 ^ exponent ≤ (numerator : ℚ) / denominator) :
    bound ≤ roundScaled numerator denominator exponent := by
  have isNear := (abs_le.mp (abs_roundScaled_sub_le numerator positive exponent)).1
  rw [← le_div_iff₀ (zpow_pos two_pos _)] at isBound
  have : (bound : ℚ) < roundScaled numerator denominator exponent + 1 := by linarith
  exact Nat.lt_succ_iff.mp (by exact_mod_cast this)

include isPositive

/-- A quotient that is not too large is rounded to a significand in its place. -/
theorem isPlaced_roundScaled
    (inRange : floorLog2 numerator denominator ≤ 1022) :
    IsPlaced (roundScaled numerator denominator (placeOf numerator denominator))
      (placeOf numerator denominator) where
  isLeast := le_max_left _ _
  isGreatest := by
    unfold placeOf leastExponent fractionBits
    omega
  isNormal := by
    obtain isLeast | isNormal := max_choice leastExponent
      (floorLog2 numerator denominator - fractionBits)
    · exact .inr isLeast
    · refine .inl (le_roundScaled positive ?_)
      refine le_trans (le_of_eq ?_) (floorLog2_bounds isPositive positive).1
      rw [placeOf, isNormal, cast_leadingBit, ← zpow_add₀ two_ne_zero, add_sub_cancel]
  isCarried := by
    refine roundScaled_le positive ((floorLog2_bounds isPositive positive).2.le.trans ?_)
    rw [Nat.cast_mul, Nat.cast_ofNat, two_mul_leadingBit, ← zpow_add₀ two_ne_zero]
    refine zpow_le_zpow_right₀ one_le_two ?_
    have : floorLog2 numerator denominator - fractionBits ≤ placeOf numerator denominator :=
      le_max_right _ _
    omega

/-- A ratio that is not too great is rounded to a finite number. -/
theorem value?_ofRatio
    (inRange : floorLog2 numerator denominator ≤ 1022)
    (negative : Bool) :
    (ofRatio negative numerator denominator).value? =
      some (worth negative (roundScaled numerator denominator (placeOf numerator denominator))
        (placeOf numerator denominator)) := by
  have isPlaced := isPlaced_roundScaled isPositive positive inRange
  have isMagnitude : magnitudeOfRatio numerator denominator =
      packed (roundScaled numerator denominator (placeOf numerator denominator))
        (placeOf numerator denominator) :=
    min_eq_left isPlaced.packed_lt.le
  rw [ofRatio, if_neg isPositive.ne', isMagnitude, isPlaced.value?_eq]

/-- A ratio that has its leading bit at a place is rounded no lower than that place. -/
theorem le_placeOf
    {place : Int}
    (reaches : leadingBit * 2 ^ place ≤ (numerator : ℚ) / denominator) :
    place ≤ placeOf numerator denominator := by
  have isBelow := reaches.trans_lt (floorLog2_bounds isPositive positive).2
  rw [cast_leadingBit, ← zpow_add₀ two_ne_zero, zpow_lt_zpow_iff_right₀ one_lt_two] at isBelow
  exact le_max_of_le_right (by omega)

/-- A ratio whose leading bit is not beyond a place is rounded no higher than that place. -/
theorem placeOf_le
    {place : Int}
    (isLeast : leastExponent ≤ place)
    (stays : (numerator : ℚ) / denominator < 2 * leadingBit * 2 ^ place) :
    placeOf numerator denominator ≤ place := by
  rw [two_mul_leadingBit, ← zpow_add₀ two_ne_zero] at stays
  have isBelow := floorLog2_lt isPositive positive stays
  exact max_le isLeast (by omega)

/-- Rounding does not exceed a whole number of places above a ratio. -/
theorem roundScaled_mul_le
    {place : Int}
    {bound : Nat}
    (isLeast : leastExponent ≤ place)
    (stays : bound < 2 * leadingBit)
    (isBound : (numerator : ℚ) / denominator ≤ bound * 2 ^ place) :
    roundScaled numerator denominator (placeOf numerator denominator) *
      2 ^ placeOf numerator denominator ≤ (bound * 2 ^ place : ℚ) := by
  have isAbove : placeOf numerator denominator ≤ place := by
    refine placeOf_le isPositive positive isLeast (isBound.trans_lt ?_)
    gcongr
    exact_mod_cast stays
  generalize placeOf numerator denominator = exponent at *
  obtain ⟨places, rfl⟩ := Int.le.dest isAbove
  rw [mul_zpow_add] at isBound ⊢
  gcongr
  exact roundScaled_le positive isBound

end Ratios

/-! ## Gaps -/

/-- Between two neighbouring multiples of a place there is no number, if they are great enough. -/
theorem le_pred_of_lt
    {significand bound : Nat}
    {exponent place : Int}
    (inRange : significand < 2 * leadingBit)
    (isGreat : leadingBit < bound)
    (isLess : (significand * 2 ^ exponent : ℚ) < bound * 2 ^ place) :
    (significand * 2 ^ exponent : ℚ) ≤ (bound - 1 : Nat) * 2 ^ place := by
  obtain isBelow | isAbove := lt_or_ge exponent place
  · calc (significand * 2 ^ exponent : ℚ) ≤ (2 * leadingBit : Nat) * 2 ^ (place - 1) := by
          gcongr
          · norm_num
          · omega
      _ = leadingBit * 2 ^ place := by
          rw [zpow_sub_one₀ two_ne_zero]
          push_cast
          ring
      _ ≤ (bound - 1 : Nat) * 2 ^ place := by
          gcongr
          omega
  · obtain ⟨places, rfl⟩ := Int.le.dest isAbove
    rw [mul_zpow_add] at isLess ⊢
    have isLess := lt_of_mul_lt_mul_right isLess (by positivity)
    gcongr
    exact Nat.le_pred_of_lt (by exact_mod_cast isLess)

end Binary64
end ScriptHost
