import ScriptHost.Delay
import ScriptHost.Proofs.Binary64

/-!
# How long delays are

A number of milliseconds is a delay if it is finite and not negative, and less than a limit. Its
seconds are rounded before they are compared, and still the limit is sharp: it is further from the
numbers below it than rounding reaches. The seconds are rounded once more to whole nanoseconds.
-/

namespace ScriptHost
namespace Delay

open Binary64

/-- The number of milliseconds that no delay reaches. -/
def millisecondsLimit : Nat := 1000 * secondsLimit

/-! ## Seconds -/

/-- The numerator of the seconds. -/
def above
    (significand : Nat)
    (exponent : Int) : Nat :=
  significand * factor 2 exponent

/-- The denominator of the seconds. -/
def below (exponent : Int) : Nat :=
  1000 * factor 2 (-exponent)

theorem above_pos
    {significand : Nat}
    (isPositive : 0 < significand)
    (exponent : Int) :
    0 < above significand exponent :=
  Nat.mul_pos isPositive (factor_pos two_pos _)

theorem below_pos (exponent : Int) : 0 < below exponent :=
  Nat.mul_pos (by decide) (factor_pos two_pos _)

theorem seconds_eq
    (significand : Nat)
    (exponent : Int) :
    (above significand exponent : ℚ) / below exponent = significand * 2 ^ exponent / 1000 := by
  rw [above, below, scaled_ratio, Nat.cast_ofNat, Nat.cast_ofNat]
  ring

/-- The exponent of the last place of the seconds. -/
def secondsPlace
    (significand : Nat)
    (exponent : Int) : Int :=
  placeOf (above significand exponent) (below exponent)

/-- The significand of the seconds. -/
def secondsRounded
    (significand : Nat)
    (exponent : Int) : Nat :=
  roundScaled (above significand exponent) (below exponent) (secondsPlace significand exponent)

section Seconds

variable {number : Binary64} {significand : Nat} {exponent : Int}
  (isFinite : number.meaning = .finite false significand exponent) (isPositive : 0 < significand)

include isFinite isPositive

theorem floorLog2_seconds_le :
    floorLog2 (above significand exponent) (below exponent) ≤ 1022 := by
  refine Int.lt_add_one_iff.mp (floorLog2_lt (above_pos isPositive _) (below_pos _) ?_)
  rw [seconds_eq, div_lt_iff₀ (by norm_num)]
  calc (significand * 2 ^ exponent : ℚ) < 2 ^ (1022 + 1 + 1 : Int) := magnitude_lt isFinite
    _ ≤ 2 ^ (1022 + 1 : Int) * 1000 := by
      rw [zpow_add_one₀ two_ne_zero (1022 + 1)]
      gcongr
      norm_num

/-- The seconds are a finite number. -/
theorem value?_seconds :
    (number.divNat 1000).value? =
      some ((secondsRounded significand exponent : ℚ) * 2 ^ secondsPlace significand exponent) := by
  have isValue := value?_ofRatio (above_pos isPositive exponent) (below_pos exponent)
    (floorLog2_seconds_le isFinite isPositive) false
  rw [worth, if_neg Bool.false_ne_true, one_mul] at isValue
  rw [divNat, isFinite]
  exact isValue

/-- Seconds at the limit or beyond stay there. -/
theorem limit_le_seconds
    (reaches : (millisecondsLimit : ℚ) ≤ significand * 2 ^ exponent) :
    (secondsLimit : ℚ) ≤
      secondsRounded significand exponent * 2 ^ secondsPlace significand exponent := by
  have isPlaced : IsPlaced (secondsRounded significand exponent)
      (secondsPlace significand exponent) :=
    isPlaced_roundScaled (above_pos isPositive _) (below_pos _)
      (floorLog2_seconds_le isFinite isPositive)
  have isHigh : 12 ≤ secondsPlace significand exponent := by
    refine le_placeOf (above_pos isPositive _) (below_pos _) ?_
    rw [seconds_eq, le_div_iff₀ (by norm_num)]
    refine le_trans (le_of_eq ?_) reaches
    norm_num [millisecondsLimit, secondsLimit, leadingBit]
  have isNormal : leadingBit ≤ secondsRounded significand exponent := by
    refine isPlaced.isNormal.resolve_right fun isLeast => ?_
    rw [isLeast] at isHigh
    exact absurd isHigh (by decide)
  calc (secondsLimit : ℚ) = leadingBit * 2 ^ (12 : Int) := by
        norm_num [secondsLimit, leadingBit]
    _ ≤ secondsRounded significand exponent * 2 ^ secondsPlace significand exponent := by
      gcongr
      exact one_le_two

/-- Seconds below the limit stay below it by some places. -/
theorem seconds_le
    (stays : (significand * 2 ^ exponent : ℚ) < millisecondsLimit) :
    (secondsRounded significand exponent * 2 ^ secondsPlace significand exponent : ℚ) ≤
      secondsLimit - 2048 := by
  -- The number before the limit is too far from it for the seconds to be rounded up to it.
  have isBelow : (significand * 2 ^ exponent : ℚ) ≤
      (1000 * 2 ^ 43 - 1 : Nat) * 2 ^ (21 : Int) := by
    refine le_pred_of_lt (bounds_of_finite isFinite).1 (by decide) (stays.trans_le (le_of_eq ?_))
    norm_num [millisecondsLimit, secondsLimit]
  have isRounded : (secondsRounded significand exponent *
      2 ^ secondsPlace significand exponent : ℚ) ≤ (2 * leadingBit - 1 : Nat) * 2 ^ (11 : Int) := by
    refine roundScaled_mul_le (above_pos isPositive _) (below_pos _) (by decide) (by decide) ?_
    rw [seconds_eq, div_le_iff₀ (by norm_num)]
    refine isBelow.trans ?_
    norm_num [leadingBit]
  refine isRounded.trans (le_of_eq ?_)
  norm_num [secondsLimit, leadingBit]

end Seconds

/-- Neither zero has any seconds. -/
theorem value?_seconds_of_zero
    {number : Binary64}
    {negative : Bool}
    {exponent : Int}
    (isZero : number.meaning = .finite negative 0 exponent) :
    (number.divNat 1000).value? = some 0 := by
  rw [divNat, isZero]
  dsimp only
  rw [Nat.zero_mul, ofRatio, if_pos rfl, value?_zero]

/-- The seconds of a number of milliseconds, as they are rounded. -/
def secondsOf (milliseconds : Binary64) : ℚ :=
  (milliseconds.divNat 1000).value?.getD 0

/-- What is known of the seconds of a number of milliseconds that is not negative. -/
structure AreSeconds (milliseconds : Binary64) (value : ℚ) : Prop where
  value?_eq : (milliseconds.divNat 1000).value? = some (secondsOf milliseconds)
  notNegative : 0 ≤ secondsOf milliseconds
  reaches : (millisecondsLimit : ℚ) ≤ value → (secondsLimit : ℚ) ≤ secondsOf milliseconds
  stays : value < millisecondsLimit → secondsOf milliseconds ≤ secondsLimit - 2048

theorem areSeconds
    {milliseconds : Binary64}
    {value : ℚ}
    (isValue : milliseconds.value? = some value)
    (notNegative : 0 ≤ value) :
    AreSeconds milliseconds value := by
  obtain ⟨negative, significand, exponent, isFinite, rfl⟩ := exists_finite_of_value? isValue
  obtain rfl | isPositive := Nat.eq_zero_or_pos significand
  · have value?_eq := value?_seconds_of_zero isFinite
    have seconds_eq : secondsOf milliseconds = 0 := by rw [secondsOf, value?_eq, Option.getD_some]
    rw [worth, Nat.cast_zero, zero_mul, mul_zero]
    refine ⟨seconds_eq.symm ▸ value?_eq, seconds_eq.ge, fun reaches => ?_, fun _ => ?_⟩
    · exact absurd reaches (by norm_num [millisecondsLimit, secondsLimit])
    · rw [seconds_eq]
      norm_num [secondsLimit]
  · have isPositiveQ : (0 : ℚ) < significand * 2 ^ exponent := by positivity
    cases negative with
    | true =>
        rw [worth, if_pos rfl] at notNegative
        linarith
    | false =>
        have value?_eq := value?_seconds isFinite isPositive
        have seconds_eq : secondsOf milliseconds =
            secondsRounded significand exponent * 2 ^ secondsPlace significand exponent := by
          rw [secondsOf, value?_eq, Option.getD_some]
        rw [worth, if_neg Bool.false_ne_true, one_mul]
        refine ⟨seconds_eq.symm ▸ value?_eq, ?_, fun reaches => ?_, fun stays => ?_⟩
        · rw [seconds_eq]
          positivity
        · rw [seconds_eq]
          exact limit_le_seconds isFinite isPositive reaches
        · rw [seconds_eq]
          exact seconds_le isFinite isPositive stays

/-! ## Delays -/

/-- Seconds are a delay below the limit, and then they are rounded to nanoseconds. -/
theorem ofSeconds_eq
    {seconds : Binary64}
    {value : ℚ}
    (isValue : seconds.value? = some value)
    (notNegative : 0 ≤ value) :
    ofSeconds seconds =
      if secondsLimit ≤ value then .error .tooLong else .ok (nearest (1000000000 * value)) := by
  obtain ⟨negative, significand, exponent, isFinite, rfl⟩ := exists_finite_of_value? isValue
  have isPositive : 0 < factor 2 (-exponent) := factor_pos two_pos _
  have isPositiveQ : (0 : ℚ) < (factor 2 (-exponent) : Nat) := Nat.cast_pos.mpr isPositive
  have isRatio : worth negative significand exponent =
      ((significand * factor 2 exponent : Nat) : ℚ) / (factor 2 (-exponent) : Nat) := by
    have scaled := scaled_ratio significand 1 2 exponent
    rw [Nat.one_mul, Nat.cast_one, div_one, Nat.cast_ofNat] at scaled
    rw [scaled]
    cases negative with
    | false => exact one_mul _
    | true =>
        rw [worth, if_pos rfl] at notNegative ⊢
        have : (0 : ℚ) ≤ significand * 2 ^ exponent := by positivity
        linarith
  rw [isRatio, ← mul_div_assoc, ofSeconds, isFinite]
  dsimp only
  rw [show (1000000000 : ℚ) * (significand * factor 2 exponent : Nat) =
      ((1000000000 * (significand * factor 2 exponent) : Nat) : ℚ) by push_cast; rfl,
    nearest_div _ isPositive]
  refine if_congr ?_ rfl rfl
  rw [le_div_iff₀ isPositiveQ]
  norm_cast

/-- A number of milliseconds is a delay if it is finite and not negative and below the limit; and
then its seconds are rounded to nanoseconds. -/
theorem nanoseconds_eq (milliseconds : Binary64) :
    nanoseconds milliseconds =
      match milliseconds.value? with
      | none => .error .invalid
      | some value =>
          if value < 0 then .error .invalid
          else if millisecondsLimit ≤ value then .error .tooLong
          else .ok (nearest (1000000000 * secondsOf milliseconds)) := by
  cases isMeaning : milliseconds.meaning with
  | nan | infinity negative => rw [nanoseconds, value?, isMeaning]
  | finite negative significand exponent =>
      have isValue := value?_of_finite isMeaning
      have isNegative_iff : worth negative significand exponent < 0 ↔
          (negative && decide (significand ≠ 0)) = true := by
        obtain rfl | isPositive := Nat.eq_zero_or_pos significand
        · simp [worth]
        · have : (0 : ℚ) < significand * 2 ^ exponent := by positivity
          cases negative with
          | false => simp [worth, this.le]
          | true => simp [worth, this, isPositive.ne']
      rw [nanoseconds, isMeaning, isValue]
      dsimp only
      by_cases isNegative : worth negative significand exponent < 0
      · rw [if_pos isNegative, if_pos (isNegative_iff.mp isNegative)]
      rw [if_neg isNegative, if_neg (isNegative_iff.not.mp isNegative)]
      have seconds := areSeconds isValue (not_lt.mp isNegative)
      rw [ofSeconds_eq seconds.value?_eq seconds.notNegative]
      refine if_congr ⟨fun isLong => ?_, seconds.reaches⟩ rfl rfl
      by_contra notLong
      linarith [seconds.stays (not_le.mp notLong)]

example : nanoseconds (.ofPowerOfTwo (-4)) = .ok 62500 ∧
    (nanoseconds (.ofPowerOfTwo 73)).isOk = true ∧
    nanoseconds (.ofPowerOfTwo 74) = .error .tooLong := by
  decide +kernel

end Delay
end ScriptHost
