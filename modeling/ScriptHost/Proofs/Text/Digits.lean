import Mathlib.Data.Nat.Digits.Defs

/-!
# Written numbers

The digits that a number is written with in some base: they are smaller than the base, they spell
the number, and none but that of zero itself begins with zero.
-/

namespace ScriptHost
namespace Text

/-- The number that digits spell in a base. -/
def ofDigits (base : Nat) (digits : List Nat) : Nat :=
  digits.foldl (fun value digit => value * base + digit) 0

theorem ofDigits_concat (base : Nat) (digits : List Nat) (digit : Nat) :
    ofDigits base (digits ++ [digit]) = ofDigits base digits * base + digit := by
  rw [ofDigits, List.foldl_append]
  rfl

/-- Digits that a number is written with. -/
structure Writes (base value : Nat) (digits : List Nat) : Prop where
  chars : Nat.toDigits base value = digits.map Nat.digitChar
  isDigit : ∀ digit ∈ digits, digit < base
  ofDigits_eq : ofDigits base digits = value
  noLeadingZero : digits = [0] ∨ digits.head? ≠ some 0

theorem Writes.ne_nil
    {base value : Nat}
    {digits : List Nat}
    (writes : Writes base value digits) :
    digits ≠ [] := by
  rintro rfl
  have length_pos := Nat.length_toDigits_pos (b := base) (n := value)
  rw [writes.chars] at length_pos
  exact Nat.lt_irrefl 0 length_pos

theorem writes_singleton
    {base value : Nat}
    (isDigit : value < base) :
    Writes base value [value] where
  chars := Nat.toDigits_of_lt_base isDigit
  isDigit := by simpa using isDigit
  ofDigits_eq := by simp [ofDigits]
  noLeadingZero := by
    rcases Nat.eq_zero_or_pos value with rfl | isPositive
    · exact .inl rfl
    · exact .inr (by simpa using isPositive.ne')

/-- Every number is written with digits. -/
theorem exists_writes
    {base : Nat}
    (hasDigits : 1 < base)
    (value : Nat) :
    ∃ digits, Writes base value digits := by
  induction value using Nat.strongRecOn with
  | _ value inductionHypothesis =>
    rcases Nat.lt_or_ge value base with isDigit | isLonger
    · exact ⟨[value], writes_singleton isDigit⟩
    · have isLess : value / base < value := Nat.div_lt_self (by omega) hasDigits
      have isPositive : 0 < value / base := Nat.div_pos isLonger (by omega)
      have isLast : value % base < base := Nat.mod_lt _ (by omega)
      obtain ⟨digits, writes⟩ := inductionHypothesis _ isLess
      refine ⟨digits ++ [value % base], ?_, ?_, ?_, ?_⟩
      · rw [Nat.toDigits_of_base_le hasDigits isLonger, writes.chars, List.map_append,
          List.map_singleton]
      · exact List.forall_mem_append.mpr ⟨writes.isDigit, by simpa using isLast⟩
      · rw [ofDigits_concat, writes.ofDigits_eq, Nat.div_add_mod']
      · rcases writes.noLeadingZero with rfl | noZero
        · have isZero : value / base = 0 := by simpa [ofDigits] using writes.ofDigits_eq.symm
          exact absurd isZero isPositive.ne'
        · cases digits with
          | nil => exact absurd rfl writes.ne_nil
          | cons => exact .inr noZero

end Text
end ScriptHost
