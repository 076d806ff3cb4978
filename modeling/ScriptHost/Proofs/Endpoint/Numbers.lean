import ScriptHost.Endpoint
import ScriptHost.Proofs.Text.Digits

/-!
# Numbers in endpoints

A number is spelled by digits that its form accepts. A number is read as far as there are
digits, so what spells it is read as a whole if no digit follows. The digits that a number is
written with are one of its spellings.
-/

namespace ScriptHost
namespace Endpoint

variable {base : Nat} {text rest : List Char} {values : List Nat}

/-! ## Digits -/

/-- A text consists of digits of given values. -/
def IsDigits
    (base : Nat)
    (text : List Char)
    (values : List Nat) : Prop :=
  text.map (digit? base) = values.map some

/-- No digit stands at the front of a text. -/
def NoDigitAhead (base : Nat) (rest : List Char) : Prop :=
  ∀ char ∈ rest.head?, digit? base char = none

theorem noDigitAhead_nil : NoDigitAhead base [] :=
  fun _ isHead => absurd isHead (Option.not_mem_none _)

theorem noDigitAhead_cons
    {char : Char}
    (noDigit : digit? base char = none) :
    NoDigitAhead base (char :: rest) :=
  fun _ isHead => Option.mem_some_iff.mp isHead ▸ noDigit

/-- What is no digit in a base is none in a smaller one. -/
theorem digit?_eq_none_of_le
    {larger : Nat}
    {char : Char}
    (isLess : base ≤ larger)
    (noDigit : digit? larger char = none) :
    digit? base char = none := by
  simp only [digit?] at noDigit ⊢
  split_ifs at noDigit ⊢ <;> first | rfl | omega

theorem digits_of_noDigitAhead (noDigit : NoDigitAhead base rest) :
    digits base rest = ([], rest) := by
  cases rest with
  | nil => rfl
  | cons char rest => rw [digits, noDigit char rfl]

theorem digits_append
    (areDigits : IsDigits base text values)
    (noDigit : NoDigitAhead base rest) :
    digits base (text ++ rest) = (values, rest) := by
  induction text generalizing values with
  | nil =>
      rw [List.map_eq_nil_iff.mp areDigits.symm]
      exact digits_of_noDigitAhead noDigit
  | cons char text inductionHypothesis =>
      cases values with
      | nil => cases areDigits
      | cons value values =>
          obtain ⟨isDigit, others⟩ := List.cons.inj areDigits
          rw [List.cons_append, digits, isDigit, inductionHypothesis others]

/-! ## Spelled numbers -/

/-- A text spells a number in a form. -/
def NumberForm.Spells
    (form : NumberForm)
    (value : Nat)
    (text : List Char) : Prop :=
  ∃ values, IsDigits form.base text values ∧
    form.accepts values = true ∧ ofDigits form.base values = value

theorem readNumber_append
    {form : NumberForm}
    {value : Nat}
    (spells : form.Spells value text)
    (noDigit : NoDigitAhead form.base rest) :
    readNumber form (text ++ rest) = some (value, rest) := by
  obtain ⟨values, areDigits, accepts, rfl⟩ := spells
  rw [readNumber, digits_append areDigits noDigit]
  exact if_pos accepts

/-- Where no digit stands, no number does. -/
theorem readNumber_of_noDigitAhead
    {form : NumberForm}
    (noDigit : NoDigitAhead form.base rest) :
    readNumber form rest = none := by
  rw [readNumber, digits_of_noDigitAhead noDigit]
  rfl

theorem NumberForm.Spells.ne_nil
    {form : NumberForm}
    {value : Nat}
    (spells : form.Spells value text) :
    text ≠ [] := by
  rintro rfl
  obtain ⟨values, areDigits, accepts, -⟩ := spells
  rw [List.map_eq_nil_iff.mp areDigits.symm] at accepts
  cases accepts

/-- Every character of a spelled number is a digit. -/
theorem NumberForm.Spells.isSome_digit?
    {form : NumberForm}
    {value : Nat}
    (spells : form.Spells value text)
    {char : Char}
    (member : char ∈ text) :
    (digit? form.base char).isSome = true := by
  obtain ⟨values, areDigits, -, -⟩ := spells
  have isMapped := List.mem_map_of_mem (f := digit? form.base) member
  rw [areDigits] at isMapped
  obtain ⟨value, -, isValue⟩ := List.mem_map.mp isMapped
  rw [← isValue]
  rfl

/-! ## Written numbers -/

theorem digit?_digitChar :
    ∀ base ≤ 16, ∀ value < base, digit? base (Nat.digitChar value) = some value := by
  decide

/-- The digits that a number is written with spell it. -/
theorem isDigits_of_writes
    {value : Nat}
    (isWritable : base ≤ 16)
    (writes : Text.Writes base value values) :
    IsDigits base (Nat.toDigits base value) values := by
  rw [IsDigits, writes.chars, List.map_map]
  exact List.map_congr_left fun digit member =>
    digit?_digitChar base isWritable digit (writes.isDigit digit member)

/-- A number that is not too large for its form is spelled by the digits that it is written
with. -/
theorem NumberForm.spells_toDigits
    (form : NumberForm)
    {value : Nat}
    (hasDigits : 1 < form.base)
    (isWritable : form.base ≤ 16)
    (isLess : value < form.limit)
    (fits : ∀ most ∈ form.mostDigits?, 0 < most ∧ value < form.base ^ most) :
    form.Spells value (Nat.toDigits form.base value) := by
  obtain ⟨values, writes⟩ := Text.exists_writes hasDigits value
  have areDigits := isDigits_of_writes isWritable writes
  have isValue : ofDigits form.base values = value := writes.ofDigits_eq
  have sameLength : (Nat.toDigits form.base value).length = values.length := by
    rw [writes.chars, List.length_map]
  have isSome : values.isEmpty = false := List.isEmpty_eq_false_iff.mpr writes.ne_nil
  have isShort : form.mostDigits?.all (fun most => values.length ≤ most) = true := by
    rw [Option.all_eq_true_iff_get]
    intro hasMost
    obtain ⟨isPositive, isBelow⟩ := fits _ (Option.get_mem hasMost)
    rw [← sameLength]
    exact decide_eq_true ((Nat.length_toDigits_le_iff hasDigits isPositive).mpr isBelow)
  refine ⟨values, areDigits, ?_, isValue⟩
  rw [accepts, isSome, isShort, isValue]
  rcases writes.noLeadingZero with rfl | isNonzero
  · simp [isLess]
  · simp [isNonzero, isLess]

end Endpoint
end ScriptHost
