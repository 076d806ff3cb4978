import ScriptHost.Proofs.Json.Grammar
import Mathlib.Data.List.TakeWhile

/-!
# Scanning JSON

The tokens of a text are read one after the other: what follows a token is read as if nothing
stood in front of it. Words, strings and numbers are read as the token that they spell; a number
is read as far as it goes, so nothing may follow it that would continue it.
-/

namespace ScriptHost
namespace Json

open Token

variable {text rest : List Char}

/-! ## What is left after a token -/

/-- Scanning a string consumes what it reads. -/
theorem length_scanString_le (chars : List Char) :
    (scanString chars).2.length ≤ chars.length := by
  fun_induction scanString chars <;> simp_all <;> omega

theorem length_scanDigits_le (chars : List Char) :
    (scanDigits chars).2.length ≤ chars.length :=
  (List.dropWhile_suffix _).length_le

theorem length_scanExponentDigits_le
    (numeral : Numeral)
    (negative : Bool)
    (chars : List Char) :
    (scanExponentDigits numeral negative chars).2.length ≤ chars.length := by
  have isLeft := length_scanDigits_le chars
  unfold scanExponentDigits
  split
  next => exact Nat.zero_le _
  next isScanned => rwa [isScanned] at isLeft

theorem length_scanSigned_le
    (numeral : Numeral)
    (chars : List Char) :
    (scanExponent.scanSigned numeral chars).2.length ≤ chars.length := by
  unfold scanExponent.scanSigned
  split
  next => exact Nat.le_succ_of_le (length_scanExponentDigits_le _ _ _)
  next => exact Nat.le_succ_of_le (length_scanExponentDigits_le _ _ _)
  next => exact length_scanExponentDigits_le _ _ _

theorem length_scanExponent_le
    (numeral : Numeral)
    (chars : List Char) :
    (scanExponent numeral chars).2.length ≤ chars.length := by
  unfold scanExponent
  split
  next => exact Nat.le_succ_of_le (length_scanSigned_le _ _)
  next => exact Nat.le_succ_of_le (length_scanSigned_le _ _)
  next => exact Nat.le_refl _

/-- Scanning a fraction consumes what it reads, the exponent included. -/
theorem length_scanFraction_le
    (numeral : Numeral)
    (chars : List Char) :
    (scanFraction numeral chars).2.length ≤ chars.length := by
  unfold scanFraction
  split
  next rest =>
    have isLeft := length_scanDigits_le rest
    split
    next => exact Nat.zero_le _
    next isScanned =>
      rw [isScanned] at isLeft
      exact Nat.le_succ_of_le ((length_scanExponent_le _ _).trans isLeft)
  next => exact length_scanExponent_le _ _

/-- Scanning a number consumes at least its digits. -/
theorem length_scanNumber_le
    (negative : Bool)
    (chars : List Char) :
    (scanNumber negative chars).2.length ≤ (scanDigits chars).2.length := by
  unfold scanNumber
  split
  next => exact Nat.zero_le _
  next => exact Nat.zero_le _
  next isScanned =>
    rw [isScanned]
    exact length_scanFraction_le _ _

theorem length_scanWord_le
    (token : Token)
    (word chars : List Char) :
    (scanWord token word chars).2.length ≤ chars.length := by
  fun_induction scanWord token word chars with
  | case1 => exact Nat.le_refl _
  | case2 => exact Nat.le_refl _
  | case3 word char rest inductionHypothesis => exact Nat.le_succ_of_le inductionHypothesis
  | case4 => exact Nat.zero_le _

/-- The scan of a token leaves no more than what follows its first character. -/
theorem length_scanFrom_le
    (char : Char)
    (rest : List Char) :
    (scanFrom char rest).2.length ≤ rest.length := by
  unfold scanFrom
  split
  case h_7 | h_8 | h_9 => exact length_scanWord_le _ _ _
  case h_10 => exact length_scanString_le rest
  case h_11 => exact (length_scanNumber_le _ _).trans (length_scanDigits_le rest)
  case h_12 =>
    split_ifs with isDigit
    · refine (length_scanNumber_le _ _).trans ?_
      rw [scanDigits, List.dropWhile_cons_of_pos isDigit]
      exact (List.dropWhile_suffix _).length_le
    · exact Nat.zero_le _
  all_goals exact Nat.le_refl _

/-! ## One token after the other -/

/-- With one step more, a scan goes past a blank or takes one token. -/
theorem scanBounded_succ
    (bound : Nat)
    (char : Char)
    (rest : List Char) :
    scanBounded (bound + 1) (char :: rest) =
      if isBlank char then scanBounded bound rest
      else (scanFrom char rest).1 :: scanBounded bound (scanFrom char rest).2 := rfl

/-- Any number that is large enough bounds the tokens. -/
theorem scanBounded_of_le
    {bound other : Nat}
    (isEnough : text.length ≤ bound)
    (isMore : bound ≤ other) :
    scanBounded other text = scanBounded bound text := by
  induction bound generalizing other text with
  | zero =>
      rw [List.eq_nil_of_length_eq_zero (Nat.le_zero.mp isEnough)]
      cases other <;> rfl
  | succ bound inductionHypothesis =>
      obtain ⟨other, rfl⟩ := Nat.exists_eq_add_of_le' (Nat.one_le_of_lt isMore)
      have isMore : bound ≤ other := Nat.le_of_succ_le_succ isMore
      cases text with
      | nil => rfl
      | cons char rest =>
          have isEnough : rest.length ≤ bound := Nat.le_of_succ_le_succ isEnough
          have isLeft := (length_scanFrom_le char rest).trans isEnough
          rw [scanBounded_succ, scanBounded_succ, inductionHypothesis isEnough isMore,
            inductionHypothesis isLeft isMore]

@[simp] theorem scan_nil : scan [] = [] := rfl

/-- A blank is passed over. -/
theorem scan_blank
    {char : Char}
    (isBlank : isBlank char = true) :
    scan (char :: rest) = scan rest := by
  rw [scan, List.length_cons, scanBounded_succ, if_pos isBlank, scan]

/-- A gap of blanks is passed over. -/
theorem scan_gap
    (isGap : IsGap text)
    (rest : List Char) :
    scan (text ++ rest) = scan rest := by
  induction text with
  | nil => rfl
  | cons char text inductionHypothesis =>
      obtain ⟨isBlank, isGap⟩ := List.forall_mem_cons.mp isGap
      rw [List.cons_append, scan_blank isBlank, inductionHypothesis isGap]

/-- Whatever is no blank begins a token. -/
theorem scan_token
    {char : Char}
    {token : Token}
    {others : List Char}
    (noBlank : isBlank char = false)
    (isToken : scanFrom char rest = (token, others)) :
    scan (char :: rest) = token :: scan others := by
  have isLeft := length_scanFrom_le char rest
  rw [isToken] at isLeft
  rw [scan, List.length_cons, scanBounded_succ, if_neg (Bool.eq_false_iff.mp noBlank), isToken,
    scanBounded_of_le (Nat.le_refl _) isLeft, scan]

/-! ## Words and punctuation -/

@[simp] theorem scan_openArray : scan ('[' :: rest) = .openArray :: scan rest :=
  scan_token (by decide) rfl

@[simp] theorem scan_closeArray : scan (']' :: rest) = .closeArray :: scan rest :=
  scan_token (by decide) rfl

@[simp] theorem scan_openObject : scan ('\x7b' :: rest) = .openObject :: scan rest :=
  scan_token (by decide) rfl

@[simp] theorem scan_closeObject : scan ('\x7d' :: rest) = .closeObject :: scan rest :=
  scan_token (by decide) rfl

@[simp] theorem scan_comma : scan (',' :: rest) = .comma :: scan rest :=
  scan_token (by decide) rfl

@[simp] theorem scan_colon : scan (':' :: rest) = .colon :: scan rest :=
  scan_token (by decide) rfl

@[simp] theorem scan_null : scan ('n' :: 'u' :: 'l' :: 'l' :: rest) = .null :: scan rest :=
  scan_token (by decide) rfl

@[simp] theorem scan_true : scan ('t' :: 'r' :: 'u' :: 'e' :: rest) = .bool true :: scan rest :=
  scan_token (by decide) rfl

@[simp] theorem scan_false :
    scan ('f' :: 'a' :: 'l' :: 's' :: 'e' :: rest) = .bool false :: scan rest :=
  scan_token (by decide) rfl

/-! ## Strings -/

/-- A piece of a string is scanned as what it spells. -/
theorem SpellsPiece.scanString_append
    {piece : Piece}
    (spells : SpellsPiece piece text)
    (rest : List Char) :
    scanString (text ++ rest) =
      ((scanString rest).1.cons piece, (scanString rest).2) := by
  cases spells with
  | plain isPlain noQuote noEscape =>
      rw [List.singleton_append, scanString, if_neg (Nat.not_lt.mpr isPlain)] <;>
        simp [noQuote, noEscape]
  | @short char escape isEscape =>
      have noHex : escape ≠ 'u' := by
        rintro rfl
        cases isEscape
      simp [scanString, noHex, isEscape]
  | hex isUnit => simp [scanString, isUnit]

/-- Pieces up to the closing quote are scanned as the whole string. -/
theorem SpellsPieces.scanString_append
    {pieces : List Piece}
    (spells : SpellsPieces pieces text)
    (rest : List Char) :
    scanString (text ++ '"' :: rest) = (⟨pieces, none⟩, rest) := by
  induction spells with
  | nil => rfl
  | cons spells _ inductionHypothesis =>
      rw [List.append_assoc, spells.scanString_append, inductionHypothesis]
      rfl

/-- A string that is spelled out is one token. -/
theorem SpellsString.scan_append
    {body : Quoted}
    (spells : SpellsString body text)
    (rest : List Char) :
    scan (text ++ rest) = .string body :: scan rest := by
  cases spells with
  | quotes spells =>
      rw [List.cons_append, List.append_assoc, List.singleton_append]
      refine scan_token (by decide) ?_
      rw [scanFrom, spells.scanString_append]

/-! ## Numbers -/

/-- Nothing stands at the front of a text that would continue a number. -/
def EndsNumeral (rest : List Char) : Prop :=
  ∀ char ∈ rest.head?, char.isDigit = false ∧ char ≠ '.' ∧ char ≠ 'e' ∧ char ≠ 'E'

/-- No digit stands at the front of a text. -/
def EndsDigits (rest : List Char) : Prop :=
  ∀ char ∈ rest.head?, char.isDigit = false

/-- A decimal digit is scanned as the number that it stands for. -/
theorem toNat_digitChar :
    ∀ digit < 10, (Nat.digitChar digit).isDigit = true ∧
      (Nat.digitChar digit).toNat - '0'.toNat = digit := by
  decide

/-- A decimal has at least one digit, and begins with it. -/
theorem IsDecimal.exists_cons
    {digits : List Nat}
    (isDecimal : IsDecimal digits) :
    ∃ char others, digitChars digits = char :: others ∧ char.isDigit = true := by
  cases digits with
  | nil => exact absurd rfl isDecimal.ne_nil
  | cons digit digits =>
      exact ⟨_, _, rfl, (toNat_digitChar digit (isDecimal.isDigit digit List.mem_cons_self)).1⟩

/-- The digits of a decimal are scanned up to where they end. -/
theorem scanDigits_append
    {digits : List Nat}
    (isDecimal : IsDecimal digits)
    (ends : EndsDigits rest) :
    scanDigits (digitChars digits ++ rest) = (digits, rest) := by
  have areDigits : ∀ char ∈ digitChars digits, char.isDigit = true := by
    intro char member
    obtain ⟨digit, isMember, rfl⟩ := List.mem_map.mp member
    exact (toNat_digitChar digit (isDecimal.isDigit digit isMember)).1
  have noDigit : rest.takeWhile Char.isDigit = [] ∧ rest.dropWhile Char.isDigit = rest := by
    cases rest with
    | nil => exact ⟨rfl, rfl⟩
    | cons char rest =>
        have isOther : ¬char.isDigit = true := by simp [ends char rfl]
        exact ⟨List.takeWhile_cons_of_neg isOther, List.dropWhile_cons_of_neg isOther⟩
  have areValues : (digitChars digits).map (fun char => char.toNat - '0'.toNat) = digits := by
    rw [digitChars, List.map_map]
    exact (List.map_congr_left fun digit member =>
      (toNat_digitChar digit (isDecimal.isDigit digit member)).2).trans (List.map_id digits)
  rw [scanDigits, List.takeWhile_append_of_pos areDigits, List.dropWhile_append_of_pos areDigits,
    noDigit.1, noDigit.2, List.append_nil, areValues]

/-- The digits of an exponent are scanned with its sign. -/
theorem scanExponentDigits_append
    (numeral : Numeral)
    (negative : Bool)
    {digits : List Nat}
    (isDecimal : IsDecimal digits)
    (ends : EndsDigits rest) :
    scanExponentDigits numeral negative (digitChars digits ++ rest) =
      (.number { numeral with
        exponent? :=
          some (if negative then -(Numeral.ofDigits digits : Int)
            else Numeral.ofDigits digits) }, rest) := by
  rw [scanExponentDigits, scanDigits_append isDecimal ends]
  cases digits with
  | nil => exact absurd rfl isDecimal.ne_nil
  | cons => rfl

/-- What ends a numeral ends its digits. -/
theorem EndsNumeral.endsDigits (ends : EndsNumeral rest) : EndsDigits rest :=
  fun char isHead => (ends char isHead).1

/-- A numeral that ends here has no exponent. -/
theorem scanExponent_of_endsNumeral
    (numeral : Numeral)
    (ends : EndsNumeral rest) :
    scanExponent numeral rest = (.number numeral, rest) := by
  unfold scanExponent
  split
  next => exact absurd rfl (ends 'e' rfl).2.2.1
  next => exact absurd rfl (ends 'E' rfl).2.2.2
  next => rfl

/-- The sign of an exponent is scanned before its digits. -/
theorem SpellsExponentSign.scanSigned_append
    {negative : Bool}
    (spells : SpellsExponentSign negative text)
    (numeral : Numeral)
    {digits : List Nat}
    (isDecimal : IsDecimal digits)
    (rest : List Char) :
    scanExponent.scanSigned numeral (text ++ (digitChars digits ++ rest)) =
      scanExponentDigits numeral negative (digitChars digits ++ rest) := by
  cases spells with
  | absent =>
      obtain ⟨char, others, areChars, isDigit⟩ := isDecimal.exists_cons
      rw [List.nil_append, areChars, List.cons_append, scanExponent.scanSigned]
      · rintro rest isSign
        cases isSign
        cases isDigit
      · rintro rest isSign
        cases isSign
        cases isDigit
  | plus => rfl
  | minus => rfl

/-- An exponent that is spelled out is scanned as what it spells. -/
theorem SpellsExponent.scanExponent_append
    {exponent? : Option Int}
    (spells : SpellsExponent exponent? text)
    (numeral : Numeral)
    (noExponent : numeral.exponent? = none)
    (ends : EndsNumeral rest) :
    scanExponent numeral (text ++ rest) =
      (.number { numeral with exponent? := exponent? }, rest) := by
  cases spells with
  | absent =>
      rw [List.nil_append, scanExponent_of_endsNumeral numeral ends, ← noExponent]
  | @present letter negative sign digits isLetter spellsSign isDecimal =>
      rw [← scanExponentDigits_append numeral negative isDecimal ends.endsDigits,
        ← spellsSign.scanSigned_append numeral isDecimal, ← List.append_assoc]
      rcases isLetter with rfl | rfl <;> rfl

/-- An exponent, if there is one, ends the digits before it. -/
theorem SpellsExponent.endsDigits
    {exponent? : Option Int}
    (spells : SpellsExponent exponent? text)
    (ends : EndsNumeral rest) :
    EndsDigits (text ++ rest) := by
  cases spells with
  | absent => exact ends.endsDigits
  | present isLetter _ _ =>
      rintro char isHead
      cases isHead
      rcases isLetter with rfl | rfl <;> rfl

/-- An exponent is not mistaken for a fraction. -/
theorem SpellsExponent.head?_ne_point
    {exponent? : Option Int}
    (spells : SpellsExponent exponent? text)
    (ends : EndsNumeral rest) :
    (text ++ rest).head? ≠ some '.' := by
  cases spells with
  | absent => exact fun isHead => (ends '.' isHead).2.1 rfl
  | present isLetter _ _ =>
      rintro isHead
      cases isHead
      rcases isLetter with isPoint | isPoint <;> cases isPoint

/-- A fraction that is spelled out is scanned as what it spells, with the exponent that follows
it. -/
theorem SpellsFraction.scanFraction_append
    {fraction? : Option (List Nat)}
    {exponent? : Option Int}
    {others : List Char}
    (spells : SpellsFraction fraction? text)
    (spellsExponent : SpellsExponent exponent? others)
    (negative : Bool)
    (whole : List Nat)
    (ends : EndsNumeral rest) :
    scanFraction ⟨negative, whole, none, none⟩ (text ++ (others ++ rest)) =
      (.number ⟨negative, whole, fraction?, exponent?⟩, rest) := by
  cases spells with
  | absent =>
      rw [List.nil_append, scanFraction, spellsExponent.scanExponent_append _ rfl ends]
      rintro point isPoint
      exact spellsExponent.head?_ne_point ends (congrArg List.head? isPoint)
  | @point digits isDecimal =>
      rw [List.cons_append, scanFraction,
        scanDigits_append isDecimal (spellsExponent.endsDigits ends)]
      cases digits with
      | nil => exact absurd rfl isDecimal.ne_nil
      | cons => exact spellsExponent.scanExponent_append _ rfl ends

/-- A fraction, if there is one, ends the digits before it. -/
theorem SpellsFraction.endsDigits
    {fraction? : Option (List Nat)}
    (spells : SpellsFraction fraction? text)
    (ends : EndsDigits rest) :
    EndsDigits (text ++ rest) := by
  cases spells with
  | absent => exact ends
  | point _ =>
      rintro char isHead
      cases isHead
      rfl

/-- A numeral is scanned as what its whole part, fraction and exponent spell. -/
theorem SpellsNumeral.scanNumber_append
    (negative : Bool)
    {whole : List Nat}
    {fraction? : Option (List Nat)}
    {exponent? : Option Int}
    {fraction exponent : List Char}
    (isWhole : IsWhole whole)
    (spellsFraction : SpellsFraction fraction? fraction)
    (spellsExponent : SpellsExponent exponent? exponent)
    (ends : EndsNumeral rest) :
    scanNumber negative (digitChars whole ++ (fraction ++ (exponent ++ rest))) =
      (.number ⟨negative, whole, fraction?, exponent?⟩, rest) := by
  have isScanned := spellsFraction.scanFraction_append spellsExponent negative whole ends
  rw [scanNumber, scanDigits_append isWhole.toIsDecimal
    (spellsFraction.endsDigits (spellsExponent.endsDigits ends))]
  split
  next isEmpty => exact absurd (congrArg Prod.fst isEmpty) isWhole.ne_nil
  -- A zero in front of other digits would be refused, but the whole part has none.
  next isLonger =>
    cases isLonger
    rcases isWhole.noLeadingZero with isSingle | noZero
    · cases isSingle
    · exact absurd rfl noZero
  next areDigits =>
    cases areDigits
    exact isScanned

/-- A character that is a digit begins a number. -/
theorem scanFrom_of_isDigit
    {char : Char}
    (isDigit : char.isDigit = true)
    (rest : List Char) :
    scanFrom char rest = scanNumber false (char :: rest) := by
  unfold scanFrom
  split
  case h_12 => exact if_pos isDigit
  all_goals cases isDigit

/-- A digit is no blank. -/
theorem isBlank_of_isDigit
    {char : Char}
    (isDigit : char.isDigit = true) :
    isBlank char = false := by
  rw [isBlank]
  simp only [Bool.or_eq_false_iff, decide_eq_false_iff_not]
  refine ⟨⟨⟨?_, ?_⟩, ?_⟩, ?_⟩ <;>
    · rintro rfl
      cases isDigit

/-- A number is read as far as it goes, unless something follows that would continue it. -/
theorem SpellsNumeral.scan_append
    {numeral : Numeral}
    (spells : SpellsNumeral numeral text)
    (ends : EndsNumeral rest) :
    scan (text ++ rest) = .number numeral :: scan rest := by
  obtain ⟨negative, whole, fraction?, exponent?⟩ := numeral
  obtain ⟨spellsSign, isWhole, spellsFraction, spellsExponent⟩ := spells
  have isScanned (negative : Bool) :=
    scanNumber_append negative isWhole spellsFraction spellsExponent ends
  simp only [List.append_assoc]
  cases spellsSign with
  | absent =>
      obtain ⟨char, others, areChars, isDigit⟩ := isWhole.toIsDecimal.exists_cons
      rw [areChars] at isScanned ⊢
      refine scan_token (isBlank_of_isDigit isDigit) ?_
      rw [scanFrom_of_isDigit isDigit]
      exact isScanned false
  | minus => exact scan_token (by decide) (isScanned true)

end Json
end ScriptHost
