import ScriptHost.Json
import ScriptHost.Proofs.Json.Grammar
import ScriptHost.Proofs.Text.Digits

/-!
# Written JSON

The text of a value is a text of the grammar: a string is spelled by its escapes, a number by its
digits and an object by its members.
-/

namespace ScriptHost
namespace Json

open Token

/-! ## Strings -/

/-- How a character is written: by itself, by a short escape or by hex digits. -/
def Piece.ofChar (char : Char) : Piece :=
  if 0x20 ≤ char.toNat ∨ char ∈ ['\n', '\r', '\t', '\x08', '\x0c'] then .char char
  else .unit char.toNat

/-- How characters are written as a string. -/
def Quoted.ofChars (value : List Char) : Quoted where
  pieces := value.map Piece.ofChar
  fault? := none

theorem hexUnit?_hexDigit :
    ∀ value < 32, hexUnit? '0' '0' (hexDigit (value / 16)) (hexDigit value) = some value := by
  decide

theorem spellsPiece_escapeChar (char : Char) :
    SpellsPiece (Piece.ofChar char) (escapeChar char) := by
  unfold escapeChar
  split_ifs with isQuote isEscape isPlain isFeed isReturn isTab isBack isForm
  · rw [isQuote]
    exact .short rfl
  · rw [isEscape]
    exact .short rfl
  · rw [Piece.ofChar, if_pos (.inl isPlain)]
    exact .plain isPlain isQuote isEscape
  · rw [isFeed]
    exact .short rfl
  · rw [isReturn]
    exact .short rfl
  · rw [isTab]
    exact .short rfl
  · rw [show char = '\x08' from Char.toNat_inj.mp isBack]
    exact .short rfl
  · rw [show char = '\x0c' from Char.toNat_inj.mp isForm]
    exact .short rfl
  · have isControl : char.toNat < 32 := Nat.lt_of_not_le isPlain
    have noEscape : char ∉ ['\n', '\r', '\t', '\x08', '\x0c'] := by
      simp only [List.mem_cons, List.not_mem_nil, or_false, not_or]
      refine ⟨isFeed, isReturn, isTab, ?_, ?_⟩
      · rintro rfl
        exact isBack rfl
      · rintro rfl
        exact isForm rfl
    rw [Piece.ofChar, if_neg (not_or.mpr ⟨isPlain, noEscape⟩)]
    exact .hex (hexUnit?_hexDigit _ isControl)

/-- A unit that is no surrogate is a character of its own. -/
theorem decodePieces_unit
    {unit : Nat}
    (isLess : unit < 0xd800)
    (pieces : List Piece) :
    Quoted.decodePieces none (.unit unit :: pieces) =
      (Char.ofNat unit :: ·) <$> Quoted.decodePieces none pieces := by
  have noLeading : Quoted.isLeading unit = false := by
    simp [Quoted.isLeading, Nat.not_le.mpr isLess]
  have noTrailing : Quoted.isTrailing unit = false := by
    simp only [Quoted.isTrailing, Bool.and_eq_false_iff, decide_eq_false_iff_not]
    omega
  rcases pieces with _ | ⟨_ | _, _⟩ <;> simp [Quoted.decodePieces, noLeading, noTrailing]

theorem decodePieces_ofChar
    (char : Char)
    (pieces : List Piece) :
    Quoted.decodePieces none (Piece.ofChar char :: pieces) =
      (char :: ·) <$> Quoted.decodePieces none pieces := by
  unfold Piece.ofChar
  split_ifs with isPlain
  · rfl
  · have isControl : char.toNat < 32 := Nat.lt_of_not_le (not_or.mp isPlain).1
    rw [decodePieces_unit (by omega), Char.ofNat_toNat]

theorem spellsPieces_escape (value : List Char) :
    SpellsPieces (value.map Piece.ofChar) (value.flatMap escapeChar) := by
  induction value with
  | nil => exact .nil
  | cons char value inductionHypothesis =>
      rw [List.flatMap_cons]
      exact .cons (spellsPiece_escapeChar char) inductionHypothesis

theorem spellsString_quoted (value : List Char) :
    SpellsString (.ofChars value) (quoted value) :=
  .quotes (spellsPieces_escape value)

/-- A written string is read as its characters. -/
theorem decode_ofChars (value : List Char) : (Quoted.ofChars value).decode = .ok value := by
  change Quoted.decodePieces none (value.map Piece.ofChar) = .ok value
  induction value with
  | nil => rfl
  | cons char value inductionHypothesis =>
      rw [List.map_cons, decodePieces_ofChar, inductionHypothesis]
      rfl

/-! ## Numbers -/

theorem spells_digitChars
    {digits : List Nat}
    (isWhole : IsWhole digits) :
    Spells (.number ⟨false, digits, none, none⟩) (digitChars digits) := by
  have spells : SpellsNumeral ⟨false, digits, none, none⟩
      ([] ++ (digitChars digits ++ ([] ++ []))) :=
    .parts .absent isWhole .absent .absent
  rw [List.nil_append, List.append_nil, List.append_nil] at spells
  exact .number spells

/-- A natural number is written as a numeral of digits alone. -/
theorem exists_spells_nat (value : Nat) :
    ∃ digits, Spells (.number ⟨false, digits, none, none⟩) (nat value).written ∧
      Numeral.ofDigits digits = value := by
  have isWritten : ∃ digits, Text.Writes 10 value digits := Text.exists_writes (by decide) value
  obtain ⟨digits, writes⟩ := isWritten
  have isWhole : IsWhole digits := ⟨⟨writes.ne_nil, writes.isDigit⟩, writes.noLeadingZero⟩
  refine ⟨digits, ?_, writes.ofDigits_eq⟩
  rw [nat, written, writes.chars]
  exact spells_digitChars isWhole

/-! ## Objects -/

theorem isGap_nil : IsGap [] :=
  fun _ member => absurd member List.not_mem_nil

theorem Spells.padded
    {value : Reading}
    {text : List Char}
    (spells : Spells value text) :
    SpellsPadded value text := by
  have padded := SpellsPadded.gaps isGap_nil spells isGap_nil
  rwa [List.nil_append, List.append_nil] at padded

/-- A member of a tree that is spelled by a written member. -/
structure SpellsEntry (member : List Char × Json) (entry : Quoted × Reading) : Prop where
  name : entry.1 = .ofChars member.1
  spells : Spells entry.2 member.2.written

theorem SpellsEntry.spellsMember
    {member : List Char × Json}
    {entry : Quoted × Reading}
    (spellsEntry : SpellsEntry member entry) :
    SpellsMember entry (quoted member.1 ++ ':' :: member.2.written) := by
  obtain ⟨name, value⟩ := entry
  obtain ⟨rfl, spells⟩ := spellsEntry
  have spellsMember := SpellsMember.colon isGap_nil (spellsString_quoted member.1) isGap_nil
    spells.padded
  rwa [List.nil_append, List.nil_append] at spellsMember

theorem spellsMembers_written
    {member : List Char × Json}
    {members : List (List Char × Json)}
    {entry : Quoted × Reading}
    {entries : List (Quoted × Reading)}
    (spellsEntry : SpellsEntry member entry)
    (spellsEntries : List.Forall₂ SpellsEntry members entries) :
    SpellsMembers (entry :: entries) (separated (writtenMembers (member :: members))) := by
  induction spellsEntries generalizing member entry with
  | nil => exact .last spellsEntry.spellsMember
  | cons isNext _ inductionHypothesis =>
      exact .next spellsEntry.spellsMember (inductionHypothesis isNext)

/-- A written object spells the object of what its members spell. -/
theorem spells_object
    {members : List (List Char × Json)}
    {entries : List (Quoted × Reading)}
    (spellsEntries : List.Forall₂ SpellsEntry members entries) :
    Spells (.object entries none) (Json.object members).written := by
  rw [written]
  cases spellsEntries with
  | nil => exact .emptyObject isGap_nil
  | cons spellsEntry spellsEntries =>
      exact .object (spellsMembers_written spellsEntry spellsEntries)

end Json
end ScriptHost
