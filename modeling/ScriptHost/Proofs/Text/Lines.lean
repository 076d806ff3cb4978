import ScriptHost.Proofs.Text.Utf8
import Mathlib.Data.List.DropRight

/-!
# Lines of text

A text is cut into lines at its line feeds. In its normal form the lines have no carriage
returns at their end, and every one of them is ended by one line feed.

No code point continues with a line feed. So bytes are cut at a line feed either before or
after they are read as text, even where what stands before it is no text.
-/

namespace ScriptHost
namespace Text

/-! ## Cutting -/

/-- The lines of a text, without the line feeds that end them. What follows the last line feed
is a line unless it is empty. -/
def lines : List Char → List (List Char)
  | [] => []
  | char :: rest =>
      if char = '\n' then [] :: lines rest
      else
        match lines rest with
        | [] => [[char]]
        | line :: others => (char :: line) :: others

/-- A line without the carriage returns at its end, and one line feed after it. -/
def normalLine (line : List Char) : List Char :=
  line.rdropWhile (· = '\r') ++ ['\n']

/-- The lines of a text in their normal form. -/
def normalLines (text : List Char) : List (List Char) :=
  (lines text).map normalLine

/-- The normal form of a text. -/
def normalForm (text : List Char) : List Char :=
  (normalLines text).flatten

@[simp] theorem lines_nil : lines [] = [] := rfl

/-- A line feed ends a line. -/
theorem lines_lineFeed (rest : List Char) : lines ('\n' :: rest) = [] :: lines rest := by
  rw [lines, if_pos rfl]

/-- A line that is ended comes before the lines of the rest. -/
theorem lines_append
    {line : List Char}
    (noLineFeed : '\n' ∉ line)
    (rest : List Char) :
    lines (line ++ '\n' :: rest) = line :: lines rest := by
  induction line with
  | nil => exact lines_lineFeed rest
  | cons char line inductionHypothesis =>
      rw [List.mem_cons, not_or] at noLineFeed
      rw [List.cons_append, lines, if_neg (Ne.symm noLineFeed.1), inductionHypothesis noLineFeed.2]

/-- Text without a line feed is one line. -/
theorem lines_of_notMem
    {line : List Char}
    (noLineFeed : '\n' ∉ line)
    (isSome : line ≠ []) :
    lines line = [line] := by
  induction line with
  | nil => exact absurd rfl isSome
  | cons char line inductionHypothesis =>
      rw [List.mem_cons, not_or] at noLineFeed
      rw [lines, if_neg (Ne.symm noLineFeed.1)]
      cases line with
      | nil => rfl
      | cons => rw [inductionHypothesis noLineFeed.2 (List.cons_ne_nil _ _)]

/-- No line has a line feed. -/
theorem notMem_of_mem_lines
    {text line : List Char}
    (isLine : line ∈ lines text) :
    '\n' ∉ line := by
  induction text generalizing line with
  | nil => exact absurd isLine List.not_mem_nil
  | cons char rest inductionHypothesis =>
      rw [lines] at isLine
      split at isLine
      next =>
        rcases List.mem_cons.mp isLine with rfl | isLater
        · exact List.not_mem_nil
        · exact inductionHypothesis isLater
      next notLineFeed =>
        split at isLine
        next =>
          rw [List.mem_singleton.mp isLine, List.mem_singleton]
          exact Ne.symm notLineFeed
        next first others areLines =>
          rw [areLines] at inductionHypothesis
          rcases List.mem_cons.mp isLine with rfl | isLater
          · exact List.not_mem_cons_of_ne_of_not_mem (Ne.symm notLineFeed)
              (inductionHypothesis List.mem_cons_self)
          · exact inductionHypothesis (List.mem_cons_of_mem _ isLater)

/-! ## Normal lines -/

/-- A line in its normal form: no other line feed than the one that ends it, and no carriage
return before that one. -/
def IsNormal (line : List Char) : Prop :=
  ∃ content, '\n' ∉ content ∧ content.rdropWhile (· = '\r') = content ∧ line = content ++ ['\n']

/-- A line up to its line feed comes first in its normal form. -/
theorem normalLines_append
    {line : List Char}
    (noLineFeed : '\n' ∉ line)
    (rest : List Char) :
    normalLines (line ++ '\n' :: rest) = normalLine line :: normalLines rest := by
  rw [normalLines, lines_append noLineFeed, List.map_cons, normalLines]

/-- Lines in normal form are normal. -/
theorem isNormal_of_mem_normalLines
    {text line : List Char}
    (isLine : line ∈ normalLines text) :
    IsNormal line := by
  obtain ⟨content, isContent, rfl⟩ := List.mem_map.mp isLine
  refine ⟨_, fun member => ?_, List.rdropWhile_idempotent _ _, rfl⟩
  exact notMem_of_mem_lines isContent ((List.rdropWhile_prefix _ _).subset member)

/-- Normal lines that follow one another are the normal lines of their text. -/
theorem normalLines_flatten
    {normal : List (List Char)}
    (areNormal : ∀ line ∈ normal, IsNormal line) :
    normalLines normal.flatten = normal := by
  induction normal with
  | nil => rfl
  | cons line normal inductionHypothesis =>
      rw [List.forall_mem_cons] at areNormal
      obtain ⟨content, noLineFeed, isTrimmed, rfl⟩ := areNormal.1
      rw [List.flatten_cons, List.append_assoc, List.singleton_append,
        normalLines_append noLineFeed, inductionHypothesis areNormal.2, normalLine, isTrimmed]

/-- Lines that are normal are their own normal form. -/
theorem normalForm_flatten
    {normal : List (List Char)}
    (areNormal : ∀ line ∈ normal, IsNormal line) :
    normalForm normal.flatten = normal.flatten := by
  rw [normalForm, normalLines_flatten areNormal]

end Text

/-! ## Bytes that are cut -/

namespace Utf8

variable (first : UInt8)

/-- What is read before a line feed is read as if nothing followed, and the line feed is none of
its bytes. -/
def StopsAt
    (readBytes : Bytes → Reading)
    (before rest : Bytes) : Prop :=
  readBytes (before ++ 10 :: rest) = readBytes before ∧
    (readBytes before).following ≤ before.length

/-- The reading of two bytes stops at a line feed. -/
theorem stopsAt_readTwo (before rest : Bytes) : StopsAt (readTwo first) before rest := by
  cases before with
  | nil => exact ⟨rfl, Nat.le_refl _⟩
  | cons second before =>
      refine ⟨rfl, ?_⟩
      simp only [readTwo]
      split_ifs <;> simp

/-- The reading of three bytes stops at a line feed. -/
theorem stopsAt_readThree (before rest : Bytes) : StopsAt (readThree first) before rest := by
  have noSecond : secondOfThree first 10 = false := by
    unfold secondOfThree
    split_ifs <;> rfl
  rcases before with _ | ⟨second, _ | ⟨third, before⟩⟩
  · exact ⟨if_neg (by simp [noSecond]), Nat.le_refl _⟩
  all_goals
    refine ⟨rfl, ?_⟩
    simp only [readThree]
    split_ifs <;> simp

/-- The reading of four bytes stops at a line feed. -/
theorem stopsAt_readFour (before rest : Bytes) : StopsAt (readFour first) before rest := by
  have noSecond : secondOfFour first 10 = false := by
    unfold secondOfFour
    split_ifs <;> rfl
  rcases before with _ | ⟨second, _ | ⟨third, _ | ⟨fourth, before⟩⟩⟩
  · exact ⟨if_neg (by simp [noSecond]), Nat.le_refl _⟩
  all_goals
    refine ⟨rfl, ?_⟩
    simp only [readFour]
    split_ifs <;> simp

/-- A line feed continues no code point. -/
theorem stopsAt_read (before rest : Bytes) : StopsAt (read first) before rest := by
  unfold StopsAt read
  split_ifs
  · exact ⟨rfl, Nat.zero_le _⟩
  · exact stopsAt_readTwo first before rest
  · exact stopsAt_readThree first before rest
  · exact stopsAt_readFour first before rest
  · exact ⟨rfl, Nat.zero_le _⟩

/-- What stands before a line feed is read as if nothing followed. -/
theorem readings_append_lineFeed (before rest : Bytes) :
    readings (before ++ 10 :: rest) = readings before ++ some '\n' :: readings rest := by
  induction h : before.length using Nat.strongRecOn generalizing before with
  | _ size inductionHypothesis =>
    cases before with
    | nil =>
        have isRead : read 10 rest = ⟨some '\n', 0⟩ := rfl
        rw [List.nil_append, readings_cons, isRead, readings_nil]
        rfl
    | cons first before =>
        obtain ⟨sameRead, isWithin⟩ := stopsAt_read first before rest
        have shorter : (before.drop (read first before).following).length < size := by
          rw [← h, List.length_drop, List.length_cons]
          omega
        rw [List.cons_append, readings_cons, readings_cons, sameRead,
          List.drop_append_of_le_length isWithin, inductionHypothesis _ shorter _ rfl]
        rfl

/-- The code points that bytes are read as, with what is not text replaced. -/
def decoded (bytes : Bytes) : List Char :=
  (readings bytes).map fun reading => reading.getD replacement

@[simp] theorem toList_decodeLossy (bytes : Bytes) : (decodeLossy bytes).toList = decoded bytes :=
  String.toList_ofList

@[simp] theorem decoded_nil : decoded [] = [] := by
  rw [decoded, readings_nil, List.map_nil]

/-- Bytes can be decoded line by line. -/
theorem decoded_append_lineFeed (before rest : Bytes) :
    decoded (before ++ 10 :: rest) = decoded before ++ '\n' :: decoded rest := by
  simp [decoded, readings_append_lineFeed]

theorem decoded_ne_nil
    {bytes : Bytes}
    (isSome : bytes ≠ []) :
    decoded bytes ≠ [] := by
  cases bytes with
  | nil => exact absurd rfl isSome
  | cons first rest =>
      rw [decoded, readings_cons]
      exact List.cons_ne_nil _ _

/-- No other byte than a line feed is read as one. -/
theorem notMem_decoded
    {bytes : Bytes}
    (noLineFeed : 10 ∉ bytes) :
    '\n' ∉ decoded bytes := by
  induction h : bytes.length using Nat.strongRecOn generalizing bytes with
  | _ size inductionHypothesis =>
    cases bytes with
    | nil => rw [decoded_nil]; exact List.not_mem_nil
    | cons first rest =>
        have shorter : (rest.drop (read first rest).following).length < size := by
          rw [← h, List.length_drop, List.length_cons]
          omega
        have others := inductionHypothesis _ shorter
          (fun member => noLineFeed (List.mem_cons_of_mem _ (List.mem_of_mem_drop member))) rfl
        rw [decoded, readings_cons, List.map_cons]
        refine List.not_mem_cons_of_ne_of_not_mem (fun isLineFeed => ?_) others
        cases isRead : (read first rest).char? with
        | none => rw [isRead] at isLineFeed; cases isLineFeed
        | some char =>
            rw [isRead, Option.getD_some] at isLineFeed
            subst isLineFeed
            have isFirst := (List.cons.inj (encodeChar_read isRead)).1
            exact noLineFeed (isFirst ▸ List.mem_cons_self)

end Utf8
end ScriptHost
