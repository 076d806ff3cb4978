import ScriptHost.Arguments
import Mathlib.Algebra.Group.Nat.Even

/-!
# What splitting keeps

Splitting a line drops its double quotes and its white space outside of quotes, and keeps all
else in order. White space after closed quotes separates: what stands before it is split as if
nothing followed, and what stands after it as if nothing had come before.
-/

namespace ScriptHost
namespace Arguments

/-! ## One character of a line -/

/-- A quotation mark begins or ends a quotation, and makes a word even of nothing. -/
theorem splitFrom_quote
    (quoted : Bool)
    (word? : Option (List Char))
    (rest : List Char) :
    splitFrom quoted word? ('"' :: rest) = splitFrom (!quoted) (some (word?.getD [])) rest := by
  rw [splitFrom, if_pos rfl]

/-- A blank outside a quotation ends the word. -/
theorem splitFrom_blank
    {blank : Char}
    (isBlank : Text.isBlank blank = true)
    (word? : Option (List Char))
    (rest : List Char) :
    splitFrom false word? (blank :: rest) = finish word? ++ splitFrom false none rest := by
  have notQuote : blank ≠ '"' := by
    rintro rfl
    cases isBlank
  rw [splitFrom, if_neg notQuote, if_pos (by simp [isBlank])]

/-- Every other character extends the word. -/
theorem splitFrom_extend
    {quoted : Bool}
    {char : Char}
    (notQuote : char ≠ '"')
    (stays : Text.isBlank char = true → quoted = true)
    (word? : Option (List Char))
    (rest : List Char) :
    splitFrom quoted word? (char :: rest) = splitFrom quoted (extend word? char) rest := by
  have notGap : ¬(Text.isBlank char && !quoted) = true := by
    cases isBlank : Text.isBlank char with
    | false => exact Bool.noConfusion
    | true => rw [stays isBlank]; exact Bool.noConfusion
  rw [splitFrom, if_neg notQuote, if_neg notGap]

/-! ## Quotes -/

/-- A line with its quotes closed: it has an even number of double quotes. -/
def IsClosed (line : List Char) : Prop :=
  Even (line.count '"')

instance (line : List Char) : Decidable (IsClosed line) :=
  inferInstanceAs (Decidable (Even _))

theorem isClosed_nil : IsClosed [] := Even.zero

/-- A quotation mark closes an open line and opens a closed one. -/
theorem isClosed_quote (rest : List Char) : IsClosed ('"' :: rest) ↔ ¬IsClosed rest := by
  rw [IsClosed, List.count_cons_self, Nat.even_add_one, IsClosed]

/-- Other characters leave a line open or closed. -/
theorem isClosed_cons
    {char : Char}
    (notQuote : char ≠ '"')
    (rest : List Char) :
    IsClosed (char :: rest) ↔ IsClosed rest := by
  rw [IsClosed, List.count_cons_of_ne notQuote, IsClosed]

theorem isClosed_concat_quote (line : List Char) :
    IsClosed (line ++ ['"']) ↔ ¬IsClosed line := by
  rw [IsClosed, List.count_append, List.count_singleton_self, Nat.even_add_one, IsClosed]

theorem isClosed_concat
    {char : Char}
    (notQuote : char ≠ '"')
    (line : List Char) :
    IsClosed (line ++ [char]) ↔ IsClosed line := by
  rw [IsClosed, List.count_append, List.count_cons_of_ne notQuote, List.count_nil, Nat.add_zero,
    IsClosed]

/-! ## What is kept -/

/-- A character of a line is dropped if it is a double quote, or white space after closed
quotes. -/
def IsDropped
    (line : List Char)
    (char : Char)
    (position : Nat) : Prop :=
  char = '"' ∨ Text.isBlank char = true ∧ IsClosed (line.take position)

instance
    (line : List Char)
    (char : Char)
    (position : Nat) : Decidable (IsDropped line char position) :=
  inferInstanceAs (Decidable (_ ∨ _))

/-- The characters of a line, from a position on, that are not dropped. -/
def keptFrom (line : List Char) (position : Nat) (rest : List Char) : List Char :=
  ((rest.zipIdx position).filter fun (char, position) => ¬IsDropped line char position).map Prod.fst

/-- The characters of a line that are not dropped. -/
def kept (line : List Char) : List Char :=
  keptFrom line 0 line

/-- The first character after a beginning of the line is kept or dropped by what the beginning
is like. -/
theorem keptFrom_length_cons
    (before : List Char)
    (char : Char)
    (rest : List Char) :
    keptFrom (before ++ char :: rest) before.length (char :: rest) =
      (if char = '"' ∨ Text.isBlank char = true ∧ IsClosed before then [] else [char]) ++
        keptFrom ((before ++ [char]) ++ rest) (before ++ [char]).length rest := by
  have sameLine : before ++ [char] ++ rest = before ++ char :: rest := List.append_cons .. |>.symm
  have isDropped_iff : IsDropped (before ++ char :: rest) char before.length ↔
      char = '"' ∨ Text.isBlank char = true ∧ IsClosed before := by
    unfold IsDropped
    rw [List.take_left]
  rw [sameLine, List.length_append, List.length_singleton, keptFrom, List.zipIdx_cons,
    List.filter_cons]
  by_cases isDropped : IsDropped (before ++ char :: rest) char before.length
  · rw [if_neg (by simpa using isDropped), if_pos (isDropped_iff.mp isDropped)]
    rfl
  · rw [if_pos (by simpa using isDropped), if_neg fun drops => isDropped (isDropped_iff.mpr drops)]
    rfl

/-- The characters of the arguments, after a beginning of the line that left one unfinished. -/
theorem flatten_splitFrom
    (before : List Char)
    {quoted : Bool}
    (isQuoted : quoted = true ↔ ¬IsClosed before)
    (word? : Option (List Char))
    (rest : List Char) :
    (splitFrom quoted word? rest).flatten =
      (word?.getD []).reverse ++ keptFrom (before ++ rest) before.length rest := by
  induction rest generalizing before quoted word? with
  | nil => cases word? <;> simp [splitFrom, finish, keptFrom]
  | cons char rest inductionHypothesis =>
      rw [keptFrom_length_cons]
      by_cases isQuote : char = '"'
      · subst isQuote
        have toggled : (!quoted) = true ↔ ¬IsClosed (before ++ ['"']) := by
          rw [isClosed_concat_quote, ← isQuoted, Bool.not_eq_true', Bool.not_eq_true]
        rw [splitFrom_quote, inductionHypothesis _ toggled, if_pos (Or.inl rfl)]
        rfl
      have same : quoted = true ↔ ¬IsClosed (before ++ [char]) := by
        rw [isClosed_concat isQuote, isQuoted]
      by_cases isGap : Text.isBlank char = true ∧ IsClosed before
      · have notQuoted : quoted = false := by
          rw [← Bool.not_eq_true, isQuoted, not_not]
          exact isGap.2
        subst notQuoted
        rw [splitFrom_blank isGap.1, List.flatten_append, inductionHypothesis _ same,
          if_pos (Or.inr isGap)]
        cases word? <;> simp [finish]
      · rw [splitFrom_extend isQuote fun isBlank => isQuoted.mpr fun closed =>
            isGap ⟨isBlank, closed⟩,
          inductionHypothesis _ same, if_neg (not_or.mpr ⟨isQuote, isGap⟩)]
        simp [extend]

/-- The characters of the arguments are those of the line that are not dropped. -/
theorem flatten_splitChars (line : List Char) : (splitChars line).flatten = kept line :=
  flatten_splitFrom [] (by simp [isClosed_nil]) none line

/-! ## What is split apart -/

/-- White space before an argument is skipped. -/
theorem splitFrom_blanks_append
    {gap : List Char}
    (areBlank : ∀ char ∈ gap, Text.isBlank char = true)
    (rest : List Char) :
    splitFrom false none (gap ++ rest) = splitFrom false none rest := by
  induction gap with
  | nil => rfl
  | cons blank gap inductionHypothesis =>
      rw [List.forall_mem_cons] at areBlank
      rw [List.cons_append, splitFrom_blank areBlank.1, inductionHypothesis areBlank.2]
      rfl

/-- White space ends what is split if the quotes before it are closed. -/
theorem splitFrom_append_blank
    {quoted : Bool}
    {first : List Char}
    (closes : quoted = true ↔ ¬IsClosed first)
    {blank : Char}
    (isBlank : Text.isBlank blank = true)
    (word? : Option (List Char))
    (rest : List Char) :
    splitFrom quoted word? (first ++ blank :: rest) =
      splitFrom quoted word? first ++ splitFrom false none rest := by
  induction first generalizing quoted word? with
  | nil =>
      have notQuoted : quoted = false := by
        rw [← Bool.not_eq_true, closes, not_not]
        exact isClosed_nil
      subst notQuoted
      exact splitFrom_blank isBlank word? rest
  | cons char first inductionHypothesis =>
      rw [List.cons_append]
      by_cases isQuote : char = '"'
      · subst isQuote
        have toggled : (!quoted) = true ↔ ¬IsClosed first := by
          rw [← isClosed_quote, Bool.not_eq_true', ← Bool.not_eq_true, closes, not_not]
        rw [splitFrom_quote, splitFrom_quote, inductionHypothesis toggled]
      have same : quoted = true ↔ ¬IsClosed first := by
        rw [closes, isClosed_cons isQuote]
      by_cases isGap : Text.isBlank char = true ∧ quoted = false
      · obtain ⟨isBlank, rfl⟩ := isGap
        rw [splitFrom_blank isBlank, splitFrom_blank isBlank, inductionHypothesis same,
          List.append_assoc]
      · have stays : Text.isBlank char = true → quoted = true := fun isBlank =>
          Bool.not_eq_false _ ▸ fun notQuoted => isGap ⟨isBlank, notQuoted⟩
        rw [splitFrom_extend isQuote stays, splitFrom_extend isQuote stays,
          inductionHypothesis same]

/-- After a closed beginning and a gap, the rest is split on its own. -/
theorem splitChars_append
    {first gap : List Char}
    (closed : IsClosed first)
    (isGap : gap ≠ [])
    (areBlank : ∀ char ∈ gap, Text.isBlank char = true)
    (rest : List Char) :
    splitChars (first ++ gap ++ rest) = splitChars first ++ splitChars rest := by
  obtain ⟨blank, gap, rfl⟩ := List.exists_cons_of_ne_nil isGap
  rw [List.forall_mem_cons] at areBlank
  rw [List.append_assoc, List.cons_append, splitChars,
    splitFrom_append_blank (by simp [closed]) areBlank.1, splitFrom_blanks_append areBlank.2]
  rfl

/-- Splitting loses nothing but double quotes and white space outside of quotes, and it splits
what stands on both sides of white space after closed quotes one by one. -/
theorem split_keeps_and_composes :
    (∀ line : String, (String.join (split line)).toList = kept line.toList) ∧
    ∀ first gap rest : String,
      IsClosed first.toList → gap ≠ "" → (∀ char ∈ gap.toList, Text.isBlank char = true) →
      split (first ++ gap ++ rest) = split first ++ split rest := by
  constructor
  · intro line
    rw [String.toList_join, split, List.flatMap_map, ← flatten_splitChars]
    exact congrArg List.flatten (List.map_id'' (fun _ => String.toList_ofList) _)
  · intro first gap rest closed isGap areBlank
    have isGap : gap.toList ≠ [] := fun isEmpty => isGap (String.toList_eq_nil_iff.mp isEmpty)
    rw [split, String.toList_append, String.toList_append, splitChars_append closed isGap areBlank,
      List.map_append]
    rfl

/-- White space in quotes, quotes within an argument, an empty argument, and after the gap
quotes that stay open. -/
theorem split_openQuotes :
    IsClosed "say \"a  b\"c \"\"".toList ∧
      kept "say \"a  b\"c \"\" \td\"e f".toList = "saya  bcde f".toList ∧
      split ("say \"a  b\"c \"\"" ++ " \t" ++ "d\"e f") =
        split "say \"a  b\"c \"\"" ++ split "d\"e f" ∧
      split "say \"a  b\"c \"\"" = ["say", "a  bc", ""] ∧ split "d\"e f" = ["de f"] := by
  refine ⟨by decide, by decide, ?_, by decide, by decide⟩
  exact split_keeps_and_composes.2 "say \"a  b\"c \"\"" " \t" "d\"e f" (by decide) (by decide)
    (List.all_eq_true.mp (by decide))

end Arguments
end ScriptHost
