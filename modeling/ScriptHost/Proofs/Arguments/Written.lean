import ScriptHost.Proofs.Arguments

/-!
# Written arguments

An argument is written bare, between double quotes, or as bare and quoted pieces side by side,
and a line of arguments with white space between them. Splitting undoes writing: the lines that
write a list of arguments are just those with closed quotes that are split into it.
-/

namespace ScriptHost
namespace Arguments

/-! ## Written forms -/

/-- A character that stands for itself outside of quotes. -/
def IsBare (char : Char) : Prop :=
  char ≠ '"' ∧ Text.isBlank char = false

instance (char : Char) : Decidable (IsBare char) :=
  inferInstanceAs (Decidable (_ ∧ _))

/-- A text is written by bare characters and quoted pieces, side by side. -/
inductive IsWrittenBy : (text form : List Char) → Prop
  | nothing : IsWrittenBy [] []
  | bare {char : Char} {text form : List Char}
      (isBare : IsBare char)
      (others : IsWrittenBy text form) :
      IsWrittenBy (char :: text) (char :: form)
  | quoted (piece : List Char) {text form : List Char}
      (noQuote : '"' ∉ piece)
      (others : IsWrittenBy text form) :
      IsWrittenBy (piece ++ text) ('"' :: (piece ++ '"' :: form))

/-- White space of any length. -/
def IsGap (gap : List Char) : Prop :=
  ∀ char ∈ gap, Text.isBlank char = true

instance (gap : List Char) : Decidable (IsGap gap) :=
  decidable_of_iff (gap.all Text.isBlank = true) List.all_eq_true

/-- Arguments are written one after the other, with white space between them, and before and
after them if one likes. What is written of an argument is not empty, and white space follows
it unless the line is over. -/
inductive IsLineOf : (words : List (List Char)) → (line : List Char) → Prop
  | blank {gap : List Char}
      (isGap : IsGap gap) :
      IsLineOf [] gap
  | argument (gap : List Char) {word form rest : List Char} {words : List (List Char)}
      (isGap : IsGap gap)
      (isForm : IsWrittenBy word form)
      (isSeen : form ≠ [])
      (ends : ∀ char ∈ rest.head?, Text.isBlank char = true)
      (others : IsLineOf words rest) :
      IsLineOf (word :: words) (gap ++ form ++ rest)

/-- A line writes a list of arguments. -/
def IsWritten (words : List String) (line : String) : Prop :=
  IsLineOf (words.map String.toList) line.toList

theorem IsWrittenBy.append
    {text form otherText otherForm : List Char}
    (isForm : IsWrittenBy text form)
    (others : IsWrittenBy otherText otherForm) :
    IsWrittenBy (text ++ otherText) (form ++ otherForm) := by
  induction isForm with
  | nothing => exact others
  | bare isBare _ inductionHypothesis => exact .bare isBare inductionHypothesis
  | quoted piece noQuote _ inductionHypothesis =>
      simpa only [List.append_assoc, List.cons_append] using
        IsWrittenBy.quoted piece noQuote inductionHypothesis

theorem isWrittenBy_char
    {char : Char}
    (isBare : IsBare char) :
    IsWrittenBy [char] [char] :=
  .bare isBare .nothing

theorem isWrittenBy_piece
    {piece : List Char}
    (noQuote : '"' ∉ piece) :
    IsWrittenBy piece ('"' :: (piece ++ ['"'])) := by
  simpa only [List.append_nil] using IsWrittenBy.quoted piece noQuote .nothing

/-- What is written has no double quotes of its own. -/
theorem IsWrittenBy.notMem_text
    {text form : List Char}
    (isForm : IsWrittenBy text form) :
    '"' ∉ text := by
  induction isForm with
  | nothing => exact List.not_mem_nil
  | bare isBare _ inductionHypothesis =>
      exact List.not_mem_cons_of_ne_of_not_mem isBare.1.symm inductionHypothesis
  | quoted _ noQuote _ inductionHypothesis =>
      rw [List.mem_append, not_or]
      exact ⟨noQuote, inductionHypothesis⟩

theorem IsLineOf.notMem_of_mem
    {words : List (List Char)}
    {line : List Char}
    (isLine : IsLineOf words line) :
    ∀ word ∈ words, '"' ∉ word := by
  induction isLine with
  | blank _ => exact List.forall_mem_nil _
  | argument _ _ isForm _ _ _ inductionHypothesis =>
      exact List.forall_mem_cons.mpr ⟨isForm.notMem_text, inductionHypothesis⟩

/-- White space may be added before a line. -/
theorem IsLineOf.blank_cons
    {words : List (List Char)}
    {line : List Char}
    (isLine : IsLineOf words line)
    {blank : Char}
    (isBlank : Text.isBlank blank = true) :
    IsLineOf words (blank :: line) := by
  cases isLine with
  | blank isGap => exact .blank (List.forall_mem_cons.mpr ⟨isBlank, isGap⟩)
  | argument gap isGap isForm isSeen ends others =>
      exact .argument (blank :: gap) (List.forall_mem_cons.mpr ⟨isBlank, isGap⟩) isForm isSeen ends
        others

/-- Every list of arguments without double quotes is written by a line: each between double
quotes, and a space before it. -/
theorem isLineOf_flatMap_quoted
    {words : List (List Char)}
    (noQuotes : ∀ word ∈ words, '"' ∉ word) :
    IsLineOf words (words.flatMap fun word => ' ' :: '"' :: (word ++ ['"'])) := by
  induction words with
  | nil => exact .blank (List.forall_mem_nil _)
  | cons word words inductionHypothesis =>
      rw [List.forall_mem_cons] at noQuotes
      refine IsLineOf.argument [' '] (by decide) (isWrittenBy_piece noQuotes.1)
        (List.cons_ne_nil _ _) ?_ (inductionHypothesis noQuotes.2)
      cases words with
      | nil => exact fun _ isHead => absurd isHead (Option.not_mem_none _)
      | cons => exact fun _ isHead => Option.mem_some_iff.mp isHead ▸ by decide

/-! ## Splitting what is written -/

/-- A quoted piece is read as a whole. -/
theorem splitFrom_piece
    {piece : List Char}
    (noQuote : '"' ∉ piece)
    (word rest : List Char) :
    splitFrom true (some word) (piece ++ '"' :: rest) =
      splitFrom false (some (piece.reverse ++ word)) rest := by
  induction piece generalizing word with
  | nil => exact splitFrom_quote true (some word) rest
  | cons char piece inductionHypothesis =>
      rw [List.mem_cons, not_or] at noQuote
      rw [List.cons_append, splitFrom_extend (Ne.symm noQuote.1) fun _ => rfl, extend,
        inductionHypothesis noQuote.2, List.reverse_cons, List.append_assoc]
      rfl

/-- Within an argument, what is written is read as what it writes. -/
theorem IsWrittenBy.splitFrom_some
    {text form : List Char}
    (isForm : IsWrittenBy text form)
    (word rest : List Char) :
    splitFrom false (some word) (form ++ rest) =
      splitFrom false (some (text.reverse ++ word)) rest := by
  induction isForm generalizing word with
  | nothing => rfl
  | bare isBare _ inductionHypothesis =>
      rw [List.cons_append, splitFrom_extend isBare.1 (by simp [isBare.2]), extend,
        inductionHypothesis, List.reverse_cons, List.append_assoc]
      rfl
  | quoted piece noQuote _ inductionHypothesis =>
      rw [List.cons_append, splitFrom_quote, List.append_assoc, List.cons_append]
      exact (splitFrom_piece noQuote word _).trans (by
        rw [inductionHypothesis, List.reverse_append, List.append_assoc])

/-- What is written begins an argument, unless nothing is. -/
theorem IsWrittenBy.splitFrom_none
    {text form : List Char}
    (isForm : IsWrittenBy text form)
    (isSeen : form ≠ [])
    (rest : List Char) :
    splitFrom false none (form ++ rest) = splitFrom false (some text.reverse) rest := by
  -- An argument that has begun without characters goes on like none after any first character.
  have begins : splitFrom false none (form ++ rest) = splitFrom false (some []) (form ++ rest) := by
    cases isForm with
    | nothing => exact absurd rfl isSeen
    | bare isBare _ =>
        rw [List.cons_append, splitFrom_extend isBare.1 (by simp [isBare.2]),
          splitFrom_extend isBare.1 (by simp [isBare.2])]
        rfl
    | quoted _ _ _ =>
        rw [List.cons_append, splitFrom_quote, splitFrom_quote]
        rfl
  rw [begins, isForm.splitFrom_some, List.append_nil]

theorem IsLineOf.splitChars_eq
    {words : List (List Char)}
    {line : List Char}
    (isLine : IsLineOf words line) :
    splitChars line = words := by
  induction isLine with
  | blank isGap => simpa [splitChars, splitFrom, finish] using splitFrom_blanks_append isGap []
  | @argument gap word form rest words isGap isForm isSeen ends _ inductionHypothesis =>
      rw [List.append_assoc, splitChars, splitFrom_blanks_append isGap,
        isForm.splitFrom_none isSeen]
      cases rest with
      | nil =>
          rw [← inductionHypothesis]
          simp [splitChars, splitFrom, finish]
      | cons blank rest =>
          have isBlank : Text.isBlank blank = true := ends blank rfl
          rw [splitChars, splitFrom_blank isBlank] at inductionHypothesis
          rw [splitFrom_blank isBlank, finish, List.reverse_reverse]
          exact congrArg (word :: ·) inductionHypothesis

theorem IsWrittenBy.isClosed_append
    {text form : List Char}
    (isForm : IsWrittenBy text form)
    (rest : List Char) :
    IsClosed (form ++ rest) ↔ IsClosed rest := by
  have even : Even (form.count '"') := by
    induction isForm with
    | nothing => exact Even.zero
    | bare isBare _ inductionHypothesis => rwa [List.count_cons_of_ne isBare.1]
    | quoted _ noQuote _ inductionHypothesis =>
        rw [List.count_cons_self, List.count_append, List.count_eq_zero_of_not_mem noQuote,
          List.count_cons_self, Nat.zero_add, Nat.even_add_one, Nat.even_add_one, not_not]
        exact inductionHypothesis
  rw [IsClosed, List.count_append, Nat.even_add, iff_true_left even, IsClosed]

theorem IsGap.isClosed_append
    {gap : List Char}
    (isGap : IsGap gap)
    (rest : List Char) :
    IsClosed (gap ++ rest) ↔ IsClosed rest := by
  have noQuote : '"' ∉ gap := fun isQuote => Bool.false_ne_true (isGap '"' isQuote)
  rw [IsClosed, List.count_append, List.count_eq_zero_of_not_mem noQuote, Nat.zero_add, IsClosed]

theorem IsLineOf.isClosed
    {words : List (List Char)}
    {line : List Char}
    (isLine : IsLineOf words line) :
    IsClosed line := by
  induction isLine with
  | @blank gap isGap => exact List.append_nil gap ▸ (isGap.isClosed_append []).mpr isClosed_nil
  | argument _ isGap isForm _ _ _ inductionHypothesis =>
      rw [List.append_assoc, isGap.isClosed_append, isForm.isClosed_append]
      exact inductionHypothesis

/-! ## Every line with closed quotes is written -/

/-- How the argument that is being read was written so far: not at all, outside of quotes, or
with a piece whose quotes are still open. -/
inductive IsBegun : (quoted : Bool) → (word? : Option (List Char)) → (form : List Char) → Prop
  | none : IsBegun false none []
  | outside {text form : List Char}
      (isForm : IsWrittenBy text form)
      (isSeen : form ≠ []) :
      IsBegun false (some text.reverse) form
  | inside {text form : List Char} (piece : List Char)
      (isForm : IsWrittenBy text form)
      (noQuote : '"' ∉ piece) :
      IsBegun true (some (text ++ piece).reverse) (form ++ '"' :: piece)

/-- A double quote opens or closes a piece. -/
theorem IsBegun.quote
    {quoted : Bool}
    {word? : Option (List Char)}
    {form : List Char}
    (begun : IsBegun quoted word? form) :
    IsBegun (!quoted) (some (word?.getD [])) (form ++ ['"']) := by
  cases begun with
  | none => exact .inside [] .nothing List.not_mem_nil
  | outside isForm _ =>
      have opened := IsBegun.inside [] isForm List.not_mem_nil
      rwa [List.append_nil] at opened
  | inside _ isForm noQuote =>
      rw [List.append_assoc]
      exact .outside (isForm.append (isWrittenBy_piece noQuote)) (by simp)

/-- Any other character that splits nothing is bare, or belongs to a quoted piece. -/
theorem IsBegun.extend
    {quoted : Bool}
    {word? : Option (List Char)}
    {form : List Char}
    (begun : IsBegun quoted word? form)
    {char : Char}
    (notQuote : char ≠ '"')
    (stays : Text.isBlank char = true → quoted = true) :
    IsBegun quoted (extend word? char) (form ++ [char]) := by
  have isBare : quoted = false → IsBare char := by
    rintro rfl
    exact ⟨notQuote, Bool.eq_false_iff.mpr fun isBlank => Bool.false_ne_true (stays isBlank)⟩
  cases begun with
  | none => exact .outside (isWrittenBy_char (isBare rfl)) (List.cons_ne_nil _ _)
  | outside isForm _ =>
      have longer := IsBegun.outside (isForm.append (isWrittenBy_char (isBare rfl))) (by simp)
      rwa [List.reverse_append] at longer
  | inside piece isForm noQuote =>
      have longer := IsBegun.inside (piece ++ [char]) isForm (by simp [noQuote, notQuote.symm])
      rw [← List.append_assoc, List.reverse_append] at longer
      rwa [List.append_assoc, List.cons_append]

/-- Reading from a state on, one writes the argument that has begun and those that follow. -/
theorem IsBegun.isLineOf_splitFrom
    {quoted : Bool}
    {word? : Option (List Char)}
    {form : List Char}
    (begun : IsBegun quoted word? form)
    {rest : List Char}
    (closes : quoted = true ↔ ¬IsClosed rest) :
    IsLineOf (splitFrom quoted word? rest) (form ++ rest) := by
  induction rest generalizing quoted word? form with
  | nil =>
      cases begun with
      | none => exact .blank (List.forall_mem_nil _)
      | outside isForm isSeen =>
          rw [splitFrom, finish, List.reverse_reverse]
          exact .argument [] (List.forall_mem_nil _) isForm isSeen
            (fun _ isHead => absurd isHead (Option.not_mem_none _)) (.blank (List.forall_mem_nil _))
      | inside _ _ _ => exact absurd isClosed_nil (closes.mp rfl)
  | cons char rest inductionHypothesis =>
      by_cases isQuote : char = '"'
      · subst isQuote
        have toggled : (!quoted) = true ↔ ¬IsClosed rest := by
          rw [← isClosed_quote, Bool.not_eq_true', ← Bool.not_eq_true, closes, not_not]
        rw [splitFrom_quote, List.append_cons]
        exact inductionHypothesis begun.quote toggled
      have same : quoted = true ↔ ¬IsClosed rest := by
        rw [closes, isClosed_cons isQuote]
      by_cases isGap : Text.isBlank char = true ∧ quoted = false
      · obtain ⟨isBlank, rfl⟩ := isGap
        have others := (inductionHypothesis .none same).blank_cons isBlank
        rw [splitFrom_blank isBlank]
        cases begun with
        | none => exact others
        | outside isForm isSeen =>
            rw [finish, List.reverse_reverse]
            exact .argument [] (List.forall_mem_nil _) isForm isSeen
              (fun _ isHead => Option.mem_some_iff.mp isHead ▸ isBlank) others
      · have stays : Text.isBlank char = true → quoted = true := fun isBlank =>
          Bool.not_eq_false _ ▸ fun notQuoted => isGap ⟨isBlank, notQuoted⟩
        rw [splitFrom_extend isQuote stays, List.append_cons]
        exact inductionHypothesis (begun.extend isQuote stays) same

theorem isLineOf_iff
    (words : List (List Char))
    (line : List Char) :
    IsLineOf words line ↔ IsClosed line ∧ splitChars line = words := by
  constructor
  · exact fun isLine => ⟨isLine.isClosed, isLine.splitChars_eq⟩
  · rintro ⟨closed, rfl⟩
    exact IsBegun.none.isLineOf_splitFrom (by simp [closed])

theorem isWritten_iff
    (words : List String)
    (line : String) :
    IsWritten words line ↔ IsClosed line.toList ∧ split line = words := by
  have sameWords : split line = words ↔ splitChars line.toList = words.map String.toList := by
    constructor
    · rintro rfl
      rw [split, List.map_map]
      exact (List.map_id'' (fun _ => String.toList_ofList) _).symm
    · intro isSplit
      rw [split, isSplit, List.map_map]
      exact List.map_id'' (fun _ => String.ofList_toList) _
  rw [IsWritten, isLineOf_iff, sameWords]

/-- Splitting undoes writing. A line that writes arguments is split into them, and no other line
with closed quotes is; and lists of arguments without double quotes, and no others, are
written by lines. -/
theorem split_undoes_writing :
    (∀ (words : List String) (line : String),
      IsWritten words line ↔ IsClosed line.toList ∧ split line = words) ∧
    ∀ words : List String,
      (∃ line, IsWritten words line) ↔ ∀ word ∈ words, '"' ∉ word.toList := by
  refine ⟨isWritten_iff, fun words => ⟨?_, fun noQuotes => ?_⟩⟩
  · rintro ⟨line, isWritten⟩ word member
    exact isWritten.notMem_of_mem word.toList (List.mem_map_of_mem member)
  · have isLine := isLineOf_flatMap_quoted (List.forall_mem_map.mpr noQuotes)
    exact ⟨String.ofList _, by rwa [IsWritten, String.toList_ofList]⟩

/-- A quoted and a bare piece side by side, nothing in quotes, and a bare argument. -/
theorem split_mixedPieces :
    IsWritten ["go on", "", "x"] "\t\"go \"on  \"\" x " ∧
      split "\t\"go \"on  \"\" x " = ["go on", "", "x"] := by
  have mixed : IsWrittenBy "go on".toList "\"go \"on".toList :=
    .quoted "go ".toList (by decide) (.bare (by decide) (.bare (by decide) .nothing))
  have isWritten : IsWritten ["go on", "", "x"] "\t\"go \"on  \"\" x " :=
    .argument "\t".toList (by decide) mixed (by decide) (Option.all_eq_true _ _ |>.mp (by decide))
      (.argument "  ".toList (by decide) (isWrittenBy_piece List.not_mem_nil) (by decide)
        (Option.all_eq_true _ _ |>.mp (by decide))
        (.argument " ".toList (by decide) (isWrittenBy_char (by decide)) (by decide)
          (Option.all_eq_true _ _ |>.mp (by decide)) (.blank (by decide))))
  exact ⟨isWritten, ((split_undoes_writing.1 _ _).mp isWritten).2⟩

end Arguments
end ScriptHost
