import ScriptHost.Path
import Mathlib.Data.List.Basic

/-!
# Paths below one another

A path that is joined with a name has that name as its last one, and the name is its last part.
-/

namespace ScriptHost
namespace Path

variable {base name : String}

/-- A name that an entry of a directory can have. -/
structure IsName (name : String) : Prop where
  notEmpty : name ≠ ""
  noSlash : '/' ∉ name.toList
  notHere : name ≠ "."
  notAbove : name ≠ ".."

instance (name : String) : Decidable (IsName name) :=
  decidable_of_iff (name ≠ "" ∧ '/' ∉ name.toList ∧ name ≠ "." ∧ name ≠ "..")
    ⟨fun ⟨notEmpty, noSlash, notHere, notAbove⟩ => ⟨notEmpty, noSlash, notHere, notAbove⟩,
      fun isName => ⟨isName.notEmpty, isName.noSlash, isName.notHere, isName.notAbove⟩⟩

/-! ## Cutting -/

/-- There is at least one piece, since an empty path is one. -/
theorem cut_ne_nil (chars : List Char) : cut chars ≠ [] := by
  cases chars with
  | nil => simp [cut]
  | cons char rest =>
      rw [cut]
      split_ifs
      · simp
      · split <;> simp

/-- A path is cut at each slash. -/
theorem cut_append_slash (first second : List Char) :
    cut (first ++ '/' :: second) = cut first ++ cut second := by
  induction first with
  | nil => simp [cut]
  | cons char rest inductionHypothesis =>
      rw [List.cons_append, cut, cut, inductionHypothesis]
      split_ifs
      · rfl
      · cases isCut : cut rest with
        | nil => exact (cut_ne_nil rest isCut).elim
        | cons piece pieces => rfl

/-- Without a slash, a path is one piece. -/
theorem cut_of_noSlash
    {chars : List Char}
    (noSlash : '/' ∉ chars) :
    cut chars = [chars] := by
  induction chars with
  | nil => rfl
  | cons char rest inductionHypothesis =>
      rw [List.mem_cons, not_or] at noSlash
      rw [cut, if_neg (Ne.symm noSlash.1), inductionHypothesis noSlash.2]

/-- No piece has a slash. -/
theorem noSlash_of_mem_cut
    {piece chars : List Char}
    (isPiece : piece ∈ cut chars) :
    '/' ∉ piece := by
  induction chars generalizing piece with
  | nil => simp_all [cut]
  | cons char rest inductionHypothesis =>
      rw [cut] at isPiece
      split_ifs at isPiece with isSlash
      · rcases List.mem_cons.mp isPiece with rfl | isPiece
        · simp
        · exact inductionHypothesis isPiece
      · cases isCut : cut rest with
        | nil => exact (cut_ne_nil rest isCut).elim
        | cons first pieces =>
            rw [isCut] at isPiece inductionHypothesis
            rcases List.mem_cons.mp isPiece with rfl | isPiece
            · simpa [Ne.symm isSlash] using @inductionHypothesis first (by simp)
            · exact inductionHypothesis (List.mem_cons_of_mem _ isPiece)

/-- The names of a path are not empty and have no slashes. -/
theorem name_of_mem_names
    {path : String}
    (isName : name ∈ names path) :
    name ≠ "" ∧ '/' ∉ name.toList := by
  rw [names, List.mem_map] at isName
  obtain ⟨piece, isPiece, rfl⟩ := isName
  rw [List.mem_filter] at isPiece
  refine ⟨?_, by simpa using noSlash_of_mem_cut isPiece.1⟩
  rw [ne_eq, ← String.toList_eq_nil_iff, String.toList_ofList]
  simpa using isPiece.2

/-! ## Joining -/

/-- A name alone is no absolute path. -/
theorem isAbsolute_eq_false_of_noSlash (noSlash : '/' ∉ name.toList) :
    isAbsolute name = false := by
  rw [isAbsolute, beq_eq_false_iff_ne]
  intro isHead
  exact noSlash (List.mem_of_mem_head? isHead)

/-- A name that is joined with the empty path stands alone. -/
theorem join_empty (isName : IsName name) : join "" name = name := by
  rw [join, isAbsolute_eq_false_of_noSlash isName.noSlash]
  simp

/-- A path is joined with a name by one slash. -/
theorem toList_join
    (isName : IsName name)
    (notEmpty : base ≠ "") :
    ∃ front, (join base name).toList = front ++ '/' :: name.toList ∧
      (base.toList = front ∨ base.toList = front ++ ['/']) := by
  rw [join, isAbsolute_eq_false_of_noSlash isName.noSlash]
  simp only [Bool.false_or, decide_eq_true_eq, if_neg notEmpty]
  split_ifs with endsWithSlash
  · rw [Path.endsWithSlash, beq_iff_eq] at endsWithSlash
    obtain ⟨front, isFront⟩ := List.getLast?_eq_some_iff.mp endsWithSlash
    exact ⟨front, by simp [isFront], .inr isFront⟩
  · exact ⟨base.toList, by simp, .inl rfl⟩

/-- The names of a joined path end in the one that was joined. -/
theorem names_join (isName : IsName name) : names (join base name) = names base ++ [name] := by
  have isPiece : (!name.toList.isEmpty) = true := by
    simpa using isName.notEmpty
  rcases eq_or_ne base "" with rfl | notEmpty
  · rw [join_empty isName, names, cut_of_noSlash isName.noSlash,
      List.filter_cons_of_pos (by exact isPiece)]
    simp [names, cut]
  obtain ⟨front, isJoin, isBase⟩ := toList_join isName notEmpty
  have isFront : names base =
      ((cut front).filter fun piece => !piece.isEmpty).map String.ofList := by
    rw [names]
    rcases isBase with isBase | isBase
    · rw [isBase]
    · rw [isBase, cut_append_slash]
      simp [cut]
  rw [isFront, names, isJoin, cut_append_slash, cut_of_noSlash isName.noSlash, List.filter_append,
    List.map_append, List.filter_cons_of_pos (by exact isPiece)]
  simp

theorem endsWithSlash_of_isName (isName : IsName name) : endsWithSlash name = false := by
  rw [endsWithSlash, beq_eq_false_iff_ne]
  intro isSlash
  exact isName.noSlash (List.mem_of_getLast? isSlash)

/-- A path that ends in a name does not end in a slash. -/
theorem endsWithSlash_join (isName : IsName name) : endsWithSlash (join base name) = false := by
  rcases eq_or_ne base "" with rfl | notEmpty
  · rw [join_empty isName, endsWithSlash_of_isName isName]
  obtain ⟨front, isJoin, -⟩ := toList_join isName notEmpty
  have isLast : ('/' :: name.toList).getLast? = name.toList.getLast? := by
    rw [← List.singleton_append, List.getLast?_append_of_ne_nil]
    simpa using isName.notEmpty
  rw [endsWithSlash, isJoin, List.getLast?_append_of_ne_nil _ (by simp), isLast,
    beq_eq_false_iff_ne]
  intro isSlash
  exact isName.noSlash (List.mem_of_getLast? isSlash)

/-- A path stays absolute, or does not become so, when a name is joined to it. -/
theorem isAbsolute_join (isName : IsName name) :
    isAbsolute (join base name) = isAbsolute base := by
  rcases eq_or_ne base "" with rfl | notEmpty
  · rw [join_empty isName, isAbsolute_eq_false_of_noSlash isName.noSlash]
    rfl
  obtain ⟨front, isJoin, isBase⟩ := toList_join isName notEmpty
  rw [isAbsolute, isAbsolute, isJoin]
  cases front with
  | cons char rest => rcases isBase with isBase | isBase <;> simp [isBase]
  | nil =>
      rcases isBase with isBase | isBase
      · exact (notEmpty (String.toList_eq_nil_iff.mp isBase)).elim
      · simp [isBase]

theorem join_ne_empty (isName : IsName name) : join base name ≠ "" := by
  rcases eq_or_ne base "" with rfl | notEmpty
  · rw [join_empty isName]
    exact isName.notEmpty
  obtain ⟨front, isJoin, -⟩ := toList_join isName notEmpty
  rw [ne_eq, ← String.toList_eq_nil_iff, isJoin]
  simp

/-- A joined path is longer. -/
theorem utf8ByteSize_join (isName : IsName name) :
    base.utf8ByteSize < (join base name).utf8ByteSize := by
  have isMore : name.utf8ByteSize ≠ 0 := fun isZero =>
    isName.notEmpty (String.utf8ByteSize_eq_zero_iff.mp isZero)
  rcases eq_or_ne base "" with rfl | notEmpty
  · rw [join_empty isName, String.utf8ByteSize_empty]
    omega
  rw [join, isAbsolute_eq_false_of_noSlash isName.noSlash]
  simp only [Bool.false_or, decide_eq_true_eq, if_neg notEmpty]
  split_ifs <;> simp only [String.utf8ByteSize_append] <;> omega

/-! ## Parts -/

/-- A name stands for itself among the parts of a path. -/
theorem ofName_of_isName (isName : IsName name) : Part.ofName name = .name name := by
  rw [Part.ofName, if_neg isName.notHere, if_neg isName.notAbove]

/-- The last part of a path that is joined with a name is the name. -/
theorem parts_join (isName : IsName name) :
    parts (join base name) = parts base ++ [.name name] := by
  rw [parts, parts, names_join isName, isAbsolute_join isName, List.map_append,
    List.map_singleton, ofName_of_isName isName]
  split_ifs
  · simp
  · cases (names base).map Part.ofName with
    | nil => simp
    | cons part rest => cases part <;> simp

/-! ## Parents -/

/-- The text of a part other than the root is not empty and has no slash at its end. -/
def Part.IsPiece (part : Part) : Prop :=
  part = .root ∨ (part.text ≠ "" ∧ endsWithSlash part.text = false)

theorem isPiece_ofName
    {path : String}
    (isName : name ∈ names path) :
    (Part.ofName name).IsPiece := by
  have ⟨notEmpty, noSlash⟩ := name_of_mem_names isName
  rw [Part.ofName]
  split_ifs with isHere isAbove
  · exact .inr (by decide)
  · exact .inr (by decide)
  · exact .inr (endsWithSlash_of_isName ⟨notEmpty, noSlash, isHere, isAbove⟩ ▸ ⟨notEmpty, rfl⟩)

/-- Every part of a path is a piece. -/
theorem isPiece_of_mem_parts
    {part : Part}
    {path : String}
    (isPart : part ∈ parts path) :
    part.IsPiece := by
  have isPiece : ∀ part ∈ (names path).map Part.ofName, part.IsPiece := by
    simpa using fun name isName => isPiece_ofName isName
  rw [parts] at isPart
  split_ifs at isPart
  · rcases List.mem_cons.mp isPart with rfl | isPart
    · exact .inl rfl
    · exact isPiece part (List.mem_filter.mp isPart).1
  · split at isPart
    next rest areParts =>
      refine isPiece part (areParts ▸ ?_)
      rcases List.mem_cons.mp isPart with rfl | isPart
      · simp
      · exact List.mem_cons_of_mem _ (List.mem_filter.mp isPart).1
    next => exact isPiece part (List.mem_filter.mp isPart).1

/-- A name is joined to the end of a path, whatever stands in front. -/
theorem join_append
    (front : String)
    (isName : IsName name)
    (notEmpty : base ≠ "") :
    join (front ++ base) name = front ++ join base name := by
  have notEmptyToo : front ++ base ≠ "" := by simp [notEmpty]
  have endsAlike : endsWithSlash (front ++ base) = endsWithSlash base := by
    rw [endsWithSlash, endsWithSlash, String.toList_append, List.getLast?_append_of_ne_nil]
    simpa using notEmpty
  rw [join, join, isAbsolute_eq_false_of_noSlash isName.noSlash, endsAlike]
  simp only [Bool.false_or, decide_eq_true_eq, if_neg notEmpty, if_neg notEmptyToo]
  split_ifs <;> simp only [String.append_assoc]

theorem ofParts_ne_empty
    {parts : List Part}
    (arePieces : ∀ part ∈ parts, part.IsPiece)
    (notEmpty : parts ≠ []) :
    ofParts parts ≠ "" := by
  fun_cases ofParts parts with
  | case1 => exact (notEmpty rfl).elim
  | case2 part =>
      rcases arePieces part (by simp) with rfl | isPiece
      · decide
      · exact isPiece.1
  | case3 rest notNil => simp
  | case4 part rest notNil notRoot => simp

/-- A name that is added to the parts of a path is joined with its text. -/
theorem ofParts_concat
    {parts : List Part}
    (arePieces : ∀ part ∈ parts, part.IsPiece)
    (isName : IsName name) :
    ofParts (parts ++ [.name name]) = join (ofParts parts) name := by
  have noRoot : isAbsolute name = false := isAbsolute_eq_false_of_noSlash isName.noSlash
  fun_induction ofParts parts with
  | case1 => exact (join_empty isName).symm
  | case2 part =>
      rcases arePieces part (by simp) with rfl | ⟨notEmpty, noSlash⟩
      · simp [ofParts, Part.text, join, noRoot, endsWithSlash]
      · rw [join, noRoot, noSlash]
        cases part with
        | root => cases noSlash
        | here => rfl
        | above => rfl
        | name text =>
            rw [Part.text] at notEmpty
            simp [ofParts, Part.text, notEmpty]
  | case3 rest notNil inductionHypothesis =>
      have arePiecesOn : ∀ part ∈ rest, part.IsPiece :=
        fun part isPart => arePieces part (List.mem_cons_of_mem _ isPart)
      rw [join_append _ isName (ofParts_ne_empty arePiecesOn notNil),
        ← inductionHypothesis arePiecesOn]
      cases rest with
      | nil => exact (notNil rfl).elim
      | cons next rest => rfl
  | case4 part rest notNil notRoot inductionHypothesis =>
      have arePiecesOn : ∀ part ∈ rest, part.IsPiece :=
        fun part isPart => arePieces part (List.mem_cons_of_mem _ isPart)
      rw [join_append _ isName (ofParts_ne_empty arePiecesOn notNil),
        ← inductionHypothesis arePiecesOn]
      cases rest with
      | nil => exact (notNil rfl).elim
      | cons next rest => cases part <;> first | rfl | exact (notRoot rfl).elim

/-- A path that is written as its parts are: with one slash between names and without names that
say nothing. -/
def IsPlainlyWritten (path : String) : Prop :=
  ofParts (parts path) = path

instance (path : String) : Decidable (IsPlainlyWritten path) :=
  inferInstanceAs (Decidable (ofParts (parts path) = path))

/-- A path stays plainly written when a name is joined to it. -/
theorem IsPlainlyWritten.join
    (isPlain : IsPlainlyWritten base)
    (isName : IsName name) :
    IsPlainlyWritten (Path.join base name) := by
  rw [IsPlainlyWritten, parts_join isName, ofParts_concat (fun _ => isPiece_of_mem_parts) isName,
    isPlain]

/-- The parent of a path that is joined with a name. -/
theorem parent?_join
    (isPlain : IsPlainlyWritten base)
    (isName : IsName name) :
    parent? (Path.join base name) = some base := by
  rw [parent?, parts_join isName]
  split
  next isNil => simp at isNil
  next isRoot =>
    have isLast := congrArg List.getLast? isRoot
    simp at isLast
  next => rw [List.dropLast_concat, isPlain]

end Path
end ScriptHost
