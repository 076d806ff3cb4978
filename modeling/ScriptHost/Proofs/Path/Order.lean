import ScriptHost.Proofs.Path
import Mathlib.Data.List.Lex
import Mathlib.Data.Prod.Lex
import Mathlib.Data.String.Basic

/-!
# The order of paths

Paths are ordered by their parts from the first one on. Sorting leaves each path after those that
come before it, whatever order it finds them in.
-/

namespace ScriptHost
namespace Path

/-- One part comes before another one. -/
def Part.Precedes (left right : Part) : Prop :=
  left.before right = true

/-- The parts of one path come before those of another one. -/
def Precedes (left right : String) : Prop :=
  List.Lex Part.Precedes (parts left) (parts right)

/-! ## Parts -/

/-- Parts are ordered by their kinds first, and names among themselves. -/
def Part.key : Part → ℕ ×ₗ String
  | .name text => toLex (Part.rank (.name text), text)
  | part => toLex (part.rank, "")

theorem Part.precedes_iff_key_lt (left right : Part) :
    left.Precedes right ↔ left.key < right.key := by
  cases left with
  | _ => cases right with
    | _ => simp [Precedes, before, key, rank, Prod.Lex.toLex_lt_toLex]

theorem Part.key_injective : Function.Injective Part.key := by
  intro left right isSame
  cases left with
  | _ => cases right with
    | _ => simp_all [key, rank]

instance : Std.Asymm Part.Precedes where
  asymm left right isBefore isAfter := by
    rw [Part.precedes_iff_key_lt] at isBefore isAfter
    exact isBefore.asymm isAfter

instance : Std.Trichotomous Part.Precedes where
  trichotomous left right notBefore notAfter := by
    rw [Part.precedes_iff_key_lt, not_lt] at notBefore notAfter
    exact Part.key_injective (le_antisymm notAfter notBefore)

instance : IsOrderConnected Part Part.Precedes where
  conn left middle right isBefore := by
    rw [Part.precedes_iff_key_lt] at isBefore ⊢
    rw [Part.precedes_iff_key_lt]
    exact (lt_or_ge left.key middle.key).imp_right fun notBefore => notBefore.trans_lt isBefore

/-! ## Sorting -/

theorem lex_cons_cons_iff
    {left right : Part}
    {lefts rights : List Part} :
    List.Lex Part.Precedes (left :: lefts) (right :: rights) ↔
      left.Precedes right ∨ left = right ∧ List.Lex Part.Precedes lefts rights := by
  constructor
  · intro isBefore
    cases isBefore with
    | rel isBefore => exact .inl isBefore
    | cons isBefore => exact .inr ⟨rfl, isBefore⟩
  · rintro (isBefore | ⟨rfl, isBefore⟩)
    · exact .rel isBefore
    · exact .cons isBefore

/-- Parts may stand first if the other ones do not come before them. -/
theorem partsBefore_iff
    (left right : List Part) :
    partsBefore left right = true ↔ ¬List.Lex Part.Precedes right left := by
  induction left generalizing right with
  | nil =>
      refine iff_of_true rfl fun isBefore => ?_
      cases isBefore
  | cons left lefts inductionHypothesis =>
      cases right with
      | nil => exact iff_of_false (by simp [partsBefore]) (not_not.mpr .nil)
      | cons right rights =>
          rw [partsBefore, lex_cons_cons_iff, Bool.or_eq_true, Bool.and_eq_true,
            Bool.not_eq_true', inductionHypothesis rights, not_or]
          constructor
          · rintro ((isBefore : left.Precedes right) | ⟨notAfter, notLater⟩)
            · refine ⟨asymm isBefore, ?_⟩
              rintro ⟨rfl, -⟩
              exact irrefl _ isBefore
            · exact ⟨by simpa [Part.Precedes] using notAfter, fun isLater => notLater isLater.2⟩
          · rintro ⟨notAfter, notLater⟩
            by_cases isBefore : left.Precedes right
            · exact .inl isBefore
            · obtain rfl : left = right := Std.Trichotomous.trichotomous _ _ isBefore notAfter
              exact .inr ⟨by simpa [Part.Precedes] using notAfter, fun isLater =>
                notLater ⟨rfl, isLater⟩⟩

/-- No path that is sorted comes before one that stands before it. -/
theorem pairwise_sort (paths : List String) :
    (sort paths).Pairwise fun left right => ¬Precedes right left := by
  refine (List.pairwise_mergeSort ?_ ?_ paths).imp fun {left right} isBefore => ?_
  · intro first second third isFirst isSecond
    rw [partsBefore_iff] at isFirst isSecond ⊢
    intro isThird
    exact (IsOrderConnected.conn _ (parts second) _ isThird).elim isSecond isFirst
  · intro left right
    rw [Bool.or_eq_true, partsBefore_iff, partsBefore_iff, ← not_and_or]
    exact fun isBoth => asymm isBoth.1 isBoth.2
  · exact (partsBefore_iff _ _).mp isBefore

theorem precedes_asymm
    {left right : String}
    (isBefore : Precedes left right) :
    ¬Precedes right left :=
  asymm_of (List.Lex Part.Precedes) isBefore

/-- Of two paths with different parts one comes before the other one. -/
theorem precedes_of_not_precedes
    {left right : String}
    (isOther : parts left ≠ parts right)
    (notAfter : ¬Precedes right left) :
    Precedes left right := by
  by_contra notBefore
  exact isOther (Std.Trichotomous.trichotomous _ _ notBefore notAfter)

theorem sort_perm (paths : List String) : (sort paths).Perm paths :=
  List.mergeSort_perm ..

/-- Paths with different parts are sorted one before the other. -/
theorem pairwise_precedes_sort
    {paths : List String}
    (areApart : paths.Pairwise fun left right => parts left ≠ parts right) :
    (sort paths).Pairwise Precedes := by
  have areApartToo : (sort paths).Pairwise fun left right => parts left ≠ parts right :=
    (sort_perm paths).symm.pairwise areApart fun isOther => isOther.symm
  exact (areApartToo.and (pairwise_sort paths)).imp fun ⟨isOther, notAfter⟩ =>
    precedes_of_not_precedes isOther notAfter

theorem nodup_of_pairwise_precedes
    {paths : List String}
    (isOrdered : paths.Pairwise Precedes) :
    paths.Nodup := by
  refine isOrdered.imp fun {left right} isBefore => ?_
  rintro rfl
  exact precedes_asymm isBefore isBefore

/-- There is one way only to put paths one before the other. -/
theorem eq_of_pairwise_precedes
    {first second : List String}
    (isOrdered : first.Pairwise Precedes)
    (isOrderedToo : second.Pairwise Precedes)
    (areSame : ∀ path, path ∈ first ↔ path ∈ second) :
    first = second := by
  have perm := (List.perm_ext_iff_of_nodup (nodup_of_pairwise_precedes isOrdered)
    (nodup_of_pairwise_precedes isOrderedToo)).mpr areSame
  exact perm.eq_of_pairwise (fun left right _ _ isBefore isAfter =>
    (precedes_asymm isBefore isAfter).elim) isOrdered isOrderedToo

end Path
end ScriptHost
