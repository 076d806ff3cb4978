import Mathlib.Data.List.Basic

/-!
# Entries under keys

Several tables are lists of entries, each under a key, in which the first entry of a key
counts. What such a table holds under a key is known after entries of a key are left out,
after an entry is put in their place, and after the entry of a key is changed.
-/

namespace ScriptHost
namespace Entries

variable {κ α : Type} [BEq κ] [LawfulBEq κ]

/-- Entries that are left out do not matter to a key of which all entries are kept. -/
theorem lookup_filter
    {keeps : κ × α → Bool}
    {key : κ}
    (entries : List (κ × α))
    (keepsAll : ∀ value, keeps (key, value) = true) :
    (entries.filter keeps).lookup key = entries.lookup key := by
  induction entries with
  | nil => rfl
  | cons entry entries inductionHypothesis =>
      obtain ⟨other, value⟩ := entry
      by_cases same : key = other
      · rw [List.filter_cons_of_pos (same ▸ keepsAll value), same, List.lookup_cons_self,
          List.lookup_cons_self]
      · have skips (rest : List (κ × α)) :
            ((other, value) :: rest).lookup key = rest.lookup key := by
          rw [List.lookup_cons, beq_false_of_ne same]
        by_cases isKept : keeps (other, value) = true
        · rw [List.filter_cons_of_pos isKept, skips, skips, inductionHypothesis]
        · rw [List.filter_cons_of_neg isKept, skips, inductionHypothesis]

theorem lookup_isSome_iff
    {entries : List (κ × α)}
    {key : κ} :
    (entries.lookup key).isSome = true ↔ key ∈ entries.map Prod.fst := by
  rw [List.lookup_isSome_iff, List.mem_map]
  exact exists_congr fun entry => and_congr_right fun _ => beq_iff_eq.trans eq_comm

theorem lookup_eq_none_iff
    {entries : List (κ × α)}
    {key : κ} :
    entries.lookup key = none ↔ key ∉ entries.map Prod.fst := by
  rw [← lookup_isSome_iff, Option.not_isSome_iff_eq_none]

/-- Leaving out a key that has no entries changes nothing. -/
theorem erase_of_lookup_eq_none
    {entries : List (κ × α)}
    {key : κ}
    (notFound : entries.lookup key = none) :
    (entries.filter fun entry => entry.1 != key) = entries := by
  refine List.filter_eq_self.mpr fun entry member => bne_iff_ne.mpr ?_
  rintro rfl
  exact lookup_eq_none_iff.mp notFound (List.mem_map_of_mem member)

variable [DecidableEq κ]

/-- What is found when the entries of a key are left out. -/
theorem lookup_erase
    (entries : List (κ × α))
    (erased key : κ) :
    (entries.filter fun entry => entry.1 != erased).lookup key =
      if key = erased then none else entries.lookup key := by
  split
  next same =>
    rw [same, lookup_eq_none_iff, List.mem_map]
    rintro ⟨entry, member, rfl⟩
    exact bne_iff_ne.mp (List.mem_filter.mp member).2 rfl
  next isOther => exact lookup_filter entries fun _ => bne_iff_ne.mpr isOther

/-- What is found when an entry is put in the place of those of its key. -/
theorem lookup_store
    (entries : List (κ × α))
    (stored : κ)
    (value : α)
    (key : κ) :
    ((entries.filter fun entry => entry.1 != stored) ++ [(stored, value)]).lookup key =
      if key = stored then some value else entries.lookup key := by
  rw [List.lookup_append, lookup_erase]
  split
  next same => rw [same, Option.none_or, List.lookup_cons_self]
  next isOther =>
    rw [List.lookup_cons, beq_false_of_ne isOther]
    exact Option.or_none

/-- What is found when the value of a key is changed. -/
theorem lookup_change
    (entries : List (κ × α))
    (changed : κ)
    (change : α → α)
    (key : κ) :
    (entries.map fun entry =>
        if entry.1 = changed then (entry.1, change entry.2) else entry).lookup key =
      if key = changed then (entries.lookup key).map change else entries.lookup key := by
  induction entries with
  | nil => exact (ite_self _).symm
  | cons entry entries inductionHypothesis =>
      rw [List.map_cons, List.lookup_cons, List.lookup_cons, inductionHypothesis]
      by_cases isChanged : entry.1 = changed
      · by_cases same : key = changed
        · simp [isChanged, same]
        · simp [isChanged, same, beq_false_of_ne same]
      · by_cases same : key = entry.1
        · simp [same, isChanged]
        · simp [isChanged, beq_false_of_ne same]

end Entries
end ScriptHost
