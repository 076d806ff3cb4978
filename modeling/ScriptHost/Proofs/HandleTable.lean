import ScriptHost.HandleTable
import ScriptHost.Proofs.Entries
import Mathlib.Algebra.GroupWithZero.Nat
import Mathlib.Algebra.Order.Group.Multiset
import Mathlib.Data.List.Nodup

/-!
# What stored values own

The values of a table may own things. What the values of a table own together changes with
the one value that is stored, taken out or changed, because no handle is given to two values
at a time.
-/

namespace ScriptHost
namespace HandleTable

variable {α κ : Type}

/-- No handle holds two values. -/
def Distinct (table : HandleTable α) : Prop :=
  (table.entries.map Prod.fst).Nodup

/-- What the values of a table own together. -/
def owned
    (owns : α → List κ)
    (table : HandleTable α) : Multiset κ :=
  (table.entries.flatMap fun entry => owns entry.2 : List κ)

/-- The entries of an empty table are distinct. -/
theorem distinct_empty : (empty : HandleTable α).Distinct :=
  List.nodup_nil

@[simp] theorem owned_empty (owns : α → List κ) : (empty : HandleTable α).owned owns = 0 := rfl

theorem distinct_clear (table : HandleTable α) : table.clear.2.Distinct :=
  List.nodup_nil

@[simp] theorem owned_clear
    (owns : α → List κ)
    (table : HandleTable α) :
    table.clear.2.owned owns = 0 := rfl

/-- A table owns what its first entry owns and what the others own. -/
theorem owned_cons
    (owns : α → List κ)
    (next : UInt32)
    (entry : ScriptHandle × α)
    (entries : List (ScriptHandle × α)) :
    owned owns ⟨next, entry :: entries⟩ = owns entry.2 + owned owns ⟨next, entries⟩ := by
  rw [owned, List.flatMap_cons, ← Multiset.coe_add, owned]

/-- What a table owns is counted entry by entry. -/
theorem card_owned
    (owns : α → List κ)
    (table : HandleTable α) :
    (table.owned owns).card = (table.entries.map fun entry => (owns entry.2).length).sum :=
  List.length_flatMap ..

/-! ## Taking out -/

theorem Distinct.erase
    {table : HandleTable α}
    (distinct : table.Distinct)
    (handle : ScriptHandle) :
    (table.erase handle).Distinct :=
  distinct.sublist (List.filter_sublist.map Prod.fst)

/-- A handle finds nothing if no entry bears it. -/
theorem get?_eq_none_iff
    {table : HandleTable α}
    {handle : ScriptHandle} :
    table.get? handle = none ↔ handle ∉ table.entries.map Prod.fst :=
  Entries.lookup_eq_none_iff

/-- A handle that finds nothing can be erased without a change. -/
theorem erase_of_get?_eq_none
    {table : HandleTable α}
    {handle : ScriptHandle}
    (isFree : table.get? handle = none) :
    table.erase handle = table := by
  rw [HandleTable.erase, Entries.erase_of_lookup_eq_none isFree]

/-- A value that is taken out owned its share. -/
theorem Distinct.owned_erase
    {table : HandleTable α}
    (distinct : table.Distinct)
    (owns : α → List κ)
    (handle : ScriptHandle) :
    table.owned owns =
      ((table.get? handle).elim [] owns : List κ) + (table.erase handle).owned owns := by
  obtain ⟨next, entries⟩ := table
  induction entries with
  | nil => rfl
  | cons entry entries inductionHypothesis =>
      obtain ⟨isNew, distinct⟩ := List.nodup_cons.mp distinct
      rw [owned_cons]
      by_cases same : entry.1 = handle
      · subst same
        have erased : HandleTable.erase ⟨next, entry :: entries⟩ entry.1 = ⟨next, entries⟩ := by
          refine Eq.trans ?_ (erase_of_get?_eq_none (get?_eq_none_iff.mpr isNew))
          rw [HandleTable.erase, List.filter_cons_of_neg (by simp)]
          rfl
        rw [erased, get?, List.lookup_cons, beq_self_eq_true]
        rfl
      · have erased : HandleTable.erase ⟨next, entry :: entries⟩ handle =
            ⟨next, entry :: (HandleTable.erase ⟨next, entries⟩ handle).entries⟩ := by
          rw [HandleTable.erase, List.filter_cons_of_pos (by simp [same])]
          rfl
        have found : get? ⟨next, entry :: entries⟩ handle = get? ⟨next, entries⟩ handle := by
          rw [get?, List.lookup_cons, beq_eq_false_iff_ne.mpr (Ne.symm same)]
          rfl
        rw [erased, owned_cons, found, inductionHypothesis distinct, add_left_comm]
        rfl

/-- A handle that is erased finds nothing, and all others find what they found. -/
theorem get?_erase
    (table : HandleTable α)
    (erased handle : ScriptHandle) :
    (table.erase erased).get? handle = if handle = erased then none else table.get? handle :=
  Entries.lookup_erase table.entries erased handle

theorem card_owned_unit (table : HandleTable α) :
    (table.owned fun _ => [()]).card = table.size := by
  rw [card_owned, size]
  simp

/-- One entry less is left when a handle that finds something is erased. -/
theorem Distinct.size_erase
    {table : HandleTable α}
    {handle : ScriptHandle}
    {value : α}
    (distinct : table.Distinct)
    (found : table.get? handle = some value) :
    (table.erase handle).size + 1 = table.size := by
  rw [← card_owned_unit, ← card_owned_unit, distinct.owned_erase _ handle, found,
    Multiset.card_add, Nat.add_comm]
  rfl

/-! ## Storing -/

/-- A new entry goes to the end, in place of one that bore its handle. -/
theorem entries_insert
    (table : HandleTable α)
    (value : α) :
    (table.insert value).1.entries =
      (table.erase ⟨table.next⟩).entries ++ [(⟨table.next⟩, value)] := rfl

theorem notMem_erase
    (table : HandleTable α)
    (handle : ScriptHandle) :
    handle ∉ (table.erase handle).entries.map Prod.fst := by
  intro member
  obtain ⟨entry, isKept, rfl⟩ := List.mem_map.mp member
  exact bne_iff_ne.mp (List.mem_filter.mp isKept).2 rfl

/-- Entries stay distinct when one is added. -/
theorem Distinct.insert
    {table : HandleTable α}
    (distinct : table.Distinct)
    (value : α) :
    (table.insert value).1.Distinct := by
  rw [Distinct, entries_insert, List.map_append]
  have isNew := (distinct.erase ⟨table.next⟩).concat (table.notMem_erase ⟨table.next⟩)
  rwa [List.concat_eq_append] at isNew

/-- A value is stored in place of the one that still stood there. -/
theorem Distinct.owned_insert
    {table : HandleTable α}
    (distinct : table.Distinct)
    (owns : α → List κ)
    (value : α) :
    (table.occupant?.elim [] owns : List κ) + (table.insert value).1.owned owns =
      owns value + table.owned owns := by
  have stored : (table.insert value).1.owned owns =
      (table.erase ⟨table.next⟩).owned owns + owns value := by
    rw [owned, entries_insert, List.flatMap_append, List.flatMap_singleton, ← Multiset.coe_add,
      owned]
  rw [stored, distinct.owned_erase owns ⟨table.next⟩, ← add_assoc, add_comm]
  rfl

/-- The handle that is given out finds the new value, and all others find what they found. -/
theorem get?_insert
    (table : HandleTable α)
    (value : α)
    (handle : ScriptHandle) :
    (table.insert value).1.get? handle =
      if handle = ⟨table.next⟩ then some value else table.get? handle :=
  Entries.lookup_store table.entries ⟨table.next⟩ value handle

/-- If the next handle is free, there is one entry more. -/
theorem Distinct.size_insert
    {table : HandleTable α}
    (distinct : table.Distinct)
    (isFree : table.occupant? = none)
    (value : α) :
    (table.insert value).1.size = table.size + 1 := by
  have stored := congrArg Multiset.card (distinct.owned_insert (fun _ => [()]) value)
  rw [isFree, Multiset.card_add, Multiset.card_add, card_owned_unit, card_owned_unit] at stored
  simpa [Nat.add_comm] using stored

/-! ## Changing -/

/-- A change of a value leaves the handles as they are. -/
theorem handles_modify
    (table : HandleTable α)
    (handle : ScriptHandle)
    (change : α → α) :
    (table.modify handle change).entries.map Prod.fst = table.entries.map Prod.fst := by
  rw [HandleTable.modify, List.map_map]
  refine List.map_congr_left fun entry _ => ?_
  dsimp only [Function.comp_apply]
  split <;> rfl

theorem Distinct.modify
    {table : HandleTable α}
    (distinct : table.Distinct)
    (handle : ScriptHandle)
    (change : α → α) :
    (table.modify handle change).Distinct := by
  rw [Distinct, handles_modify]
  exact distinct

/-- A value that is changed is found changed, and all others are as they were. -/
theorem get?_modify
    (table : HandleTable α)
    (changed : ScriptHandle)
    (change : α → α)
    (handle : ScriptHandle) :
    (table.modify changed change).get? handle =
      if handle = changed then (table.get? handle).map change else table.get? handle :=
  Entries.lookup_change table.entries changed change handle

/-- An entry that is erased may have been changed before. -/
theorem erase_modify
    (table : HandleTable α)
    (handle : ScriptHandle)
    (change : α → α) :
    (table.modify handle change).erase handle = table.erase handle := by
  obtain ⟨next, entries⟩ := table
  simp only [HandleTable.erase, HandleTable.modify, HandleTable.mk.injEq, true_and]
  induction entries with
  | nil => rfl
  | cons entry entries inductionHypothesis =>
      by_cases same : entry.1 = handle <;> simp [same, inductionHypothesis]

/-- A value that is changed may own more afterwards. -/
theorem Distinct.owned_modify
    {table : HandleTable α}
    {handle : ScriptHandle}
    {value : α}
    {change : α → α}
    {owns : α → List κ}
    {more : Multiset κ}
    (distinct : table.Distinct)
    (found : table.get? handle = some value)
    (ownsMore : (owns (change value) : Multiset κ) = more + owns value) :
    (table.modify handle change).owned owns = more + table.owned owns := by
  rw [(distinct.modify handle change).owned_erase owns handle, distinct.owned_erase owns handle,
    get?_modify, if_pos rfl, erase_modify, found, ← add_assoc]
  exact congrArg (· + _) ownsMore

end HandleTable
end ScriptHost
