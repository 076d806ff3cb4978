import ScriptHost.Registry
import ScriptHost.Proofs.Entries

/-!
# Live keys

A key is live while a callable is parked under it. Releasing ends what is parked under one
key, releasing all ends everything, and parking makes one key live.
-/

namespace ScriptHost
namespace Registry

variable {α : Type}

/-- A key that is released finds nothing, and all others find what they found. -/
theorem get?_release
    (registry : Registry α)
    (released key : HandleKey) :
    (registry.release released).get? key = if key = released then none else registry.get? key :=
  Entries.lookup_erase registry.entries released key

/-- The key that is given out finds the new value, and all others find what they found. -/
theorem get?_register
    (registry : Registry α)
    (callable : α)
    (key : HandleKey) :
    (registry.register callable).1.get? key =
      if key = ⟨registry.nextKey⟩ then some callable else registry.get? key :=
  Entries.lookup_store registry.entries ⟨registry.nextKey⟩ callable key

theorem contains_iff
    (registry : Registry α)
    (key : HandleKey) :
    registry.contains key = true ↔ key ∈ registry.entries.map Prod.fst :=
  Entries.lookup_isSome_iff

/-- A registry contains the keys that are not released. -/
theorem contains_release
    (registry : Registry α)
    (released key : HandleKey) :
    (registry.release released).contains key = true ↔
      registry.contains key = true ∧ key ≠ released := by
  rw [contains, get?_release, contains]
  by_cases same : key = released <;> simp [same]

/-- Releasing a key that is not live changes nothing. -/
theorem release_of_not_contains
    {registry : Registry α}
    {key : HandleKey}
    (notLive : registry.contains key = false) :
    registry.release key = registry := by
  rw [release, Entries.erase_of_lookup_eq_none (Option.isSome_eq_false_iff.mp notLive |>
    Option.isNone_iff_eq_none.mp)]

/-- A registry contains the key that is given out. -/
theorem contains_register
    (registry : Registry α)
    (callable : α)
    (key : HandleKey) :
    (registry.register callable).1.contains key = true ↔
      registry.contains key = true ∨ key = (registry.register callable).2 := by
  have isKey : (registry.register callable).2 = ⟨registry.nextKey⟩ := rfl
  rw [contains, get?_register, contains, isKey]
  by_cases same : key = ⟨registry.nextKey⟩ <;> simp [same]

theorem contains_releaseAll
    (registry : Registry α)
    (key : HandleKey) :
    registry.releaseAll.2.contains key = false := rfl

end Registry
end ScriptHost
