import ScriptHost.Proofs.Endpoint.Spelling
import Mathlib.Data.List.TakeWhile

/-!
# The written form of an endpoint

The text of an endpoint is one of its spellings: numbers are written in the fewest digits, and
the longest run of zero groups is left out. So an endpoint is read back from its text.
-/

namespace ScriptHost
namespace Endpoint

/-! ## Numbers -/

theorem portForm_spells (port : UInt16) : portForm.Spells port.toNat (decimal port.toNat) :=
  portForm.spells_toDigits (by decide) (by decide) port.toNat_lt fun _ isMost =>
    absurd isMost (Option.not_mem_none _)

theorem scopeForm_spells (scope : UInt32) : scopeForm.Spells scope.toNat (decimal scope.toNat) :=
  scopeForm.spells_toDigits (by decide) (by decide) scope.toNat_lt fun _ isMost =>
    absurd isMost (Option.not_mem_none _)

theorem groupForm_spells (group : UInt16) : groupForm.Spells group.toNat (groupText group) :=
  groupForm.spells_toDigits (by decide) (by decide) group.toNat_lt fun most isMost => by
    cases isMost
    exact ⟨by decide, group.toNat_lt⟩

theorem spellsScope_scopeText (scope : UInt32) : SpellsScope scope (scopeText scope) := by
  unfold scopeText
  split_ifs with isZero
  · exact .none isZero
  · exact .some (scopeForm_spells scope)

/-! ## Groups -/

/-- Groups that are written out are spelled. -/
theorem spellsGroups_groupsText
    {groups : List UInt16}
    (isSome : groups ≠ []) :
    SpellsGroups false groups (groupsText groups) := by
  induction groups with
  | nil => exact absurd rfl isSome
  | cons group groups inductionHypothesis =>
      cases groups with
      | nil => exact .last (groupForm_spells group)
      | cons => exact .next (groupForm_spells group) (inductionHypothesis (List.cons_ne_nil _ _))

theorem spellsPart_groupsText (groups : List UInt16) :
    SpellsPart false groups (groupsText groups) := by
  by_cases isEmpty : groups = []
  · rw [isEmpty]
    exact .inl ⟨rfl, rfl⟩
  · exact .inr (spellsGroups_groupsText isEmpty)

/-- Zeros stand at the front as far as their run goes. -/
theorem eq_zeros_append (groups : List UInt16) :
    groups = List.replicate (zeroRun groups) 0 ++ groups.drop (zeroRun groups) := by
  have areZeros : groups.takeWhile (· = 0) = List.replicate (zeroRun groups) 0 :=
    List.eq_replicate_of_mem fun group member => by simpa using List.mem_takeWhile_imp member
  have whole : groups.takeWhile (· = 0) ++ groups.dropWhile (· = 0) = groups :=
    List.takeWhile_append_dropWhile
  have areOthers := congrArg (List.drop (zeroRun groups)) whole
  rw [zeroRun, List.drop_left, ← zeroRun] at areOthers
  rw [← areZeros, ← areOthers, whole]

/-- The run that is found is one of zeros. -/
theorem eq_append_longestZeroRun (groups : List UInt16) :
    groups =
      groups.take (longestZeroRun groups).1 ++
        List.replicate (longestZeroRun groups).2 0 ++
        groups.drop ((longestZeroRun groups).1 + (longestZeroRun groups).2) := by
  induction groups with
  | nil => rfl
  | cons group rest inductionHypothesis =>
      simp only [longestZeroRun]
      split_ifs
      · rw [List.take_zero, List.nil_append, Nat.zero_add]
        exact eq_zeros_append (group :: rest)
      · rw [List.take_succ_cons, Nat.add_right_comm, List.drop_succ_cons, List.cons_append,
          List.cons_append, ← inductionHypothesis]

/-! ## Addresses of eight groups -/

/-- A group consists of its high byte and its low byte. -/
theorem ofNat_bytes (group : UInt16) :
    UInt16.ofNat ((group >>> 8).toUInt8.toNat * 256 + group.toUInt8.toNat) = group := by
  have isLess : group.toNat < 65536 := group.toNat_lt
  have isHigh : (group >>> 8).toUInt8.toNat = group.toNat / 256 := by
    rw [UInt16.toNat_toUInt8, UInt16.toNat_shiftRight]
    change group.toNat >>> 8 % 256 = _
    rw [Nat.shiftRight_eq_div_pow]
    omega
  have isLow : group.toUInt8.toNat = group.toNat % 256 := UInt16.toNat_toUInt8 _
  rw [isHigh, isLow, Nat.div_add_mod', UInt16.ofNat_toNat]

/-- A mapped address is spelled with its short address. -/
theorem spellsLong_of_mapped
    {address : LongAddress}
    {mapped : ShortAddress}
    (isMapped : mappedShort? address = some mapped) :
    SpellsLong address ([':', ':', 'f', 'f', 'f', 'f', ':'] ++ shortText mapped) := by
  unfold mappedShort? at isMapped
  split at isMapped
  next high low areGroups =>
    cases isMapped
    have areBytes : shortGroups ⟨(high >>> 8).toUInt8, high.toUInt8, (low >>> 8).toUInt8,
        low.toUInt8⟩ = [high, low] := by
      rw [shortGroups, ofNat_bytes, ofNat_bytes]
    have spellsMark : groupForm.Spells (0xffff : UInt16).toNat ['f', 'f', 'f', 'f'] :=
      ⟨[15, 15, 15, 15], rfl, rfl, rfl⟩
    have noHead : SpellsPart false [] [] := .inl ⟨rfl, rfl⟩
    refine .elided 5 ?_ (by decide) noHead (.inr (.next spellsMark (.bytes _)))
    rw [areGroups, areBytes]
    rfl
  next => cases isMapped

/-- The text of a long address spells it. -/
theorem spellsLong_longText (address : LongAddress) : SpellsLong address (longText address) := by
  unfold longText
  split
  next mapped isMapped => exact spellsLong_of_mapped isMapped
  next =>
    simp only
    split_ifs with isRun
    · exact .elided _ (eq_append_longestZeroRun address.groups) (by omega)
        (spellsPart_groupsText _) (spellsPart_groupsText _)
    · have isSome : address.groups ≠ [] := fun isEmpty => by
        have length_groups := address.length_groups
        rw [isEmpty] at length_groups
        cases length_groups
      exact .whole (spellsGroups_groupsText isSome)

/-! ## Endpoints -/

/-- The text of an endpoint spells it. -/
theorem spells_chars (endpoint : Endpoint) : Spells endpoint endpoint.chars := by
  cases endpoint with
  | short address port => exact .short address (portForm_spells port)
  | long address scope port =>
      exact .long (spellsLong_longText address) (spellsScope_scopeText scope) (portForm_spells port)

/-- An endpoint is read back from its text. -/
theorem ofText?_format (endpoint : Endpoint) : ofText? endpoint.format = some endpoint := by
  rw [ofText?, format, String.toList_ofList]
  exact (spells_chars endpoint).ofChars?_eq

end Endpoint
end ScriptHost
