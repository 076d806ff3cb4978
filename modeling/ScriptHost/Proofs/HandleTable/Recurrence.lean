import ScriptHost.Proofs.HandleTable
import Mathlib.Data.List.Induction
import Mathlib.Data.Set.Card

/-!
# When handles come back

A table gives its handles in ascending order and begins again after the last one. So a handle
is not given again until all others have been given, which takes a round of insertions. Between
two insertions that give it, a handle leads to what the first one stored, as it was changed
since, until it is removed or the table is cleared.
-/

namespace ScriptHost
namespace HandleTable

variable {α : Type}

/-! ## Histories of a table -/

/-- What is done with a table. -/
inductive Act (α : Type)
  | insert (value : α)
  | get (handle : ScriptHandle)
  | modify (handle : ScriptHandle) (change : α → α)
  | remove (handle : ScriptHandle)
  | clear

/-- The table after something was done with it. -/
def perform (table : HandleTable α) : Act α → HandleTable α
  | .insert value => (table.insert value).1
  | .get _ => table
  | .modify handle change => table.modify handle change
  | .remove handle => (table.remove handle).2
  | .clear => table.clear.2

/-- A table after all that was ever done with it. -/
def after (acts : List (Act α)) : HandleTable α :=
  acts.foldl perform empty

/-- The handle that the next insertion into a table gives. -/
def nextHandle (table : HandleTable α) : ScriptHandle :=
  ⟨table.next⟩

/-- The handle that is given when something is done with a table. -/
def Act.given? (table : HandleTable α) : Act α → Option ScriptHandle
  | .insert value => some (table.insert value).2
  | _ => none

/-- The handles that are given from a table on, in this order. -/
def givenFrom (table : HandleTable α) : List (Act α) → List ScriptHandle
  | [] => []
  | act :: acts => (act.given? table).toList ++ givenFrom (table.perform act) acts

/-- The handles that a table has given in its history. -/
def given (acts : List (Act α)) : List ScriptHandle :=
  givenFrom empty acts

theorem after_concat
    (acts : List (Act α))
    (act : Act α) :
    after (acts ++ [act]) = (after acts).perform act :=
  List.foldl_concat ..

/-- After an entry is stored, what follows is done to a table with it. -/
theorem after_append_insert
    (before later : List (Act α))
    (stored : α) :
    after (before ++ .insert stored :: later) =
      later.foldl perform ((after before).insert stored).1 :=
  List.foldl_append ..

/-- The handles that are given later come after those given first. -/
theorem givenFrom_append
    (table : HandleTable α)
    (acts later : List (Act α)) :
    givenFrom table (acts ++ later) =
      givenFrom table acts ++ givenFrom (acts.foldl perform table) later := by
  induction acts generalizing table with
  | nil => rfl
  | cons act acts inductionHypothesis =>
      rw [List.cons_append, givenFrom, givenFrom, inductionHypothesis, List.append_assoc,
        List.foldl_cons]

theorem given_append
    (acts later : List (Act α)) :
    given (acts ++ later) = given acts ++ givenFrom (after acts) later :=
  givenFrom_append empty acts later

/-- An act gives out at most one more handle. -/
theorem given_concat
    (acts : List (Act α))
    (act : Act α) :
    given (acts ++ [act]) = given acts ++ (act.given? (after acts)).toList := by
  rw [given_append, givenFrom, givenFrom, List.append_nil]

/-- Each of so many insertions gives out a handle. -/
theorem length_given_replicate
    (number : Nat)
    (value : α) :
    (given (List.replicate number (.insert value))).length = number := by
  induction number with
  | zero => rfl
  | succ number inductionHypothesis =>
      rw [List.replicate_succ', given_concat, List.length_append, inductionHypothesis]
      rfl

/-! ## The order of handles -/

/-- The number of handles, which is the number of insertions in a round. -/
def round : Nat := UInt32.size - 1

/-- The handle that the insertion of a number gives, from zero on. -/
def handleAt (number : Nat) : ScriptHandle :=
  ⟨UInt32.ofNat (number % round + 1)⟩

/-- A handle tells its number up to whole rounds. -/
theorem toNat_handleAt (number : Nat) : (handleAt number).raw.toNat = number % round + 1 := by
  have small : number % round < round := Nat.mod_lt _ (by decide)
  change number % 4294967295 < 4294967295 at small
  rw [handleAt, UInt32.toNat_ofNat']
  change (number % 4294967295 + 1) % 4294967296 = number % 4294967295 + 1
  omega

/-- Two handles are the same if their numbers differ by whole rounds. -/
theorem handleAt_eq_iff (first second : Nat) :
    handleAt first = handleAt second ↔ first % round = second % round := by
  constructor
  · intro same
    have sameNumber := congrArg (fun handle => handle.raw.toNat) same
    simpa only [toNat_handleAt, Nat.add_right_cancel_iff] using sameNumber
  · intro same
    rw [handleAt, same, handleAt]

/-- A handle comes back after whole rounds only. -/
theorem add_round_le_of_handleAt_eq
    {first second : Nat}
    (isEarlier : first < second)
    (same : handleAt first = handleAt second) :
    first + round ≤ second := by
  rw [handleAt_eq_iff] at same
  change first % 4294967295 = second % 4294967295 at same
  change first + 4294967295 ≤ second
  omega

/-- The handles of a round follow on each other. -/
theorem successor_handleAt (number : Nat) :
    successor (handleAt number).raw = (handleAt (number + 1)).raw := by
  have isNumber := toNat_handleAt number
  have isNext := toNat_handleAt (number + 1)
  have isSum : ((handleAt number).raw + 1).toNat = ((handleAt number).raw.toNat + 1) % 4294967296 :=
    UInt32.toNat_add _ _
  change _ = number % 4294967295 + 1 at isNumber
  change _ = (number + 1) % 4294967295 + 1 at isNext
  rw [successor]
  split_ifs with isLast
  · rw [isLast] at isSum
    rw [← UInt32.toNat_inj, isNext]
    change 1 = _
    change 0 = _ at isSum
    omega
  · rw [← UInt32.toNat_inj, isSum, isNext]
    have notLast : ((handleAt number).raw + 1).toNat ≠ 0 := fun isZero =>
      isLast (UInt32.toNat_inj.mp isZero)
    omega

/-- An insertion gives the next handle and makes another one the next. Nothing else gives any. -/
theorem given?_cases
    (table : HandleTable α)
    (act : Act α) :
    act.given? table = some table.nextHandle ∧
        (table.perform act).nextHandle = ⟨successor table.next⟩ ∨
      act.given? table = none ∧ (table.perform act).nextHandle = table.nextHandle := by
  cases act with
  | insert => exact .inl ⟨rfl, rfl⟩
  | get | modify | remove | clear => exact .inr ⟨rfl, rfl⟩

/-- The handles follow one another in the order of their numbers. -/
theorem nextHandle_after (acts : List (Act α)) :
    (after acts).nextHandle = handleAt (given acts).length := by
  induction acts using List.reverseRecOn with
  | nil => rfl
  | append_singleton acts act inductionHypothesis =>
      rw [after_concat, given_concat]
      obtain ⟨gives, isNext⟩ | ⟨gives, isNext⟩ := given?_cases (after acts) act
      · have isLast : (after acts).next = (handleAt (given acts).length).raw :=
          congrArg ScriptHandle.raw inductionHypothesis
        rw [isNext, gives, isLast, successor_handleAt, Option.toList_some, List.length_append,
          List.length_singleton]
      · rw [isNext, gives, Option.toList_none, List.append_nil, inductionHypothesis]

/-- The handle that an insertion gave is known from its number. -/
theorem eq_handleAt_of_given
    {acts : List (Act α)}
    {position : Nat}
    {handle : ScriptHandle}
    (isGiven : (given acts)[position]? = some handle) :
    handle = handleAt position := by
  induction acts using List.reverseRecOn with
  | nil => cases isGiven
  | append_singleton acts act inductionHypothesis =>
      rw [given_concat] at isGiven
      obtain ⟨gives, -⟩ | ⟨gives, -⟩ := given?_cases (after acts) act
      · rw [gives, Option.toList_some, List.getElem?_append] at isGiven
        split_ifs at isGiven with isEarlier
        · exact inductionHypothesis isGiven
        · obtain ⟨isLast, rfl⟩ := List.getElem?_eq_some_iff.mp isGiven
          rw [List.length_singleton] at isLast
          rw [List.getElem_singleton, nextHandle_after,
            show (given acts).length = position by omega]
      · rw [gives, Option.toList_none, List.append_nil] at isGiven
        exact inductionHypothesis isGiven

/-! ## What stands under a handle -/

/-- An act ends what stands under a handle of a table: it takes it out, clears the table, or
stores something else under the same handle. -/
def Ends
    (table : HandleTable α)
    (handle : ScriptHandle) : Act α → Prop
  | .insert _ => table.nextHandle = handle
  | .get _ => False
  | .modify _ _ => False
  | .remove removed => removed = handle
  | .clear => True

/-- What an act makes of a value that stands under a handle. -/
def Act.changed
    (handle : ScriptHandle)
    (value : α) : Act α → α
  | .modify modified change => if modified = handle then change value else value
  | _ => value

/-- A value that stands under a handle of a table lasts through acts, and they change it into
another one. -/
inductive Lasts (handle : ScriptHandle) : HandleTable α → α → List (Act α) → α → Prop
  | stays {table : HandleTable α} {value : α} :
      Lasts handle table value [] value
  | goesOn {table : HandleTable α} {value last : α} {act : Act α} {acts : List (Act α)}
      (endures : ¬Ends table handle act)
      (lasts : Lasts handle (table.perform act) (act.changed handle value) acts last) :
      Lasts handle table value (act :: acts) last

/-- A value stands under a handle after a history: some insertion gave the handle, and what it
stored has lasted since and become this value. -/
def IsHeld
    (acts : List (Act α))
    (handle : ScriptHandle)
    (value : α) : Prop :=
  ∃ before stored later, acts = before ++ .insert stored :: later ∧
    (after before).nextHandle = handle ∧
    Lasts handle ((after before).insert stored).1 stored later value

/-- Nothing that a value lasts through ends it. -/
theorem Lasts.not_ends
    {handle : ScriptHandle}
    {table : HandleTable α}
    {value last : α}
    {acts later : List (Act α)}
    {act : Act α}
    (lasts : Lasts handle table value (acts ++ act :: later) last) :
    ¬Ends (acts.foldl perform table) handle act := by
  induction acts generalizing table value with
  | nil =>
      obtain _ | ⟨endures, -⟩ := lasts
      exact endures
  | cons first acts inductionHypothesis =>
      obtain _ | ⟨-, lasts⟩ := lasts
      exact inductionHypothesis lasts

/-- A value lasts through one more act if the act does not end it. -/
theorem lasts_concat
    {handle : ScriptHandle}
    {table : HandleTable α}
    {value last : α}
    {acts : List (Act α)}
    {act : Act α} :
    Lasts handle table value (acts ++ [act]) last ↔
      ∃ middle, Lasts handle table value acts middle ∧
        ¬Ends (acts.foldl perform table) handle act ∧ act.changed handle middle = last := by
  induction acts generalizing table value with
  | nil =>
      constructor
      · rintro (_ | ⟨endures, _ | _⟩)
        exact ⟨value, .stays, endures, rfl⟩
      · rintro ⟨_, _ | _, endures, rfl⟩
        exact .goesOn endures .stays
  | cons first acts inductionHypothesis =>
      constructor
      · rintro (_ | ⟨endures, lasts⟩)
        obtain ⟨middle, lasts, goesOn⟩ := inductionHypothesis.mp lasts
        exact ⟨middle, .goesOn endures lasts, goesOn⟩
      · rintro ⟨middle, _ | ⟨endures, lasts⟩, goesOn⟩
        exact .goesOn endures (inductionHypothesis.mpr ⟨middle, lasts, goesOn⟩)

/-- One more act stores a value under the handle, or leaves there what stood there before. -/
theorem isHeld_concat
    {acts : List (Act α)}
    {act : Act α}
    {handle : ScriptHandle}
    {value : α} :
    IsHeld (acts ++ [act]) handle value ↔
      act = .insert value ∧ (after acts).nextHandle = handle ∨
        ¬Ends (after acts) handle act ∧
          ∃ middle, IsHeld acts handle middle ∧ act.changed handle middle = value := by
  constructor
  · rintro ⟨before, stored, later, isHistory, isGiven, lasts⟩
    rcases List.eq_nil_or_concat' later with rfl | ⟨later, last, rfl⟩
    · obtain ⟨rfl, rfl⟩ : acts = before ∧ act = .insert stored := by simpa using isHistory
      obtain _ | _ := lasts
      exact .inl ⟨rfl, isGiven⟩
    · rw [← List.cons_append, ← List.append_assoc] at isHistory
      obtain ⟨rfl, sameLast⟩ := List.append_inj' isHistory rfl
      obtain rfl : act = last := List.singleton_inj.mp sameLast
      obtain ⟨middle, lasts, endures, isChanged⟩ := lasts_concat.mp lasts
      refine .inr ⟨?_, middle, ⟨before, stored, later, rfl, isGiven, lasts⟩, isChanged⟩
      rwa [after_append_insert]
  · rintro (⟨rfl, isGiven⟩ | ⟨endures, middle, ⟨before, stored, later, rfl, isGiven, lasts⟩,
      isChanged⟩)
    · exact ⟨acts, value, [], rfl, isGiven, .stays⟩
    · refine ⟨before, stored, later ++ [act], by simp, isGiven,
        lasts_concat.mpr ⟨middle, lasts, ?_, isChanged⟩⟩
      rwa [after_append_insert] at endures

/-- What an act does to the value under a handle. -/
theorem get?_perform
    (table : HandleTable α)
    (act : Act α)
    (handle : ScriptHandle)
    (value : α) :
    (table.perform act).get? handle = some value ↔
      act = .insert value ∧ table.nextHandle = handle ∨
        ¬Ends table handle act ∧
          ∃ middle, table.get? handle = some middle ∧ act.changed handle middle = value := by
  cases act with
  | insert stored =>
      rw [perform, get?_insert]
      by_cases isGiven : handle = table.nextHandle
      · subst isGiven
        simp [nextHandle, Ends]
      · simp only [nextHandle] at isGiven
        simp [nextHandle, Ends, Act.changed, isGiven, Ne.symm isGiven]
  | get => simp [perform, Ends, Act.changed]
  | modify modified change =>
      rw [perform, HandleTable.get?_modify]
      by_cases same : handle = modified
      · simp [Ends, Act.changed, same]
      · simp [Ends, Act.changed, same, Ne.symm same]
  | remove removed =>
      rw [perform, remove, HandleTable.get?_erase]
      by_cases same : handle = removed
      · simp [Ends, same]
      · simp [Ends, Act.changed, same, Ne.symm same]
  | clear => simp [perform, clear, Ends, get?]

/-- A handle finds a value after some acts if one of them stored it and none ended it since. -/
theorem get?_after_eq_some_iff
    (acts : List (Act α))
    (handle : ScriptHandle)
    (value : α) :
    (after acts).get? handle = some value ↔ IsHeld acts handle value := by
  induction acts using List.reverseRecOn generalizing value with
  | nil =>
      constructor
      · exact fun isFound => nomatch isFound
      · rintro ⟨before, stored, later, isHistory, -⟩
        simp at isHistory
  | append_singleton acts act inductionHypothesis =>
      simp only [after_concat, get?_perform, isHeld_concat, inductionHypothesis]

/-- Entries stay distinct in every act. -/
theorem distinct_perform
    {table : HandleTable α}
    (distinct : table.Distinct)
    (act : Act α) :
    (table.perform act).Distinct := by
  cases act with
  | insert value => exact distinct.insert value
  | get => exact distinct
  | modify handle change => exact distinct.modify handle change
  | remove handle => exact distinct.erase handle
  | clear => exact distinct_clear table

/-- Entries are distinct after all acts. -/
theorem distinct_after (acts : List (Act α)) : (after acts).Distinct := by
  induction acts using List.reverseRecOn with
  | nil => exact distinct_empty
  | append_singleton acts act inductionHypothesis =>
      rw [after_concat]
      exact distinct_perform inductionHypothesis act

/-- The size of a table is the number of handles under which something stands. -/
theorem Distinct.ncard_eq_size
    {table : HandleTable α}
    (distinct : table.Distinct) :
    {handle | ∃ value, table.get? handle = some value}.ncard = table.size := by
  have areHandles : {handle | ∃ value, table.get? handle = some value} =
      ((table.entries.map Prod.fst).toFinset : Set ScriptHandle) := by
    ext handle
    simp only [Set.mem_ofPred_eq, ← Option.isSome_iff_exists, get?, List.lookup_isSome_iff,
      List.coe_toFinset, List.mem_map, beq_iff_eq]
    constructor
    · rintro ⟨entry, member, same⟩
      exact ⟨entry, member, same.symm⟩
    · rintro ⟨entry, member, same⟩
      exact ⟨entry, member, same.symm⟩
  rw [areHandles, Set.ncard_coe_finset, List.toFinset_card_of_nodup distinct, List.length_map,
    size]

/-! ## What a history says of a table -/

/-- What insertions give after a history, and what a table then holds. -/
structure KeepsApart (acts : List (Act α)) : Prop where
  isPositive : ∀ value, 1 ≤ ((after acts).insert value).2.raw.toNat
  comesBackLate : ∀ value position,
    (given acts)[position]? = some ((after acts).insert value).2 →
      position + round ≤ (given acts).length
  replacesLate : (after acts).occupant?.isSome → round ≤ (given acts).length
  reachesNoNewer : ∀ before stored later value,
    acts = before ++ .insert stored :: later →
      (given acts).length ≤ (given before).length + round →
        (after acts).get? ((after before).insert stored).2 = some value →
          Lasts ((after before).insert stored).2 ((after before).insert stored).1 stored later value
  get?_iff : ∀ handle value, (after acts).get? handle = some value ↔ IsHeld acts handle value
  size_eq : (after acts).size = {handle | ∃ value, IsHeld acts handle value}.ncard

/-- An insertion gives out a handle that was not counted before. -/
theorem length_given_lt
    (before later : List (Act α))
    (stored : α) :
    (given before).length < (given (before ++ .insert stored :: later)).length := by
  rw [given_append, givenFrom, List.length_append, List.length_append]
  exact Nat.lt_add_of_pos_right (Nat.lt_add_right _ Nat.one_pos)

/-- What stands under a handle before the next round of insertions is over was stored by the
insertion that gave the handle, and has lasted since. -/
theorem lasts_of_isHeld
    {before later : List (Act α)}
    {stored value : α}
    (isSoon : (given (before ++ .insert stored :: later)).length ≤ (given before).length + round)
    (isHeld : IsHeld (before ++ .insert stored :: later) (after before).nextHandle value) :
    Lasts (after before).nextHandle ((after before).insert stored).1 stored later value := by
  obtain ⟨other, otherStored, otherLater, sameHistory, sameHandle, lasts⟩ := isHeld
  -- The insertion that stored the value is the same one, an earlier one, or a later one.
  obtain ⟨_ | ⟨first, between⟩, isSplit, isRest⟩ | ⟨_ | ⟨first, between⟩, isSplit, isRest⟩ :=
    List.append_eq_append_iff.mp sameHistory
  · obtain rfl : other = before := by simpa using isSplit
    obtain ⟨rfl, rfl⟩ : stored = otherStored ∧ later = otherLater := by simpa using isRest
    exact lasts
  · obtain ⟨rfl, rfl⟩ : first = .insert stored ∧
        later = between ++ .insert otherStored :: otherLater :=
      by simpa [eq_comm] using isRest
    subst isSplit
    rw [nextHandle_after, nextHandle_after] at sameHandle
    have isLater := length_given_lt before between stored
    have late := add_round_le_of_handleAt_eq isLater sameHandle.symm
    have isEarly := length_given_lt (before ++ .insert stored :: between) otherLater otherStored
    rw [← sameHistory] at isEarly
    omega
  · obtain rfl : other = before := by simpa using isSplit.symm
    obtain ⟨rfl, rfl⟩ : stored = otherStored ∧ later = otherLater := by
      simpa [eq_comm] using isRest
    exact lasts
  · obtain ⟨rfl, rfl⟩ : first = .insert otherStored ∧
        otherLater = between ++ .insert stored :: later :=
      by simpa [eq_comm] using isRest
    subst isSplit
    refine absurd ?_ lasts.not_ends
    rw [Ends, after_append_insert]

/-- Tables give their handles in rounds. An insertion gives a handle that the insertions of the
last round have not given. So in the first round no handle is given twice and nothing is stored
in place of something else, and for a round after it was given a handle leads to nothing newer.
Under a handle stands just what the last insertion that gave it has stored, as it was changed
since, until it is removed or the table is cleared; and the size counts these handles. -/
theorem keepsApart (acts : List (Act α)) : KeepsApart acts where
  isPositive _ := by
    change 1 ≤ (after acts).nextHandle.raw.toNat
    rw [nextHandle_after, toNat_handleAt]
    exact Nat.le_add_left ..
  comesBackLate value position isGiven := by
    obtain ⟨isEarlier, -⟩ := List.getElem?_eq_some_iff.mp isGiven
    refine add_round_le_of_handleAt_eq isEarlier ?_
    rw [← eq_handleAt_of_given isGiven, ← nextHandle_after]
    rfl
  replacesLate isOccupied := by
    obtain ⟨value, isFound⟩ := Option.isSome_iff_exists.mp isOccupied
    obtain ⟨before, stored, later, rfl, sameHandle, -⟩ :=
      (get?_after_eq_some_iff acts (after acts).nextHandle value).mp isFound
    rw [nextHandle_after, nextHandle_after] at sameHandle
    have late := add_round_le_of_handleAt_eq (length_given_lt before later stored) sameHandle
    omega
  reachesNoNewer before stored later value isHistory isSoon isFound := by
    subst isHistory
    exact lasts_of_isHeld isSoon ((get?_after_eq_some_iff ..).mp isFound)
  get?_iff := get?_after_eq_some_iff acts
  size_eq := by
    rw [← (distinct_after acts).ncard_eq_size]
    simp only [get?_after_eq_some_iff]

/-! ## What no table does -/

/-- The next insertion gives a handle that was never given before. -/
def GivesNew (acts : List (Act α)) : Prop :=
  ∀ value, ((after acts).insert value).2 ∉ given acts

/-- The next insertion puts nothing in the place of something that still stands. -/
def ReplacesNothing (acts : List (Act α)) : Prop :=
  (after acts).occupant? = none

/-- What the first insertion stored lasts through all others of its round. -/
theorem lasts_replicate
    {number : Nat}
    (value : α)
    (isSoon : number < round) :
    Lasts (handleAt 0) (after [.insert value]) value (List.replicate number (.insert value))
      value := by
  induction number with
  | zero => exact .stays
  | succ number inductionHypothesis =>
      rw [List.replicate_succ', lasts_concat]
      refine ⟨value, inductionHypothesis (Nat.lt_of_succ_lt isSoon), ?_, rfl⟩
      have sameTable : (List.replicate number (.insert value)).foldl perform
          (after [.insert value]) = after (List.replicate (number + 1) (.insert value)) := rfl
      rw [Ends, sameTable, nextHandle_after, length_given_replicate, handleAt_eq_iff,
        Nat.mod_eq_of_lt isSoon]
      exact Nat.succ_ne_zero number

/-- After a round of insertions the first handle is given again, and what the first insertion
stored is replaced. -/
theorem not_givesNew_and_not_replacesNothing :
    ¬GivesNew (List.replicate round (.insert (5 : Int64))) ∧
      ¬ReplacesNothing (List.replicate round (.insert (5 : Int64))) := by
  have isRound := length_given_replicate round (5 : Int64)
  have comesBack : (after (List.replicate round (.insert (5 : Int64)))).nextHandle =
      handleAt 0 := by
    rw [nextHandle_after, isRound, handleAt_eq_iff, Nat.mod_self, Nat.zero_mod]
  constructor
  · intro givesNew
    have isFirst : 0 < (given (List.replicate round (.insert (5 : Int64)))).length := by
      rw [isRound]
      decide
    refine givesNew 5 (List.mem_iff_getElem.mpr ⟨0, isFirst, ?_⟩)
    exact (eq_handleAt_of_given (List.getElem?_eq_getElem isFirst)).trans comesBack.symm
  · intro replacesNothing
    have isHeld : IsHeld (List.replicate round (.insert (5 : Int64))) (handleAt 0) 5 :=
      ⟨[], 5, List.replicate (round - 1) (.insert 5), rfl, rfl,
        lasts_replicate 5 (by decide)⟩
    have isFound := (get?_after_eq_some_iff ..).mpr isHeld
    rw [← comesBack] at isFound
    cases isFound.symm.trans replacesNothing

end HandleTable
end ScriptHost
