import ScriptHost.Proofs.Board
import ScriptHost.Host
import Mathlib.Data.List.Induction
import Mathlib.Data.List.Nodup

/-!
# What befalls operations

The script is given each operation under a handle of its own. Until it is claimed, the script is
shown its status; once it is claimed, it cannot be shown or claimed again, and what came of it is
handed to one recipient at most. So the operations that the script holds are those that were given
to it and that nobody has claimed yet. All this goes for as long as the handles last.
-/

namespace ScriptHost

/-- The handle and the operation that the script is given. -/
def Dealing.held? : Dealing → Option (ScriptHandle × OperationId)
  | .held handle operation => some (handle, operation)
  | _ => none

/-- The handle of the operation that is claimed. -/
def Dealing.claimed? : Dealing → Option ScriptHandle
  | .claimed handle => some handle
  | _ => none

/-- The handle of the operation whose outcome is handed to a recipient. -/
def Dealing.handed? : Dealing → Option ScriptHandle
  | .handed handle _ _ => some handle
  | _ => none

/-- The outcome that an operation comes to. -/
def Dealing.outcomeOf?
    (operation : OperationId) : Dealing → Option Outcome
  | .settled other outcome => if other = operation then some outcome else none
  | _ => none

/-- The status of an operation that has come to an outcome or not. -/
def OperationStatus.ofOutcome? : Option Outcome → OperationStatus
  | none => .pending
  | some (.ok _) => .completed
  | some (.error _) => .failed

/-- The status of an operation that a board holds is read off its outcome. -/
theorem Board.status?_of_holds
    {board : Board}
    {operation : OperationId}
    (isHeld : board.Holds operation) :
    board.status? operation = some (.ofOutcome? (board.outcome? operation)) := by
  rw [Board.status?, Board.outcome?, Array.getElem?_eq_getElem isHeld]
  cases board.operations[operation] with
  | pending => rfl
  | settled outcome => cases outcome <;> rfl

/-- The first outcome of an operation that is there counts. -/
theorem Board.outcome?_settle_of_holds
    {board : Board}
    {operation : OperationId}
    (isThere : board.Holds operation)
    (outcome : Outcome)
    (other : OperationId) :
    (board.settle operation outcome).outcome? other =
      (board.outcome? other).or (if operation = other then some outcome else none) := by
  rw [Board.outcome?_settle]
  by_cases same : operation = other
  · subst same
    cases noOutcome : board.outcome? operation with
    | none =>
        rw [if_pos ⟨(Board.isPending_iff ..).mpr ⟨isThere, noOutcome⟩, rfl⟩, if_pos rfl]
        rfl
    | some first =>
        have notPending := Board.not_isPending_of_isSettled (Option.isSome_of_eq_some noOutcome)
        rw [if_neg fun both => notPending both.1]
        rfl
  · rw [if_neg fun both => same both.2.symm, if_neg same, Option.or_none]

namespace Dealings

variable {dealings before after : Dealings} {dealing : Dealing}
variable {handle : ScriptHandle} {operation : OperationId}

/-- The operations that the script was given, under their handles. -/
def held (dealings : Dealings) : List (ScriptHandle × OperationId) :=
  dealings.filterMap Dealing.held?

/-- The handles of the operations that were claimed. -/
def claimed (dealings : Dealings) : List ScriptHandle :=
  dealings.filterMap Dealing.claimed?

/-- The handles of the operations whose outcomes were handed to recipients. -/
def handed (dealings : Dealings) : List ScriptHandle :=
  dealings.filterMap Dealing.handed?

/-- The number of operations that the script was given. -/
def created (dealings : Dealings) : Nat :=
  dealings.held.length

/-- The number of operations that were claimed. -/
def consumed (dealings : Dealings) : Nat :=
  dealings.claimed.length

/-- The first outcome that an operation has come to. -/
def outcome?
    (dealings : Dealings)
    (operation : OperationId) : Option Outcome :=
  dealings.findSome? (Dealing.outcomeOf? operation)

/-- The operation that the script holds under a handle. -/
def operationOf?
    (dealings : Dealings)
    (handle : ScriptHandle) : Option OperationId :=
  if handle ∈ dealings.claimed then none else dealings.held.lookup handle

/-- What may come after what befell so far. An operation is given under a handle of its own; its
status is shown, and it is claimed, while the script holds it; a recipient is handed what came of
it when it has been claimed; and what the script misses it does not hold. -/
def Admits
    (dealings : Dealings) : Dealing → Prop
  | .held handle operation =>
      handle ∉ dealings.held.map Prod.fst ∧ operation ∉ dealings.held.map Prod.snd
  | .settled _ _ => True
  | .shown handle status =>
      ∃ operation, dealings.operationOf? handle = some operation ∧
        status = .ofOutcome? (dealings.outcome? operation)
  | .claimed handle => (dealings.operationOf? handle).isSome
  | .handed handle _ delivery =>
      handle ∈ dealings.claimed ∧ handle ∉ dealings.handed ∧
        ∃ operation type outcome, (handle, operation) ∈ dealings.held ∧
          dealings.outcome? operation = some outcome ∧
            delivery = Scheduler.deliveryOf type outcome
  | .missed handle => dealings.operationOf? handle = none

/-- Whatever befell could come after what befell before. -/
def Lawful (dealings : Dealings) : Prop :=
  ∀ (before : Dealings) dealing after,
    dealings = before ++ dealing :: after → before.Admits dealing

/-- Nothing at all was dealt lawfully. -/
theorem lawful_nil : Lawful [] := by
  intro before dealing after same
  simp at same

/-- Dealings stay lawful when one is added that they admit. -/
theorem Lawful.concat
    (lawful : dealings.Lawful)
    (admits : dealings.Admits dealing) :
    Lawful (dealings ++ [dealing]) := by
  intro before other after same
  rcases List.eq_nil_or_concat after with rfl | ⟨after, last, rfl⟩
  · obtain ⟨rfl, sameLast⟩ := List.append_inj' same rfl
    cases sameLast
    exact admits
  · rw [List.concat_eq_append, ← List.cons_append, ← List.append_assoc] at same
    exact lawful before other after (List.append_inj' same rfl).1

/-- Each of lawful dealings was admitted by those before it. -/
theorem Lawful.of_concat (lawful : Lawful (dealings ++ [dealing])) :
    dealings.Lawful ∧ dealings.Admits dealing := by
  refine ⟨fun before other after same => ?_, lawful dealings dealing [] rfl⟩
  refine lawful before other (after ++ [dealing]) ?_
  rw [same, List.append_assoc, List.cons_append]

@[simp] theorem held_concat
    (dealings : Dealings)
    (dealing : Dealing) :
    held (dealings ++ [dealing]) = dealings.held ++ dealing.held?.toList := by
  rw [held, List.filterMap_append, held]
  cases dealing <;> rfl

@[simp] theorem claimed_concat
    (dealings : Dealings)
    (dealing : Dealing) :
    claimed (dealings ++ [dealing]) = dealings.claimed ++ dealing.claimed?.toList := by
  rw [claimed, List.filterMap_append, claimed]
  cases dealing <;> rfl

@[simp] theorem handed_concat
    (dealings : Dealings)
    (dealing : Dealing) :
    handed (dealings ++ [dealing]) = dealings.handed ++ dealing.handed?.toList := by
  rw [handed, List.filterMap_append, handed]
  cases dealing <;> rfl

@[simp] theorem outcome?_concat
    (dealings : Dealings)
    (dealing : Dealing)
    (operation : OperationId) :
    outcome? (dealings ++ [dealing]) operation =
      (dealings.outcome? operation).or (dealing.outcomeOf? operation) := by
  rw [outcome?, List.findSome?_append, List.findSome?_singleton, outcome?]

theorem held_concat_none (isNone : dealing.held? = none) :
    held (dealings ++ [dealing]) = dealings.held := by
  rw [held_concat, isNone, Option.toList_none, List.append_nil]

theorem claimed_concat_none (isNone : dealing.claimed? = none) :
    claimed (dealings ++ [dealing]) = dealings.claimed := by
  rw [claimed_concat, isNone, Option.toList_none, List.append_nil]

theorem handed_concat_none (isNone : dealing.handed? = none) :
    handed (dealings ++ [dealing]) = dealings.handed := by
  rw [handed_concat, isNone, Option.toList_none, List.append_nil]

theorem outcome?_concat_none (isNone : dealing.outcomeOf? operation = none) :
    outcome? (dealings ++ [dealing]) operation = dealings.outcome? operation := by
  rw [outcome?_concat, isNone, Option.or_none]

/-- A handle whose operation can be taken was not claimed. -/
theorem notMem_claimed_of_operationOf?
    (isHeld : dealings.operationOf? handle = some operation) :
    handle ∉ dealings.claimed := by
  intro isClaimed
  rw [operationOf?, if_pos isClaimed] at isHeld
  cases isHeld

/-- An operation that can be taken from a handle was held under it. -/
theorem mem_held_of_operationOf?
    (isHeld : dealings.operationOf? handle = some operation) :
    (handle, operation) ∈ dealings.held := by
  rw [operationOf?, if_neg (notMem_claimed_of_operationOf? isHeld)] at isHeld
  obtain ⟨earlier, later, same, -⟩ := List.lookup_eq_some_iff.mp isHeld
  rw [same]
  exact List.mem_append_cons_self

/-- A handle under which nothing was held has no operation to take. -/
theorem operationOf?_eq_none
    (notHeld : handle ∉ dealings.held.map Prod.fst) :
    dealings.operationOf? handle = none := by
  rw [operationOf?]
  split
  · rfl
  · refine List.lookup_eq_none_iff.mpr fun entry member => bne_iff_ne.mpr fun same => ?_
    exact notHeld (List.mem_map.mpr ⟨entry, member, same.symm⟩)

/-- What is given anew is there besides what was there. -/
theorem operationOf?_concat_held
    {given : ScriptHandle}
    (notHeld : given ∉ dealings.held.map Prod.fst)
    (notClaimed : given ∉ dealings.claimed)
    (operation : OperationId)
    (handle : ScriptHandle) :
    operationOf? (dealings ++ [.held given operation]) handle =
      if handle = given then some operation else dealings.operationOf? handle := by
  have nowHeld : held (dealings ++ [.held given operation]) =
      dealings.held ++ [(given, operation)] := held_concat ..
  rw [operationOf?, claimed_concat_none rfl, nowHeld, List.lookup_append]
  by_cases same : handle = given
  · subst same
    have wasNone := operationOf?_eq_none notHeld
    rw [operationOf?, if_neg notClaimed] at wasNone
    rw [if_pos rfl, if_neg notClaimed, wasNone, List.lookup_cons_self, Option.none_or]
  · rw [if_neg same, operationOf?, List.lookup_cons, beq_eq_false_iff_ne.mpr same]
    congr 1
    exact Option.or_none

/-- What is claimed is gone, and all else is still there. -/
theorem operationOf?_concat_claimed
    (dealings : Dealings)
    (taken handle : ScriptHandle) :
    operationOf? (dealings ++ [.claimed taken]) handle =
      if handle = taken then none else dealings.operationOf? handle := by
  have nowClaimed : claimed (dealings ++ [.claimed taken]) = dealings.claimed ++ [taken] :=
    claimed_concat ..
  rw [operationOf?, nowClaimed, held_concat_none rfl]
  by_cases same : handle = taken
  · subst same
    rw [if_pos rfl]
    exact if_pos List.mem_concat_self
  · rw [if_neg same]
    simp only [operationOf?, List.mem_append, List.mem_singleton, same, or_false]

/-- What may only come once is never there twice. -/
private theorem Lawful.nodup_filterMap
    {α : Type}
    {choose? : Dealing → Option α}
    (lawful : dealings.Lawful)
    (isNew : ∀ (before : Dealings) dealing item, before.Admits dealing →
      choose? dealing = some item → item ∉ before.filterMap choose?) :
    (dealings.filterMap choose?).Nodup := by
  induction dealings using List.reverseRecOn with
  | nil => exact List.nodup_nil
  | append_singleton dealings dealing inductionHypothesis =>
      obtain ⟨lawful, admits⟩ := lawful.of_concat
      have once := inductionHypothesis lawful
      rw [List.filterMap_append]
      cases chosen : choose? dealing with
      | none => rwa [List.filterMap_cons_none chosen, List.filterMap_nil, List.append_nil]
      | some item =>
          rw [List.filterMap_cons_some chosen, List.filterMap_nil]
          exact once.append (List.nodup_singleton _)
            (List.disjoint_singleton.mpr (isNew dealings dealing item admits chosen))

/-- Lawful dealings give out each handle once. -/
theorem Lawful.nodup_handles (lawful : dealings.Lawful) :
    (dealings.held.map Prod.fst).Nodup := by
  rw [held, List.map_filterMap]
  refine lawful.nodup_filterMap fun before dealing item admits chosen => ?_
  rw [← List.map_filterMap]
  cases dealing <;> cases chosen
  exact admits.1

/-- Lawful dealings claim each handle once. -/
theorem Lawful.nodup_claimed (lawful : dealings.Lawful) : dealings.claimed.Nodup := by
  refine lawful.nodup_filterMap fun before dealing item admits chosen => ?_
  cases dealing <;> cases chosen
  obtain ⟨operation, isHeld⟩ := Option.isSome_iff_exists.mp admits
  exact notMem_claimed_of_operationOf? isHeld

/-- Only what was given is claimed. -/
theorem Lawful.claimed_subset (lawful : dealings.Lawful) :
    dealings.claimed ⊆ dealings.held.map Prod.fst := by
  intro handle isClaimed
  obtain ⟨dealing, member, chosen⟩ := List.mem_filterMap.mp isClaimed
  obtain ⟨before, after, same⟩ := List.append_of_mem member
  have admits := lawful before dealing after same
  cases dealing <;> cases chosen
  obtain ⟨operation, isHeld⟩ := Option.isSome_iff_exists.mp admits
  have wasHeld : (handle, operation) ∈ dealings.held := by
    rw [same, held, List.filterMap_append]
    exact List.mem_append_left _ (mem_held_of_operationOf? isHeld)
  exact List.mem_map_of_mem wasHeld

/-- Outcomes are handed only of what was claimed. -/
theorem Lawful.handed_subset (lawful : dealings.Lawful) : dealings.handed ⊆ dealings.claimed := by
  intro handle isHanded
  obtain ⟨dealing, member, chosen⟩ := List.mem_filterMap.mp isHanded
  obtain ⟨before, after, same⟩ := List.append_of_mem member
  have admits := lawful before dealing after same
  cases dealing <;> cases chosen
  rw [same, claimed, List.filterMap_append]
  exact List.mem_append_left _ admits.1

/-- The handle of an operation determines it. -/
theorem Lawful.operation_unique
    {other : OperationId}
    (lawful : dealings.Lawful)
    (isHeld : (handle, operation) ∈ dealings.held)
    (isOther : (handle, other) ∈ dealings.held) :
    operation = other :=
  congrArg Prod.snd (List.inj_on_of_nodup_map lawful.nodup_handles isHeld isOther rfl)

end Dealings

end ScriptHost
