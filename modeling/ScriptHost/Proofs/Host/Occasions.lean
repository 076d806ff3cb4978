import ScriptHost.Proofs.Host.Tables

/-!
# What befalls connections

The events of a connection begin to be pumped only while the script holds it, and functions are
told of them only by pumps that run. So once a connection is disposed of, its functions are told
nothing more but by the pumps that ran then, as long as they run.
-/

namespace ScriptHost
namespace Occasions

variable {handle : ScriptHandle} {function : Function}
variable {occasions before meanwhile after : Occasions} {entry : ScriptHandle × Occasion}

/-- Whether the script holds a connection under a handle after an occasion, given whether it did
before. -/
def holdsAfter
    (handle : ScriptHandle)
    (held : Bool)
    (entry : ScriptHandle × Occasion) : Bool :=
  if entry = (handle, .held) then true else if entry = (handle, .disposed) then false else held

/-- Whether the script holds a connection under a handle. -/
def isHeld
    (occasions : Occasions)
    (handle : ScriptHandle) : Bool :=
  occasions.foldl (holdsAfter handle) false

/-- The number of pumps of a connection that run. -/
def running
    (occasions : Occasions)
    (handle : ScriptHandle) : Nat :=
  occasions.count (handle, .pumps) - occasions.count (handle, .pumped)

/-- The functions of a connection are told nothing, unless its handle is given again before. -/
def IsHushed
    (occasions : Occasions)
    (handle : ScriptHandle) : Prop :=
  ∀ meanwhile function later, occasions = meanwhile ++ (handle, .tells function) :: later →
    (handle, .held) ∈ meanwhile

/-- What may come after what befell so far: pumping begins while the connection is held, and a
function is told of an event while a pump runs. -/
def Admits
    (occasions : Occasions) : ScriptHandle × Occasion → Prop
  | (handle, .pumps) => occasions.isHeld handle
  | (handle, .tells _) => 0 < occasions.running handle
  | _ => True

/-- Each occasion may come after those before it. -/
inductive Lawful : Occasions → Prop
  | empty : Lawful []
  | concat {occasions : Occasions} {entry : ScriptHandle × Occasion}
      (lawful : Lawful occasions)
      (admits : occasions.Admits entry) :
      Lawful (occasions ++ [entry])

/-- Whether a handle is held changes with the last occasion. -/
theorem isHeld_concat
    (occasions : Occasions)
    (entry : ScriptHandle × Occasion)
    (handle : ScriptHandle) :
    isHeld (occasions ++ [entry]) handle = holdsAfter handle (occasions.isHeld handle) entry :=
  List.foldl_concat ..

/-- Each of lawful occasions was admitted by those before it. -/
theorem Lawful.of_concat (lawful : Lawful (occasions ++ [entry])) :
    Lawful occasions ∧ occasions.Admits entry := by
  generalize same : occasions ++ [entry] = all at lawful
  cases lawful with
  | empty => simp at same
  | concat lawful admits =>
      obtain ⟨rfl, sameEntry⟩ := List.append_inj' same rfl
      cases sameEntry
      exact ⟨lawful, admits⟩

/-- Each of lawful occasions was admitted when it came. -/
theorem Lawful.admits (lawful : Lawful (before ++ entry :: after)) : before.Admits entry := by
  induction after using List.reverseRecOn with
  | nil => exact lawful.of_concat.2
  | append_singleton after last inductionHypothesis =>
      rw [← List.cons_append, ← List.append_assoc] at lawful
      exact inductionHypothesis lawful.of_concat.1

/-! ## Disposal -/

/-- A handle that is not given again stands for nothing. -/
theorem isHeld_eq_false_of_disposed
    (notAgain : (handle, .held) ∉ meanwhile) :
    isHeld (before ++ (handle, .disposed) :: meanwhile) handle = false := by
  induction meanwhile using List.reverseRecOn with
  | nil =>
      rw [isHeld_concat, holdsAfter, if_neg (by simp), if_pos rfl]
  | append_singleton meanwhile entry inductionHypothesis =>
      rw [List.mem_append, not_or] at notAgain
      have isOther : entry ≠ (handle, .held) := by
        rintro rfl
        exact notAgain.2 (List.mem_singleton_self _)
      rw [← List.cons_append, ← List.append_assoc, isHeld_concat, holdsAfter, if_neg isOther,
        inductionHypothesis notAgain.1, ite_self]

/-- No pump begins after the disposal. -/
theorem Lawful.pumps_notMem
    (lawful : Lawful (before ++ (handle, .disposed) :: (meanwhile ++ after)))
    (notAgain : (handle, .held) ∉ meanwhile) :
    (handle, .pumps) ∉ meanwhile := by
  intro member
  obtain ⟨earlier, later, rfl⟩ := List.append_of_mem member
  rw [List.append_assoc, ← List.cons_append, ← List.append_assoc] at lawful
  have stillHeld : isHeld (before ++ (handle, .disposed) :: earlier) handle = true :=
    lawful.admits
  rw [isHeld_eq_false_of_disposed fun wasAgain =>
    notAgain (List.mem_append_left _ wasAgain)] at stillHeld
  cases stillHeld

/-- After the disposal, a function is told only by a pump that ran then and is not over yet. -/
theorem Lawful.pumped_lt_running
    (lawful : Lawful
      (before ++ (handle, .disposed) :: (meanwhile ++ (handle, .tells function) :: after)))
    (notAgain : (handle, .held) ∉ meanwhile) :
    meanwhile.count (handle, .pumped) < before.running handle := by
  have noPump : meanwhile.count (handle, .pumps) = 0 :=
    List.count_eq_zero.mpr (lawful.pumps_notMem notAgain)
  rw [← List.cons_append, ← List.append_assoc] at lawful
  have runs : 0 < running (before ++ (handle, .disposed) :: meanwhile) handle := lawful.admits
  simp only [running, List.count_append, List.count_cons, noPump] at runs
  simp at runs
  unfold running
  omega

end Occasions

/-! ## What hosts record -/

/-- A connection that is held is an occasion of its handle. -/
theorem Host.occasions_holdConnection
    (host : Host)
    (connection : Connection) :
    (host.holdConnection connection).2.occasions =
      host.occasions ++ [(⟨host.connections.next⟩, .held)] := by
  unfold Host.holdConnection
  cases host.connections.occupant? with
  | none => rfl
  | some displaced => exact Host.view_releaseEach (fun _ _ => rfl) _ _

theorem Host.connections_holdConnection
    (host : Host)
    (connection : Connection) :
    (host.holdConnection connection).2.connections = (host.connections.insert connection).1 := by
  unfold Host.holdConnection
  cases host.connections.occupant? with
  | none => rfl
  | some displaced => exact Host.view_releaseEach (fun _ _ => rfl) _ _

/-- What a host has recorded of its connections is lawful, those that it stores are held, and the
pumps that run are in somebody's hand. -/
structure Chronicled
    (hand : Multiset Possession)
    (host : Host) : Prop where
  lawful : host.occasions.Lawful
  isHeld : ∀ handle ∈ host.connections.entries.map Prod.fst, host.occasions.isHeld handle
  pumps_eq : ∀ handle, host.occasions.count (handle, .pumps) =
    host.occasions.count (handle, .pumped) + hand.count (.pump handle)

namespace Chronicled

variable {hand laterHand : Multiset Possession} {host later : Host} {handle : ScriptHandle}

/-- Nothing befalls a connection. -/
private theorem rest
    (chronicled : Chronicled hand host)
    (sameOccasions : later.occasions = host.occasions)
    (sameConnections : later.connections = host.connections)
    (samePumps : ∀ handle, laterHand.count (.pump handle) = hand.count (.pump handle)) :
    Chronicled laterHand later where
  lawful := sameOccasions ▸ chronicled.lawful
  isHeld := by
    rw [sameOccasions, sameConnections]
    exact chronicled.isHeld
  pumps_eq handle := by
    rw [sameOccasions, samePumps]
    exact chronicled.pumps_eq handle

/-- Something befalls a connection. -/
private theorem concat
    {occasion : Occasion}
    (chronicled : Chronicled hand host)
    (noted : later.occasions = host.occasions ++ [(handle, occasion)])
    (admits : host.occasions.Admits (handle, occasion))
    (isHeld : ∀ other ∈ later.connections.entries.map Prod.fst,
      Occasions.holdsAfter other (host.occasions.isHeld other) (handle, occasion))
    (balance : ∀ other, hand.count (.pump other) + [(handle, occasion)].count (other, .pumps) =
      [(handle, occasion)].count (other, .pumped) + laterHand.count (.pump other)) :
    Chronicled laterHand later where
  lawful := noted ▸ chronicled.lawful.concat admits
  isHeld other member := by
    rw [noted, Occasions.isHeld_concat]
    exact isHeld other member
  pumps_eq other := by
    rw [noted, List.count_append, List.count_append, chronicled.pumps_eq other, Nat.add_assoc,
      balance other, Nat.add_assoc]

/-- A pump begins, tells or is over, and the connections are those that were there. -/
private theorem pumping
    {occasion : Occasion}
    (chronicled : Chronicled hand host)
    (notDisposed : occasion ≠ .disposed)
    (admits : host.occasions.Admits (handle, occasion))
    (balance : ∀ other, hand.count (.pump other) + [(handle, occasion)].count (other, .pumps) =
      [(handle, occasion)].count (other, .pumped) + laterHand.count (.pump other)) :
    Chronicled laterHand (host.note handle occasion) := by
  refine chronicled.concat rfl admits (fun other member => ?_) balance
  rw [Occasions.holdsAfter, chronicled.isHeld other member]
  simp [notDisposed]

/-- The pumps that are running are those in hand. -/
theorem running_eq
    (chronicled : Chronicled hand host)
    (handle : ScriptHandle) :
    host.occasions.running handle = hand.count (.pump handle) := by
  rw [Occasions.running, chronicled.pumps_eq handle, Nat.add_sub_cancel_left]

/-- Holding a connection keeps the chronicle. -/
theorem holdConnection
    (chronicled : Chronicled hand host)
    (connection : Connection) :
    Chronicled hand (host.holdConnection connection).2 := by
  refine chronicled.concat (host.occasions_holdConnection connection) trivial
    (fun other member => ?_) fun other => by simp
  rw [Host.connections_holdConnection] at member
  rcases HandleTable.mem_handles_insert member with wasThere | rfl
  · rw [Occasions.holdsAfter, chronicled.isHeld other wasThere]
    simp
  · exact if_pos rfl

/-- Taking a connection keeps the chronicle. -/
theorem takeConnection
    (chronicled : Chronicled hand host)
    (handle : ScriptHandle) :
    Chronicled hand
      ({ host with connections := host.connections.erase handle }.note handle .disposed) := by
  refine chronicled.concat rfl trivial (fun other member => ?_) fun other => by simp
  have isOther : handle ≠ other := by
    rintro rfl
    exact HandleTable.notMem_erase _ _ member
  rw [Occasions.holdsAfter,
    chronicled.isHeld other (HandleTable.mem_handles_of_mem_erase member)]
  simp [isOther]

/-- A pump that begins is in hand. -/
theorem pumps
    {connection : Connection}
    (chronicled : Chronicled hand host)
    (found : host.connections.get? handle = some connection) :
    Chronicled (.pump handle ::ₘ hand) (host.note handle .pumps) :=
  chronicled.pumping nofun
    (chronicled.isHeld handle (HandleTable.mem_handles_of_get? found))
    fun other => by
      by_cases same : handle = other
      · subst same
        simp
      · simp [same, Ne.symm same]

/-- A pump that is in hand may call a function. -/
theorem tells
    (chronicled : Chronicled hand host)
    (inHand : .pump handle ∈ hand)
    (function : Function) :
    Chronicled hand (host.note handle (.tells function)) := by
  refine chronicled.pumping nofun ?_ fun other => by simp
  change 0 < host.occasions.running handle
  rw [chronicled.running_eq]
  exact Multiset.count_pos.mpr inHand

/-- A pump that ends is out of hand. -/
theorem pumped (chronicled : Chronicled (.pump handle ::ₘ hand) host) :
    Chronicled hand (host.note handle .pumped) :=
  chronicled.pumping nofun trivial fun other => by
    by_cases same : handle = other
    · subst same
      simp [Nat.add_comm]
    · simp [same, Ne.symm same]

end Chronicled

theorem count_pump_keyHand
    (keys : List HandleKey)
    (handle : ScriptHandle) :
    (keyHand keys).count (.pump handle) = 0 := by
  rw [Multiset.count_eq_zero, keyHand, Multiset.mem_coe, List.mem_map]
  rintro ⟨key, -, isPump⟩
  cases isPump

/-- Whatever is done to a host, it records lawfully what befalls its connections. -/
theorem stable_chronicled : Stable Chronicled := by
  intro hand host laterHand later deed chronicled
  have samePumps (keys : List HandleKey) (hand : Multiset Possession) (handle : ScriptHandle) :
      (keyHand keys + hand).count (.pump handle) = hand.count (.pump handle) := by
    rw [Multiset.count_add, count_pump_keyHand, Nat.zero_add]
  cases deed with
  | aside same =>
      exact chronicled.rest (congrArg Affairs.occasions same)
        (congrArg (fun affairs : Affairs => affairs.holdings.connections) same) fun _ => rfl
  | createBatch function =>
      exact chronicled.rest (Host.view_releaseEach (fun _ _ => rfl) _ _)
        (Host.view_releaseEach (fun _ _ => rfl) _ _) fun _ => rfl
  | addEntry spec onExit? found =>
      exact chronicled.rest rfl rfl fun handle => (samePumps _ _ handle).symm
  | takeBatch handle => exact chronicled.rest rfl rfl (samePumps _ _)
  | holdConnection connection =>
      refine Chronicled.holdConnection ?_ connection
      exact chronicled.rest rfl rfl fun handle => (samePumps _ _ handle).symm
  | takeConnection handle => exact (chronicled.takeConnection handle).rest rfl rfl (samePumps _ _)
  | pumps found => exact chronicled.pumps found
  | tells function inHand => exact chronicled.tells inHand function
  | pumped handle => exact chronicled.pumped
  | work isNext =>
      exact chronicled.rest (Host.view_perform (fun _ _ _ _ _ _ _ => rfl) _ _)
        (Host.view_perform (fun _ _ _ _ _ _ _ => rfl) _ _) fun _ => rfl
  | _ => exact chronicled.rest rfl rfl fun handle => by simp

/-- A host that has just started has a chronicle. -/
theorem chronicled_of_start
    {host : Host}
    (isStart : host.affairs = .start host.machine) :
    Chronicled 0 host := by
  have noOccasions : host.occasions = [] := congrArg Affairs.occasions isStart
  have noConnections : host.connections = .empty :=
    congrArg (fun affairs : Affairs => affairs.holdings.connections) isStart
  refine ⟨noOccasions ▸ .empty, ?_, fun handle => ?_⟩
  · rw [noConnections]
    exact fun _ => nofun
  · rw [noOccasions]
    rfl

end ScriptHost
