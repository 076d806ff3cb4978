import ScriptHost.Proofs.Host.Scenes
import ScriptHost.Proofs.Host.Tables
import ScriptHost.Proofs.Natives.Deeds

/-!
# Plans of batches

What a script has said of a batch is a plan: which processes are to be run and who is told of
them. The batch is stored with keys in place of functions. Processes are added at the end, and
the script is told their place in the batch.
-/

namespace ScriptHost

open Session

/-- A process of a batch, with the function that is told first when it ends. -/
structure BatchMember where
  spec : ProcessSpec
  onExit? : Option Function

/-- An entry of a batch is a process whose function is parked. -/
structure BatchEntry.IsFor
    (callables : Registry Function)
    (entry : BatchEntry)
    (member : BatchMember) : Prop where
  spec_eq : entry.spec = member.spec
  onExit?_eq : entry.onExit?.map callables.get? = member.onExit?.map some

theorem BatchEntry.IsFor.parked?_eq
    {host : Host}
    {entry : BatchEntry}
    {member : BatchMember}
    (isFor : entry.IsFor host.callables member) :
    host.parked? entry.onExit? = member.onExit? := by
  have parked := isFor.onExit?_eq
  rw [Host.parked?]
  cases key : entry.onExit? with
  | none =>
      rw [key] at parked
      exact (Option.map_eq_none_iff.mp parked.symm).symm
  | some key =>
      rw [key] at parked
      obtain ⟨function, isFunction, found⟩ := Option.map_eq_some_iff.mp parked.symm
      exact found.symm.trans isFunction.symm

/-- A batch that is run: the handle under which the script knows it, the function that is told of
each process, the processes in the order in which they were added, and how many may run at a
time. -/
structure BatchPlan where
  handle : ScriptHandle
  function : Function
  members : List BatchMember
  limit : Nat

namespace BatchPlan

/-- A batch is stored that is run so. -/
def IsStored
    (plan : BatchPlan)
    (host : Host)
    (batch : Batch) : Prop :=
  host.batches.get? plan.handle = some batch ∧
    host.callables.get? batch.callback = some plan.function ∧
      List.Forall₂ (BatchEntry.IsFor host.callables) batch.entries plan.members

theorem mem_keys_of_onExit?
    {batch : Batch}
    {entry : BatchEntry}
    {key : HandleKey}
    (isEntry : entry ∈ batch.entries)
    (isKey : entry.onExit? = some key) :
    key ∈ batch.keys :=
  List.mem_cons_of_mem _ (List.mem_filterMap.mpr ⟨entry, isEntry, isKey⟩)

/-- The keys of a batch that is stored stand for functions. -/
theorem exists_parked_of_mem_keys
    {hand : Multiset HandleKey}
    {host : Host}
    {handle : ScriptHandle}
    {batch : Batch}
    {key : HandleKey}
    (owned : Owned hand host.holdings)
    (stored : host.batches.get? handle = some batch)
    (isKey : key ∈ batch.keys) :
    ∃ function, host.callables.get? key = some function := by
  have isStored : key ∈ host.holdings.stored := by
    refine Multiset.mem_add.mpr (.inl ?_)
    rw [owned.distinctBatches.owned_erase Batch.keys handle]
    refine Multiset.mem_add.mpr (.inl ?_)
    rw [show host.holdings.batches.get? handle = _ from stored]
    exact isKey
  have isLive : key ∈ host.callables.liveKeys := by
    rw [show host.callables.liveKeys = _ from owned.live_eq]
    exact Multiset.mem_add.mpr (.inr isStored)
  exact Option.isSome_iff_exists.mp ((Registry.contains_iff_mem_liveKeys ..).mpr isLive)

/-- Each batch that is stored follows a plan, whatever has been done to the host. -/
theorem exists_isStored
    {hand : Multiset Possession}
    {host : Host}
    {handle : ScriptHandle}
    {batch : Batch}
    (reached : Reached hand host)
    (keysLeft : host.parkings < UInt64.size)
    (stored : host.batches.get? handle = some batch)
    (limit : Nat) :
    ∃ plan : BatchPlan, plan.handle = handle ∧ plan.limit = limit ∧ plan.IsStored host batch := by
  have owned := reached.owns keysLeft
  obtain ⟨function, isFunction⟩ :=
    exists_parked_of_mem_keys owned stored (List.mem_cons_self : batch.callback ∈ batch.keys)
  let memberOf (entry : BatchEntry) : BatchMember := ⟨entry.spec, host.parked? entry.onExit?⟩
  refine ⟨⟨handle, function, batch.entries.map memberOf, limit⟩, rfl, rfl, stored, isFunction, ?_⟩
  rw [List.forall₂_map_right_iff, List.forall₂_same]
  refine fun entry isEntry => ⟨rfl, ?_⟩
  cases isKey : entry.onExit? with
  | none =>
      rw [show (memberOf entry).onExit? = host.parked? entry.onExit? from rfl, isKey]
      rfl
  | some key =>
      obtain ⟨function, parked⟩ :=
        exists_parked_of_mem_keys owned stored (mem_keys_of_onExit? isEntry isKey)
      rw [show (memberOf entry).onExit? = host.parked? entry.onExit? from rfl, isKey]
      change some (host.callables.get? key) = (host.callables.get? key).map some
      rw [parked]
      rfl

end BatchPlan
end ScriptHost
