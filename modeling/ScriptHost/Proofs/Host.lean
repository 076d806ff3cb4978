import ScriptHost.Host
import ScriptHost.Proofs.HandleTable
import ScriptHost.Proofs.Registry
import Mathlib.Algebra.BigOperators.Group.List.Basic

/-!
# Who owns what is parked

Each function that is parked has one owner. Its key is owned by a batch or a connection that
is stored, or it is in the hand of something that the host is doing. What the host does passes
keys from hand to hand: parking gives one into the hand, releasing takes one from it, and the
tables take keys over and give them back.

A registry counts its keys up and would give them again after it has given every one. Until
then a key that it gives is new.
-/

namespace ScriptHost

namespace Registry

variable {α : Type}

/-- The keys under which something is parked. -/
def liveKeys (registry : Registry α) : Multiset HandleKey :=
  (registry.entries.map Prod.fst : List HandleKey)

theorem card_liveKeys (registry : Registry α) : registry.liveKeys.card = registry.size :=
  List.length_map ..

theorem contains_iff_mem_liveKeys
    (registry : Registry α)
    (key : HandleKey) :
    registry.contains key = true ↔ key ∈ registry.liveKeys := by
  rw [contains_iff, liveKeys, Multiset.mem_coe]

theorem liveKeys_release
    (registry : Registry α)
    (key : HandleKey) :
    (registry.release key).liveKeys = registry.liveKeys.filter (· ≠ key) := by
  have sameTest : (fun entry : HandleKey × α => entry.1 != key) =
      (fun other => decide (other ≠ key)) ∘ Prod.fst := by
    funext entry
    simp [bne, Bool.beq_eq_decide_eq]
  rw [liveKeys, release, liveKeys, Multiset.filter_coe, List.filter_map, sameTest]

/-- A key that is given becomes live, and the others stay. -/
theorem liveKeys_register
    {registry : Registry α}
    (isNew : ⟨registry.nextKey⟩ ∉ registry.liveKeys)
    (callable : α) :
    (registry.register callable).1.liveKeys = ⟨registry.nextKey⟩ ::ₘ registry.liveKeys := by
  have notLive : registry.contains ⟨registry.nextKey⟩ = false :=
    Bool.eq_false_iff.mpr (mt (registry.contains_iff_mem_liveKeys _).mp isNew)
  have sameEntries : (registry.register callable).1.entries =
      registry.entries ++ [(⟨registry.nextKey⟩, callable)] := by
    rw [← congrArg entries (release_of_not_contains notLive)]
    rfl
  rw [liveKeys, sameEntries, List.map_append, ← Multiset.coe_add, add_comm]
  rfl

end Registry

/-- What a host holds of functions: those that are parked, how many ever were, and what owns
them. -/
structure Holdings where
  callables : Registry Function
  parkings : Nat
  batches : HandleTable Batch
  connections : HandleTable Connection

/-- What the host holds of functions. -/
def Host.holdings (host : Host) : Holdings :=
  ⟨host.callables, host.parkings, host.batches, host.connections⟩

/-- The keys that the stored batches and connections own. -/
def Holdings.stored (holdings : Holdings) : Multiset HandleKey :=
  holdings.batches.owned Batch.keys + holdings.connections.owned Connection.keys

/-- Each function that is parked has one owner, and keys were only given to those that were
parked. -/
structure Owned
    (hand : Multiset HandleKey)
    (holdings : Holdings) : Prop where
  live_eq : holdings.callables.liveKeys = hand + holdings.stored
  nodup : holdings.callables.liveKeys.Nodup
  given : ∀ key ∈ holdings.callables.liveKeys, key.raw.toNat ≤ holdings.parkings
  nextKey_eq : holdings.callables.nextKey = UInt64.ofNat (holdings.parkings + 1)
  distinctBatches : holdings.batches.Distinct
  distinctConnections : holdings.connections.Distinct

/-- Each function that is parked has one owner, unless the keys have run out. -/
def Owns
    (hand : Multiset HandleKey)
    (host : Host) : Prop :=
  host.holdings.parkings < UInt64.size → Owned hand host.holdings

/-! ## What is left alone -/

section View

variable {α : Type} {view : Host → α}

/-- To release functions leaves alone what has nothing to do with them. -/
theorem Host.view_releaseEach
    (leaves : ∀ (host : Host) callables, view { host with callables := callables } = view host)
    (host : Host)
    (keys : List HandleKey) :
    view (host.releaseEach keys) = view host := by
  induction keys generalizing host with
  | nil => rfl
  | cons key keys inductionHypothesis =>
      exact (inductionHypothesis (host.release key)).trans (leaves host _)

/-- To give a connection to the script leaves alone what has nothing to do with connections. -/
theorem Host.view_holdConnection
    (leaves : ∀ (host : Host) callables network connections occasions,
      view { host with
        callables := callables, network := network, connections := connections
        occasions := occasions } = view host)
    (host : Host)
    (connection : Connection) :
    view (host.holdConnection connection).2 = view host := by
  unfold Host.holdConnection
  cases host.connections.occupant? with
  | none => exact leaves host host.callables host.network _ _
  | some displaced =>
      refine (Host.view_releaseEach (fun host callables => ?_) _ _).trans
        (leaves host host.callables _ _ _)
      exact leaves host callables host.network host.connections host.occasions

/-- What is done in the background leaves alone what has nothing to do with the background. -/
theorem Host.view_perform
    (leaves : ∀ (host : Host) board dealings ended outputs files web,
      view { host with
        board := board, dealings := dealings, ended := ended, outputs := outputs, files := files
        web := web } = view host)
    (host : Host)
    (work : Work) :
    view (host.perform work) = view host := by
  cases work with
  | delay operation => exact leaves host _ _ host.ended host.outputs host.files host.web
  | process operation spec directory cell? =>
      unfold Host.perform
      dsimp only
      split
      · unfold Host.leaveOutput
        split
        · exact leaves host _ _ _ _ _ host.web
        · exact leaves host _ _ _ host.outputs _ host.web
      · exact leaves host _ _ _ host.outputs _ host.web
  | download operation url path => exact leaves host _ _ host.ended host.outputs _ _

end View

variable {hand : Multiset HandleKey} {host : Host}

/-! ## Parking and releasing -/

theorem Owned.toNat_nextKey
    {holdings : Holdings}
    (owned : Owned hand holdings)
    (keysLeft : holdings.parkings + 1 < UInt64.size) :
    holdings.callables.nextKey.toNat = holdings.parkings + 1 := by
  rw [owned.nextKey_eq, UInt64.toNat_ofNat_of_lt' keysLeft]

/-- The key that is given next is not live. -/
theorem Owned.nextKey_notMem
    {holdings : Holdings}
    (owned : Owned hand holdings)
    (keysLeft : holdings.parkings + 1 < UInt64.size) :
    ⟨holdings.callables.nextKey⟩ ∉ holdings.callables.liveKeys := by
  intro isLive
  have isGiven := owned.given _ isLive
  rw [owned.toNat_nextKey keysLeft] at isGiven
  omega

/-- A function that is parked is in the hand of whoever parked it. -/
theorem Owns.park
    (owns : Owns hand host)
    (function : Function) :
    Owns ((host.park function).1 ::ₘ hand) (host.park function).2 := by
  intro keysLeft
  have keysLeft : host.holdings.parkings + 1 < UInt64.size := keysLeft
  have owned := owns (Nat.lt_of_succ_lt keysLeft)
  have number := owned.toNat_nextKey keysLeft
  have isNew := owned.nextKey_notMem keysLeft
  obtain ⟨live_eq, nodup, given, nextKey_eq, distinctBatches, distinctConnections⟩ := owned
  have live : (host.park function).2.holdings.callables.liveKeys =
      ⟨host.callables.nextKey⟩ ::ₘ host.callables.liveKeys :=
    Registry.liveKeys_register isNew function
  refine ⟨?_, ?_, ?_, ?_, distinctBatches, distinctConnections⟩
  · rw [live, show host.callables.liveKeys = _ from live_eq, Multiset.cons_add]
    rfl
  · rw [live]
    exact Multiset.nodup_cons.mpr ⟨isNew, nodup⟩
  · intro key isLive
    rw [live] at isLive
    rcases Multiset.mem_cons.mp isLive with rfl | wasLive
    · exact number.le
    · exact Nat.le_succ_of_le (given key wasLive)
  · change host.callables.nextKey + 1 = UInt64.ofNat (host.holdings.parkings + 1 + 1)
    rw [show host.callables.nextKey = _ from nextKey_eq, UInt64.ofNat_add (_ + 1)]
    rfl

/-- A key that is released is in the hand no more. -/
theorem Owns.release
    {key : HandleKey}
    (owns : Owns (key ::ₘ hand) host) :
    Owns hand (host.release key) := by
  intro keysLeft
  obtain ⟨live_eq, nodup, given, nextKey_eq, distinctBatches, distinctConnections⟩ :=
    owns keysLeft
  have nodupRest : (key ::ₘ (hand + host.holdings.stored)).Nodup := by
    rw [← Multiset.cons_add, ← live_eq]
    exact nodup
  have live : (host.release key).holdings.callables.liveKeys = hand + host.holdings.stored := by
    change (host.callables.release key).liveKeys = _
    rw [Registry.liveKeys_release, show host.callables.liveKeys = _ from live_eq, Multiset.cons_add,
      Multiset.filter_cons_of_neg _ (by simp), Multiset.filter_eq_self]
    rintro other member rfl
    exact (Multiset.nodup_cons.mp nodupRest).1 member
  refine ⟨live, ?_, ?_, nextKey_eq, distinctBatches, distinctConnections⟩
  · rw [live]
    exact (Multiset.nodup_cons.mp nodupRest).2
  · intro other isLive
    rw [live] at isLive
    refine given other ?_
    rw [live_eq, Multiset.cons_add]
    exact Multiset.mem_cons_of_mem isLive

theorem Owns.park?
    (owns : Owns hand host)
    (function? : Option Function) :
    Owns ((host.park? function?).1.toList + hand) (host.park? function?).2 := by
  cases function? with
  | none => exact (Multiset.zero_add hand).symm ▸ owns
  | some function => exact owns.park function

theorem Owns.release?
    {key? : Option HandleKey}
    (owns : Owns (key?.toList + hand) host) :
    Owns hand (host.release? key?) := by
  cases key? with
  | none => exact Multiset.zero_add hand ▸ owns
  | some key => exact Owns.release owns

theorem Owns.releaseEach
    {keys : List HandleKey}
    (owns : Owns (keys + hand) host) :
    Owns hand (host.releaseEach keys) := by
  induction keys generalizing host with
  | nil => exact Multiset.zero_add hand ▸ owns
  | cons key keys inductionHypothesis =>
      rw [← Multiset.cons_coe, Multiset.cons_add] at owns
      exact inductionHypothesis owns.release

/-! ## Tables -/

/-- Keys that pass between the hand and the stored batches are owned as before. -/
theorem Owns.passBatches
    {batches : HandleTable Batch}
    {later : Multiset HandleKey}
    (owns : Owns hand host)
    (distinct : host.batches.Distinct → batches.Distinct)
    (balance : host.batches.Distinct →
      later + batches.owned Batch.keys = hand + host.batches.owned Batch.keys) :
    Owns later { host with batches := batches } := by
  intro keysLeft
  have owned := owns keysLeft
  refine { owned with
    live_eq := owned.live_eq.trans ?_
    distinctBatches := distinct owned.distinctBatches }
  rw [Holdings.stored, Holdings.stored, ← add_assoc, ← add_assoc]
  exact congrArg (· + _) (balance owned.distinctBatches).symm

/-- Keys that pass between the hand and the stored connections are owned as before. -/
theorem Owns.passConnections
    {connections : HandleTable Connection}
    {later : Multiset HandleKey}
    (owns : Owns hand host)
    (distinct : host.connections.Distinct → connections.Distinct)
    (balance : host.connections.Distinct →
      later + connections.owned Connection.keys = hand + host.connections.owned Connection.keys) :
    Owns later { host with connections := connections } := by
  intro keysLeft
  have owned := owns keysLeft
  refine { owned with
    live_eq := owned.live_eq.trans ?_
    distinctConnections := distinct owned.distinctConnections }
  rw [Holdings.stored, Holdings.stored, add_left_comm, add_left_comm later]
  exact congrArg (_ + ·) (balance owned.distinctConnections).symm

/-- The script is given a batch, which owns its keys from then on. -/
theorem Owns.holdBatch
    {batch : Batch}
    (owns : Owns (batch.keys + hand) host) :
    Owns hand (host.holdBatch batch).2 := by
  have held : Owns ((host.batches.occupant?.elim [] Batch.keys : List HandleKey) + hand)
      { host with batches := (host.batches.insert batch).1 } := by
    refine owns.passBatches (fun distinct => distinct.insert batch) fun distinct => ?_
    rw [add_right_comm, distinct.owned_insert Batch.keys batch, add_right_comm]
  exact held.releaseEach

/-- Whoever takes a batch from the script has its keys in hand. -/
theorem Owns.removeBatch
    (owns : Owns hand host)
    (handle : ScriptHandle) :
    Owns (((host.batches.get? handle).elim [] Batch.keys : List HandleKey) + hand)
      { host with batches := host.batches.erase handle } := by
  refine owns.passBatches (fun distinct => distinct.erase handle) fun distinct => ?_
  rw [distinct.owned_erase Batch.keys handle, add_right_comm, add_comm]

/-- A process is added to a batch that is stored, which owns its key from then on. -/
theorem Owns.addEntry
    {handle : ScriptHandle}
    {batch : Batch}
    {spec : ProcessSpec}
    {onExit? : Option HandleKey}
    (owns : Owns (onExit?.toList + hand) host)
    (found : host.batches.get? handle = some batch) :
    Owns hand
      { host with
        batches := host.batches.modify handle fun batch =>
          { batch with entries := batch.entries ++ [⟨spec, onExit?⟩] } } := by
  refine owns.passBatches (fun distinct => distinct.modify handle _) fun distinct => ?_
  have ownsMore : (Batch.keys { batch with entries := batch.entries ++ [⟨spec, onExit?⟩] } :
      Multiset HandleKey) = onExit?.toList + batch.keys := by
    have one : [(⟨spec, onExit?⟩ : BatchEntry)].filterMap BatchEntry.onExit? = onExit?.toList := by
      cases onExit? <;> rfl
    rw [Batch.keys, List.filterMap_append, one, ← List.cons_append, ← Multiset.coe_add, add_comm,
      Batch.keys]
  rw [distinct.owned_modify found ownsMore, ← add_assoc, add_comm hand]

/-- Whoever lets go of a connection gives up its keys. -/
theorem Owns.letGo
    {connection : Connection}
    (owns : Owns (connection.keys + hand) host) :
    Owns hand (host.letGo connection) :=
  have owns : Owns (connection.keys + hand)
      { host with network := host.network.dispose connection.transport } := owns
  owns.releaseEach

/-- The script is given a connection, which owns its keys from then on. -/
theorem Owns.holdConnection
    {connection : Connection}
    (owns : Owns (connection.keys + hand) host) :
    Owns hand (host.holdConnection connection).2 := by
  have held : Owns ((host.connections.occupant?.elim [] Connection.keys : List HandleKey) + hand)
      { host with connections := (host.connections.insert connection).1 } := by
    refine owns.passConnections (fun distinct => distinct.insert connection) fun distinct => ?_
    rw [add_right_comm, distinct.owned_insert Connection.keys connection, add_right_comm]
  change Owns hand (host.connections.occupant?.elim _ _)
  cases displaced : host.connections.occupant? with
  | none =>
      rw [displaced] at held
      exact Multiset.zero_add hand ▸ held
  | some other =>
      rw [displaced] at held
      exact Owns.letGo held

/-- Whoever takes a connection from the script has its keys in hand. -/
theorem Owns.removeConnection
    (owns : Owns hand host)
    (handle : ScriptHandle) :
    Owns (((host.connections.get? handle).elim [] Connection.keys : List HandleKey) + hand)
      { host with connections := host.connections.erase handle } := by
  refine owns.passConnections (fun distinct => distinct.erase handle) fun distinct => ?_
  rw [distinct.owned_erase Connection.keys handle, add_right_comm, add_comm]

/-! ## Time -/

theorem Owns.congr
    {later : Host}
    (owns : Owns hand host)
    (same : later.holdings = host.holdings) :
    Owns hand later := by
  rw [Owns, same]
  exact owns

/-- What is done in the background leaves alone what is parked. -/
theorem Host.holdings_perform
    (host : Host)
    (work : Work) :
    (host.perform work).holdings = host.holdings :=
  Host.view_perform (fun _ _ _ _ _ _ _ => rfl) host work

theorem Host.holdings_await?
    {host later : Host}
    (waited : host.await? = some later) :
    later.holdings = host.holdings := by
  unfold Host.await? at waited
  split at waited
  · cases waited
  · cases waited
    exact Host.holdings_perform _ _

theorem Host.holdings_passUntil
    (time fuel : Nat)
    (host : Host) :
    (Host.passUntil time fuel host).holdings = host.holdings := by
  induction fuel generalizing host with
  | zero => rfl
  | succ fuel inductionHypothesis =>
      unfold Host.passUntil
      split
      · rfl
      · exact (inductionHypothesis _).trans (Host.holdings_perform _ _)

/-! ## The count -/

/-- The number of functions that stored batches and connections call: one for each batch, and
those that were named for its processes and for the events of each connection. -/
def Host.awaitingCalls (host : Host) : Nat :=
  host.batches.size
    + (host.batches.entries.map fun entry =>
        (entry.2.entries.filterMap BatchEntry.onExit?).length).sum
    + (host.connections.entries.map fun entry => entry.2.keys.length).sum

theorem card_stored (host : Host) : host.holdings.stored.card = host.awaitingCalls := by
  rw [Holdings.stored, Multiset.card_add, HandleTable.card_owned, HandleTable.card_owned]
  have eachOne : (host.batches.entries.map fun _ => 1).sum = host.batches.size := by
    simp [HandleTable.size]
  simp only [Batch.keys, List.length_cons, List.sum_map_add, Host.awaitingCalls,
    Host.holdings, eachOne]
  rw [Nat.add_comm host.batches.size]

/-- With nothing in hand, what is parked waits to be called. -/
theorem Owns.liveCallables_eq
    (owns : Owns 0 host)
    (keysLeft : host.parkings < UInt64.size) :
    host.liveCallables = host.awaitingCalls := by
  have owned := owns keysLeft
  rw [← card_stored, Host.liveCallables, ← Registry.card_liveKeys]
  exact congrArg Multiset.card (owned.live_eq.trans (Multiset.zero_add _))

/-- Of a host that holds nothing, nobody owns anything. -/
theorem owns_of_start
    (isStart : host.holdings = ⟨.empty, 0, .empty, .empty⟩) :
    Owns 0 host := by
  intro
  rw [isStart]
  exact ⟨rfl, List.nodup_nil, nofun, rfl, HandleTable.distinct_empty,
    HandleTable.distinct_empty⟩

/-- A host that is shut down lets go of everything. -/
theorem Owns.shutdown (owns : Owns hand host) : Owns 0 host.shutdown := by
  intro keysLeft
  have owned := owns keysLeft
  exact ⟨rfl, List.nodup_nil, nofun, owned.nextKey_eq, HandleTable.distinct_clear _,
    HandleTable.distinct_clear _⟩

end ScriptHost
