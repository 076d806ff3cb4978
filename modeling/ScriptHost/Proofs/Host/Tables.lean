import ScriptHost.Proofs.Host.Deeds

/-!
# What stays under its number

Numbers are given in order. So the handle of a batch that was taken from the script stands for
nothing any more, and a key that somebody has in hand stands for the function that was parked
under it, whatever else is done to a host, unless the numbers run out.
-/

namespace ScriptHost

/-! ## Other tables -/

/-- Releasing callables leaves the batches as they are. -/
theorem Host.batches_releaseEach
    (host : Host)
    (keys : List HandleKey) :
    (host.releaseEach keys).batches = host.batches :=
  Host.view_releaseEach (fun _ _ => rfl) host keys

theorem Host.parkings_releaseEach
    (host : Host)
    (keys : List HandleKey) :
    (host.releaseEach keys).parkings = host.parkings :=
  Host.view_releaseEach (fun _ _ => rfl) host keys

/-- A batch that is held is a new entry among the batches. -/
theorem Host.batches_holdBatch
    (host : Host)
    (batch : Batch) :
    (host.holdBatch batch).2.batches = (host.batches.insert batch).1 :=
  Host.batches_releaseEach _ _

theorem Host.parkings_holdBatch
    (host : Host)
    (batch : Batch) :
    (host.holdBatch batch).2.parkings = host.parkings :=
  Host.parkings_releaseEach _ _

theorem Host.batches_holdConnection
    (host : Host)
    (connection : Connection) :
    (host.holdConnection connection).2.batches = host.batches :=
  Host.view_holdConnection (fun _ _ _ _ _ => rfl) host connection

theorem Host.parkings_holdConnection
    (host : Host)
    (connection : Connection) :
    (host.holdConnection connection).2.parkings = host.parkings :=
  Host.view_holdConnection (fun _ _ _ _ _ => rfl) host connection

theorem Host.parkings_perform
    (host : Host)
    (work : Work) :
    (host.perform work).parkings = host.parkings :=
  congrArg Holdings.parkings (host.holdings_perform work)

theorem Host.batches_perform
    (host : Host)
    (work : Work) :
    (host.perform work).batches = host.batches :=
  congrArg Holdings.batches (host.holdings_perform work)

/-- Functions are only ever parked, so that their number grows. -/
theorem Deed.parkings_le
    {hand laterHand : Multiset Possession}
    {host later : Host}
    (deed : Deed hand host laterHand later) :
    host.parkings ≤ later.parkings := by
  cases deed with
  | aside same =>
      exact (congrArg (fun affairs : Affairs => affairs.holdings.parkings) same).ge
  | park function => exact Nat.le_succ _
  | createBatch function =>
      rw [Host.parkings_holdBatch]
      exact Nat.le_succ _
  | holdConnection connection => exact (Host.parkings_holdConnection _ _).ge
  | work isNext =>
      rw [Host.parkings_perform]
  | _ => exact le_rfl

/-- Callables that were parked stay counted. -/
theorem stable_parkings (least : Nat) : Stable fun _ host => least ≤ host.parkings :=
  fun _ _ _ _ deed => deed.parkings_le.trans'

/-! ## Handles of batches -/

/-- The handles of batches were given in order, unless they may have run out. -/
def InSequence (host : Host) : Prop :=
  host.parkings + 1 < UInt32.size →
    host.batches.next.toNat ≤ host.parkings + 1 ∧
      ∀ handle ∈ host.batches.entries.map Prod.fst,
        handle.raw.toNat < host.batches.next.toNat

/-- A handle stands for no batch and will not be given again, unless the handles may have run
out. -/
def Spent
    (handle : ScriptHandle)
    (host : Host) : Prop :=
  host.parkings + 1 < UInt32.size →
    host.batches.next.toNat ≤ host.parkings + 1 ∧
      handle.raw.toNat < host.batches.next.toNat ∧
        handle ∉ host.batches.entries.map Prod.fst

namespace HandleTable

variable {α : Type}

/-- Until the last handle is given out, the next one is the next number. -/
theorem toNat_successor
    {raw : UInt32}
    (notLast : raw.toNat + 1 < UInt32.size) :
    (successor raw).toNat = raw.toNat + 1 := by
  have next : (raw + 1).toNat = raw.toNat + 1 := by
    rw [UInt32.toNat_add]
    exact Nat.mod_eq_of_lt notLast
  have notZero : raw + 1 ≠ 0 := by
    intro isZero
    rw [isZero] at next
    cases next
  rw [successor, if_neg notZero, next]

/-- A handle is in a table because it was there, or because it is the one given out. -/
theorem mem_handles_insert
    {table : HandleTable α}
    {value : α}
    {handle : ScriptHandle}
    (member : handle ∈ (table.insert value).1.entries.map Prod.fst) :
    handle ∈ table.entries.map Prod.fst ∨ handle = ⟨table.next⟩ := by
  rw [entries_insert, List.map_append, List.mem_append] at member
  rcases member with wasThere | isNew
  · exact .inl ((List.filter_sublist.map Prod.fst).subset wasThere)
  · exact .inr (List.mem_singleton.mp isNew)

theorem mem_handles_of_get?
    {table : HandleTable α}
    {handle : ScriptHandle}
    {value : α}
    (stored : table.get? handle = some value) :
    handle ∈ table.entries.map Prod.fst := by
  by_contra isFree
  rw [get?_eq_none_iff.mpr isFree] at stored
  cases stored

/-- A handle that is left was in the table before. -/
theorem mem_handles_of_mem_erase
    {table : HandleTable α}
    {erased handle : ScriptHandle}
    (member : handle ∈ (table.erase erased).entries.map Prod.fst) :
    handle ∈ table.entries.map Prod.fst :=
  (List.filter_sublist.map Prod.fst).subset member

end HandleTable

/-- What holds of the batches and of the number of functions that were parked, of whatever is
done to a host. -/
private theorem stable_of_batches
    (holds : HandleTable Batch → Nat → Prop)
    (parks : ∀ batches parkings, holds batches parkings → holds batches (parkings + 1))
    (creates : ∀ batches parkings batch, holds batches parkings →
      holds (batches.insert batch).1 (parkings + 1))
    (modifies : ∀ batches parkings handle change, holds batches parkings →
      holds (batches.modify handle change) parkings)
    (erases : ∀ batches parkings handle, holds batches parkings →
      holds (batches.erase handle) parkings) :
    Stable fun _ host => holds host.batches host.parkings := by
  intro hand host laterHand later deed isSo
  cases deed with
  | aside same =>
      have sameBatches := congrArg (fun affairs : Affairs => affairs.holdings.batches) same
      have sameParkings := congrArg (fun affairs : Affairs => affairs.holdings.parkings) same
      change later.batches = host.batches at sameBatches
      change later.parkings = host.parkings at sameParkings
      rw [sameBatches, sameParkings]
      exact isSo
  | park function => exact parks _ _ isSo
  | createBatch function =>
      rw [Host.batches_holdBatch, Host.parkings_holdBatch]
      exact creates host.batches host.parkings _ isSo
  | addEntry spec onExit? found =>
      exact modifies host.batches host.parkings _
        (fun batch => { batch with entries := batch.entries ++ [⟨spec, onExit?⟩] }) isSo
  | takeBatch handle => exact erases _ _ handle isSo
  | holdConnection connection =>
      rw [Host.batches_holdConnection, Host.parkings_holdConnection]
      exact isSo
  | work isNext =>
      rw [Host.batches_perform, Host.parkings_perform]
      exact isSo
  | _ => exact isSo

/-- Inserting advances the next handle, as long as the handles last. -/
private theorem toNat_next_insert
    {batches : HandleTable Batch}
    {parkings : Nat}
    (inReach : batches.next.toNat ≤ parkings + 1)
    (handlesLeft : parkings + 1 + 1 < UInt32.size)
    (batch : Batch) :
    (batches.insert batch).1.next.toNat = batches.next.toNat + 1 :=
  HandleTable.toNat_successor (by omega)

/-- Whether handles are given out in sequence depends on the affairs of a host only. -/
theorem stable_inSequence : Stable fun _ => InSequence := by
  refine stable_of_batches
    (fun batches parkings => parkings + 1 < UInt32.size →
      batches.next.toNat ≤ parkings + 1 ∧
        ∀ handle ∈ batches.entries.map Prod.fst, handle.raw.toNat < batches.next.toNat)
    ?_ ?_ ?_ ?_
  · intro batches parkings inSequence handlesLeft
    obtain ⟨inReach, below⟩ := inSequence (Nat.lt_of_succ_lt handlesLeft)
    exact ⟨Nat.le_succ_of_le inReach, below⟩
  · intro batches parkings batch inSequence handlesLeft
    obtain ⟨inReach, below⟩ := inSequence (Nat.lt_of_succ_lt handlesLeft)
    rw [toNat_next_insert inReach handlesLeft]
    refine ⟨Nat.succ_le_succ inReach, fun handle member => Nat.lt_succ_of_le ?_⟩
    rcases HandleTable.mem_handles_insert member with wasThere | rfl
    · exact (below handle wasThere).le
    · exact le_rfl
  · intro batches parkings handle change inSequence handlesLeft
    rw [HandleTable.handles_modify]
    exact inSequence handlesLeft
  · intro batches parkings handle inSequence handlesLeft
    obtain ⟨inReach, below⟩ := inSequence handlesLeft
    exact ⟨inReach, fun other member => below other (HandleTable.mem_handles_of_mem_erase member)⟩

/-- In a host that was reached, handles were given out in sequence. -/
theorem Reached.inSequence
    {hand : Multiset Possession}
    {host : Host}
    (reached : Reached hand host) :
    InSequence host := by
  refine reached.holds stable_inSequence fun host isStart handlesLeft => ?_
  have sameBatches : host.batches = .empty :=
    congrArg (fun affairs : Affairs => affairs.holdings.batches) isStart
  rw [sameBatches]
  exact ⟨Nat.succ_le_succ (Nat.zero_le _), nofun⟩

/-- A spent handle stays so. -/
theorem stable_spent (handle : ScriptHandle) : Stable fun _ => Spent handle := by
  refine stable_of_batches
    (fun batches parkings => parkings + 1 < UInt32.size →
      batches.next.toNat ≤ parkings + 1 ∧ handle.raw.toNat < batches.next.toNat ∧
        handle ∉ batches.entries.map Prod.fst)
    ?_ ?_ ?_ ?_
  · intro batches parkings isSpent handlesLeft
    obtain ⟨inReach, below, isFree⟩ := isSpent (Nat.lt_of_succ_lt handlesLeft)
    exact ⟨Nat.le_succ_of_le inReach, below, isFree⟩
  · intro batches parkings batch isSpent handlesLeft
    obtain ⟨inReach, below, isFree⟩ := isSpent (Nat.lt_of_succ_lt handlesLeft)
    rw [toNat_next_insert inReach handlesLeft]
    refine ⟨Nat.succ_le_succ inReach, Nat.lt_succ_of_lt below, fun member => ?_⟩
    rcases HandleTable.mem_handles_insert member with wasThere | rfl
    · exact isFree wasThere
    · exact Nat.lt_irrefl _ below
  · intro batches parkings other change isSpent handlesLeft
    rw [HandleTable.handles_modify]
    exact isSpent handlesLeft
  · intro batches parkings other isSpent handlesLeft
    obtain ⟨inReach, below, isFree⟩ := isSpent handlesLeft
    exact ⟨inReach, below, fun member => isFree (HandleTable.mem_handles_of_mem_erase member)⟩

/-- The handle of a batch that is taken from the script is spent. -/
theorem spent_of_taken
    {host : Host}
    {handle : ScriptHandle}
    {batch : Batch}
    (inSequence : InSequence host)
    (stored : host.batches.get? handle = some batch) :
    Spent handle { host with batches := host.batches.erase handle } := by
  intro handlesLeft
  obtain ⟨inReach, below⟩ := inSequence handlesLeft
  exact ⟨inReach, below handle (HandleTable.mem_handles_of_get? stored),
    HandleTable.notMem_erase _ _⟩

/-! ## Functions that are parked -/

/-- A callable stays parked when others are released. -/
theorem Host.get?_releaseEach
    {host : Host}
    {keys : List HandleKey}
    {key : HandleKey}
    (areOthers : ∀ released ∈ keys, key ≠ released) :
    (host.releaseEach keys).callables.get? key = host.callables.get? key := by
  induction keys generalizing host with
  | nil => rfl
  | cons first keys inductionHypothesis =>
      obtain ⟨isOther, areOthers⟩ := List.forall_mem_cons.mp areOthers
      have others : ((host.release first).releaseEach keys).callables.get? key =
          (host.release first).callables.get? key := inductionHypothesis areOthers
      exact others.trans ((Registry.get?_release ..).trans (if_neg isOther))

namespace Owned

variable {own hand : Multiset HandleKey} {holdings : Holdings} {key other : HandleKey}

/-- A key that one has in hand is not among those that others have, or that are stored. -/
theorem ne_of_mem
    (owned : Owned (own + hand) holdings)
    (isOwn : key ∈ own)
    (isOthers : other ∈ hand + holdings.stored) :
    key ≠ other := by
  rintro rfl
  have nodup := owned.nodup
  rw [owned.live_eq, add_assoc] at nodup
  exact Multiset.disjoint_left.mp (Multiset.nodup_add.mp nodup).2.2 isOwn isOthers

/-- The keys of a batch that is displaced are not in hand. -/
theorem ne_of_displacedBatch
    (owned : Owned (own + hand) holdings)
    (isOwn : key ∈ own) :
    ∀ released ∈ holdings.batches.occupant?.elim [] Batch.keys, key ≠ released := by
  intro released isKey
  refine owned.ne_of_mem isOwn (Multiset.mem_add.mpr (.inr (Multiset.mem_add.mpr (.inl ?_))))
  rw [owned.distinctBatches.owned_erase Batch.keys ⟨holdings.batches.next⟩]
  exact Multiset.mem_add.mpr (.inl isKey)

/-- The keys of a connection that is displaced are not in hand. -/
theorem ne_of_displacedConnection
    (owned : Owned (own + hand) holdings)
    (isOwn : key ∈ own) :
    ∀ released ∈ holdings.connections.occupant?.elim [] Connection.keys, key ≠ released := by
  intro released isKey
  refine owned.ne_of_mem isOwn (Multiset.mem_add.mpr (.inr (Multiset.mem_add.mpr (.inr ?_))))
  rw [owned.distinctConnections.owned_erase Connection.keys ⟨holdings.connections.next⟩]
  exact Multiset.mem_add.mpr (.inl isKey)

end Owned

/-- What is parked under a key in hand stays there, whatever others do. -/
theorem Deed.get?_eq
    {own hand laterHand : Multiset Possession}
    {host later : Host}
    {key : HandleKey}
    (deed : Deed hand host laterHand later)
    (owns : Owns (keysIn (own + hand)) host)
    (keysLeft : later.parkings < UInt64.size)
    (isOwn : key ∈ keysIn own) :
    later.callables.get? key = host.callables.get? key := by
  have owned := owns (deed.parkings_le.trans_lt keysLeft)
  rw [keysIn_add] at owned
  have isNew (notLast : host.parkings + 1 < UInt64.size) : key ≠ ⟨host.callables.nextKey⟩ := by
    rintro rfl
    refine owned.nextKey_notMem notLast ?_
    rw [owned.live_eq]
    exact Multiset.mem_add.mpr (.inl (Multiset.mem_add.mpr (.inl isOwn)))
  cases deed with
  | aside same =>
      exact congrArg (fun affairs : Affairs => affairs.holdings.callables.get? key) same
  | park function => exact (Registry.get?_register ..).trans (if_neg (isNew keysLeft))
  | release other =>
      refine (Registry.get?_release ..).trans (if_neg (owned.ne_of_mem isOwn ?_))
      rw [keysIn_cons_key]
      exact Multiset.mem_add.mpr (.inl (Multiset.mem_cons_self _ _))
  | createBatch function =>
      rw [Host.parkings_holdBatch] at keysLeft
      exact (Host.get?_releaseEach (owned.ne_of_displacedBatch isOwn)).trans
        ((Registry.get?_register ..).trans (if_neg (isNew keysLeft)))
  | @holdConnection hand host connection =>
      rw [keysIn_add, add_left_comm, ← add_assoc, add_comm (keysIn _), add_assoc] at owned
      have areOthers := owned.ne_of_displacedConnection isOwn
      unfold Host.holdConnection
      change ∀ released ∈ host.connections.occupant?.elim [] Connection.keys, key ≠ released
        at areOthers
      cases displaced : host.connections.occupant? with
      | none => rfl
      | some other =>
          rw [displaced] at areOthers
          exact Host.get?_releaseEach areOthers
  | work isNext =>
      exact congrArg (fun holdings : Holdings => holdings.callables.get? key)
        (Host.holdings_perform _ _)
  | _ => rfl

/-- The keys that somebody has in hand stand for what they stood for, as long as the keys
last. -/
def Guards
    (own : Multiset Possession)
    (function? : HandleKey → Option Function)
    (host : Host) : Prop :=
  host.parkings < UInt64.size → ∀ key ∈ keysIn own, host.callables.get? key = function? key

/-- Whatever others do, keys in hand stand for what they stood for. -/
theorem Deed.guards
    {own hand laterHand : Multiset Possession}
    {host later : Host}
    {function? : HandleKey → Option Function}
    (deed : Deed hand host laterHand later)
    (owns : Owns (keysIn (own + hand)) host)
    (guards : Guards own function? host) :
    Guards own function? later := by
  intro keysLeft key isOwn
  rw [deed.get?_eq owns keysLeft isOwn]
  exact guards (deed.parkings_le.trans_lt keysLeft) key isOwn

end ScriptHost
