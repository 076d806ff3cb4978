import ScriptHost.Proofs.Host.Dealings
import ScriptHost.Proofs.Host.Order
import ScriptHost.Proofs.Host.Tables

/-!
# What hosts record of operations

A host records what befalls operations, and what it stores agrees with the record: its board has
the outcomes, its table has the operations that the script holds, and those that were claimed and
are not handed on yet are in somebody's hand. Whatever functions of the host do, this stays so, as
long as the handles last.
-/

namespace ScriptHost

/-- Work that is done comes to an outcome of its operation, which is recorded. -/
theorem Host.exists_perform
    (host : Host)
    (work : Work) :
    ∃ outcome, (host.perform work).board = host.board.settle work.operation outcome ∧
      (host.perform work).ledger =
        (host.operations, host.dealings ++ [.settled work.operation outcome]) := by
  cases work with
  | delay operation => exact ⟨Delay.outcome, rfl, rfl⟩
  | download operation url path => exact ⟨_, rfl, rfl⟩
  | process operation spec directory cell? =>
      refine ⟨Host.processOutcome (host.runProcess operation spec directory).result, ?_⟩
      unfold Host.perform
      dsimp only
      cases (host.runProcess operation spec directory).result with
      | error error => exact ⟨rfl, rfl⟩
      | ok outcome =>
          dsimp only
          unfold Host.leaveOutput
          cases cell? <;> cases outcome.output? <;> exact ⟨rfl, rfl⟩

/-- A host has recorded lawfully what befell operations, and what it stores agrees with the record:
the operations that the script holds, their outcomes, and those that were claimed and are still in
somebody's hand. -/
structure Recorded
    (hand : Multiset Possession)
    (host : Host) : Prop where
  lawful : host.dealings.Lawful
  outcome?_eq : ∀ operation, host.board.outcome? operation = host.dealings.outcome? operation
  distinct : host.operations.Distinct
  get?_eq : ∀ handle, (host.operations.get? handle).map HeldOperation.operation =
    host.dealings.operationOf? handle
  pending_add : host.pendingOperations + host.dealings.consumed = host.dealings.created
  next_eq : host.operations.next.toNat = host.dealings.created + 1
  below : ∀ entry ∈ host.dealings.held,
    entry.1.raw.toNat < host.operations.next.toNat ∧ host.board.Holds entry.2
  inHand : ∀ handle operation, .operation handle operation ∈ hand →
    (handle, operation) ∈ host.dealings.held
  balance : ∀ handle operation, (handle, operation) ∈ host.dealings.held →
    hand.count (.operation handle operation) + host.dealings.handed.count handle ≤
      host.dealings.claimed.count handle

namespace Recorded

open Dealings

variable {hand laterHand : Multiset Possession} {host later : Host}
variable {handle : ScriptHandle} {held : HeldOperation}

theorem start
    {host : Host}
    (isStart : host.affairs = .start host.machine)
    (noneHeld : host.ledger = (.empty, [])) :
    Recorded 0 host := by
  obtain ⟨noOperations, noDealings⟩ := Prod.mk.inj noneHeld
  have noBoard : host.board = .empty := congrArg Affairs.board isStart
  have noneCreated : host.dealings.held = [] := by
    rw [noDealings]
    rfl
  refine
    { lawful := noDealings ▸ lawful_nil
      outcome?_eq := fun operation => ?_
      distinct := noOperations ▸ HandleTable.distinct_empty
      get?_eq := fun handle => ?_
      pending_add := ?_
      next_eq := ?_
      below := ?_
      inHand := fun _ _ inHand => absurd inHand (Multiset.notMem_zero _)
      balance := ?_ }
  · rw [noBoard, noDealings]
    rfl
  · rw [noOperations, noDealings]
    rfl
  · rw [Host.pendingOperations, noOperations, noDealings]
    rfl
  · rw [noOperations, noDealings]
    rfl
  · rw [noneCreated]
    exact nofun
  · rw [noneCreated]
    exact nofun

/-- No operation is given to the script or claimed. -/
private theorem further
    (recorded : Recorded hand host)
    (lawful : later.dealings.Lawful)
    (outcome?_eq : ∀ operation,
      later.board.outcome? operation = later.dealings.outcome? operation)
    (sameOperations : later.operations = host.operations)
    (sameHeld : later.dealings.held = host.dealings.held)
    (sameClaimed : later.dealings.claimed = host.dealings.claimed)
    (grows : host.board.operations.size ≤ later.board.operations.size)
    (within : ∀ handle operation, .operation handle operation ∈ laterHand →
      .operation handle operation ∈ hand)
    (passes : ∀ handle operation, (handle, operation) ∈ host.dealings.held →
      laterHand.count (.operation handle operation) + later.dealings.handed.count handle ≤
        hand.count (.operation handle operation) + host.dealings.handed.count handle) :
    Recorded laterHand later := by
  refine
    { lawful := lawful
      outcome?_eq := outcome?_eq
      distinct := sameOperations ▸ recorded.distinct
      get?_eq := fun handle => ?_
      pending_add := ?_
      next_eq := ?_
      below := fun entry member => ?_
      inHand := fun handle operation inHand => ?_
      balance := fun handle operation member => ?_ }
  · rw [sameOperations, recorded.get?_eq, operationOf?, operationOf?, sameClaimed, sameHeld]
  · rw [Host.pendingOperations, sameOperations, consumed, sameClaimed, created, sameHeld]
    exact recorded.pending_add
  · rw [sameOperations, created, sameHeld]
    exact recorded.next_eq
  · rw [sameHeld] at member
    rw [sameOperations]
    exact ⟨(recorded.below entry member).1, (recorded.below entry member).2.trans_le grows⟩
  · rw [sameHeld]
    exact recorded.inHand handle operation (within handle operation inHand)
  · rw [sameHeld] at member
    rw [sameClaimed]
    exact (passes handle operation member).trans (recorded.balance handle operation member)

/-- What has no part in the record is done. -/
private theorem rest
    (recorded : Recorded hand host)
    (sameLedger : later.ledger = host.ledger)
    (sameOutcomes : ∀ operation, later.board.outcome? operation = host.board.outcome? operation)
    (grows : host.board.operations.size ≤ later.board.operations.size)
    (fewer : ∀ handle operation, laterHand.count (.operation handle operation) ≤
      hand.count (.operation handle operation)) :
    Recorded laterHand later := by
  obtain ⟨sameOperations, sameDealings⟩ := Prod.mk.inj sameLedger
  refine recorded.further (sameDealings ▸ recorded.lawful) (fun operation => ?_) sameOperations
    (congrArg Dealings.held sameDealings) (congrArg Dealings.claimed sameDealings) grows
    (fun handle operation inHand => ?_) fun handle operation _ => ?_
  · rw [sameOutcomes, sameDealings, recorded.outcome?_eq]
  · exact Multiset.count_pos.mp
      ((Multiset.count_pos.mpr inHand).trans_le (fewer handle operation))
  · rw [sameDealings]
    exact Nat.add_le_add_right (fewer handle operation) _

theorem takeExit (recorded : Recorded hand host) : Recorded hand host.takeExit.2 :=
  recorded.rest rfl (fun _ => rfl) le_rfl fun _ _ => le_rfl

/-- The deeds that leave the books alone have no part in the record. -/
theorem deed
    (recorded : Recorded hand host)
    (deed : Deed hand host laterHand later)
    (same : later.books = host.books) :
    Recorded laterHand later := by
  have sameLedger : later.ledger = host.ledger := congrArg Prod.snd same
  have noOperations (keys : List HandleKey) (handle : ScriptHandle) (operation : OperationId) :
      (keyHand keys).count (.operation handle operation) = 0 := by
    rw [Multiset.count_eq_zero, keyHand, Multiset.mem_coe, List.mem_map]
    rintro ⟨key, -, ⟨⟩⟩
  cases deed with
  | aside sameAffairs =>
      have sameBoard : later.board = host.board := congrArg Affairs.board sameAffairs
      exact recorded.rest sameLedger (fun _ => by rw [sameBoard]) (by rw [sameBoard])
        fun _ _ => le_rfl
  | createBatch function =>
      have sameBoard := congrArg Scene.board (Host.scene_holdBatch (host.park function).2
        ⟨(host.park function).1, []⟩)
      exact recorded.rest sameLedger (fun _ => congrArg (Board.outcome? · _) sameBoard)
        (congrArg (Board.operations · |>.size) sameBoard).ge fun _ _ => le_rfl
  | holdConnection connection =>
      have sameBoard := congrArg Scene.board (Host.scene_holdConnection host connection)
      exact recorded.rest sameLedger (fun _ => congrArg (Board.outcome? · _) sameBoard)
        (congrArg (Board.operations · |>.size) sameBoard).ge fun handle operation => by simp
  | takeBatch handle | takeConnection handle =>
      exact recorded.rest sameLedger (fun _ => rfl) le_rfl fun handle operation => by
        simp [noOperations]
  | begin time work settles inHand =>
      exact recorded.rest sameLedger (Board.outcome?_create _)
        ((Nat.le_succ _).trans_eq (Board.size_create _).symm) fun _ _ => le_rfl
  | @work _ _ work _ isNext =>
      obtain ⟨outcome, -, ledger⟩ := Host.exists_perform _ _
      have sameDealings : host.dealings ++ [.settled work.operation outcome] = host.dealings :=
        congrArg Prod.snd (ledger.symm.trans sameLedger)
      simp at sameDealings
  | takeOperation handle operation =>
      have sameDealings : host.dealings ++ [.claimed handle] = host.dealings :=
        congrArg Prod.snd sameLedger
      simp at sameDealings
  | listen operation listener inHand =>
      exact recorded.rest sameLedger (Board.outcome?_listen _ _ _) (Board.size_listen ..).ge
        fun _ _ => le_rfl
  | addEntry | tells | advance | setSignals =>
      exact recorded.rest sameLedger (fun _ => rfl) le_rfl fun handle operation => by simp
  | _ =>
      exact recorded.rest sameLedger (fun _ => rfl) le_rfl fun handle operation => by
        simp [Multiset.count_cons]

/-- The script is shown an operation, or misses one. -/
private theorem look
    {dealing : Dealing}
    (recorded : Recorded hand host)
    (admits : host.dealings.Admits dealing)
    (notHeld : dealing.held? = none)
    (notClaimed : dealing.claimed? = none)
    (notHanded : dealing.handed? = none)
    (notSettled : ∀ operation, dealing.outcomeOf? operation = none) :
    Recorded hand (host.deal dealing) :=
  recorded.further (recorded.lawful.concat admits)
    (fun operation => (recorded.outcome?_eq operation).trans
      (outcome?_concat_none (notSettled operation)).symm)
    rfl (held_concat_none notHeld) (claimed_concat_none notClaimed) le_rfl (fun _ _ => id)
    fun _ _ _ => (congrArg (_ + List.count _ ·) (handed_concat_none notHanded)).le

theorem shows
    {status : OperationStatus}
    (recorded : Recorded hand host)
    (found : host.operations.get? handle = some held)
    (isStatus : host.board.status? held.operation = some status) :
    Recorded hand (host.deal (.shown handle status)) := by
  have isHeld : host.dealings.operationOf? handle = some held.operation := by
    rw [← recorded.get?_eq, found]
    rfl
  have isThere := (recorded.below _ (mem_held_of_operationOf? isHeld)).2
  rw [Board.status?_of_holds isThere, recorded.outcome?_eq] at isStatus
  exact recorded.look ⟨_, isHeld, (Option.some.inj isStatus).symm⟩ rfl rfl rfl fun _ => rfl

theorem misses
    (recorded : Recorded hand host)
    (absent : (host.operations.get? handle).bind
      (fun held => host.board.status? held.operation) = none) :
    Recorded hand (host.deal (.missed handle)) := by
  refine recorded.look ?_ rfl rfl rfl fun _ => rfl
  change host.dealings.operationOf? handle = none
  rw [← recorded.get?_eq, Option.map_eq_none_iff]
  cases found : host.operations.get? handle with
  | none => rfl
  | some held =>
      have isHeld : host.dealings.operationOf? handle = some held.operation := by
        rw [← recorded.get?_eq, found]
        rfl
      rw [found, Option.bind_some,
        Board.status?_of_holds (recorded.below _ (mem_held_of_operationOf? isHeld)).2] at absent
      cases absent

/-- Work is done for an operation that is there. -/
theorem perform
    {work : Work}
    (recorded : Recorded hand host)
    (isThere : host.board.Holds work.operation) :
    Recorded hand (host.perform work) := by
  obtain ⟨outcome, board, ledger⟩ := Host.exists_perform host work
  obtain ⟨sameOperations, dealings⟩ := Prod.mk.inj ledger
  refine recorded.further (dealings ▸ recorded.lawful.concat trivial) (fun operation => ?_)
    sameOperations ?_ ?_ ?_ (fun _ _ => id) fun handle operation _ => ?_
  · rw [board, dealings, outcome?_concat, Board.outcome?_settle_of_holds isThere,
      recorded.outcome?_eq]
    rfl
  · rw [dealings, held_concat_none rfl]
  · rw [dealings, claimed_concat_none rfl]
  · rw [board, Board.size_settle]
  · rw [dealings, handed_concat_none rfl]

/-- What is handed to a recipient is in hand no more. -/
theorem hands
    {operation : OperationId}
    {outcome : Outcome}
    (recorded : Recorded (.operation handle operation ::ₘ hand) host)
    (recipient : Recipient)
    (type : ResultType)
    (isThere : host.board.outcome? operation = some outcome) :
    Recorded hand (host.deal (.handed handle recipient (Scheduler.deliveryOf type outcome))) := by
  have isHeld := recorded.inHand handle operation (Multiset.mem_cons_self _ _)
  have balance := recorded.balance handle operation isHeld
  have once := List.nodup_iff_count_le_one.mp recorded.lawful.nodup_claimed handle
  rw [Multiset.count_cons_self] at balance
  -- It is claimed once only, and that claim is in hand: so nobody was handed anything before.
  have isClaimed : handle ∈ host.dealings.claimed := List.count_pos_iff.mp (by omega)
  have notHanded : handle ∉ host.dealings.handed := List.count_eq_zero.mp (by omega)
  rw [recorded.outcome?_eq] at isThere
  refine recorded.further
    (recorded.lawful.concat ⟨isClaimed, notHanded, operation, type, outcome, isHeld, isThere, rfl⟩)
    (fun other => (recorded.outcome?_eq other).trans (outcome?_concat_none rfl).symm)
    rfl (held_concat_none rfl) (claimed_concat_none rfl) le_rfl
    (fun _ _ => Multiset.mem_cons_of_mem) fun other otherOperation otherHeld => ?_
  rw [Host.deal, handed_concat, Dealing.handed?, Option.toList_some, List.count_append]
  by_cases same : handle = other
  · subst same
    obtain rfl := recorded.lawful.operation_unique isHeld otherHeld
    rw [Multiset.count_cons_self, List.count_singleton_self]
    omega
  · rw [List.count_singleton, Multiset.count_cons]
    simp [same]

/-- What is claimed is in hand, and the script holds it no more. -/
theorem claims
    (recorded : Recorded hand host)
    (taken : host.takeOperation handle = some (held, later)) :
    Recorded (.operation handle held.operation ::ₘ hand) later := by
  obtain ⟨found, isLater⟩ := Host.takeOperation_eq_some taken
  have isHeld : host.dealings.operationOf? handle = some held.operation := by
    rw [← recorded.get?_eq, found]
    rfl
  have wasHeld := mem_held_of_operationOf? isHeld
  have sameBoard : later.board = host.board := by rw [isLater, Host.deal]
  have operations : later.operations = host.operations.erase handle := by rw [isLater, Host.deal]
  have dealings : later.dealings = host.dealings ++ [.claimed handle] := by rw [isLater, Host.deal]
  have sameHeld : later.dealings.held = host.dealings.held := by
    rw [dealings, held_concat_none rfl]
  have nowClaimed : later.dealings.claimed = host.dealings.claimed ++ [handle] := by
    rw [dealings, claimed_concat]
    rfl
  refine
    { lawful := dealings ▸ recorded.lawful.concat (Option.isSome_of_eq_some isHeld)
      outcome?_eq := fun operation => ?_
      distinct := operations ▸ recorded.distinct.erase handle
      get?_eq := fun other => ?_
      pending_add := ?_
      next_eq := ?_
      below := ?_
      inHand := fun other operation inHand => ?_
      balance := fun other operation member => ?_ }
  · rw [sameBoard, dealings, outcome?_concat_none rfl, recorded.outcome?_eq]
  · rw [operations, dealings, operationOf?_concat_claimed]
    split
    next same =>
      rw [HandleTable.get?_erase, if_pos same]
      rfl
    next isOther => rw [HandleTable.get?_erase, if_neg isOther, recorded.get?_eq]
  · have oneLess := recorded.distinct.size_erase found
    have pending_add := recorded.pending_add
    rw [Host.pendingOperations, consumed, created] at pending_add
    rw [Host.pendingOperations, consumed, created, operations, nowClaimed, sameHeld,
      List.length_append, List.length_singleton]
    omega
  · rw [operations, created, sameHeld]
    exact recorded.next_eq
  · rw [sameHeld, operations, sameBoard]
    exact recorded.below
  · rw [sameHeld]
    rcases Multiset.mem_cons.mp inHand with isNew | wasInHand
    · cases isNew
      exact wasHeld
    · exact recorded.inHand other operation wasInHand
  · rw [sameHeld] at member
    have balance := recorded.balance other operation member
    rw [nowClaimed, dealings, handed_concat_none rfl, List.count_append]
    by_cases same : other = handle
    · subst same
      obtain rfl := recorded.lawful.operation_unique wasHeld member
      rw [Multiset.count_cons_self, List.count_singleton_self]
      omega
    · rw [Multiset.count_cons_of_ne (by simp [same])]
      omega

/-- The next handle was never given. -/
theorem next_notMem (recorded : Recorded hand host) :
    ⟨host.operations.next⟩ ∉ host.dealings.held.map Prod.fst := by
  intro wasHeld
  obtain ⟨entry, member, sameHandle⟩ := List.mem_map.mp wasHeld
  have below := (recorded.below entry member).1
  rw [sameHandle] at below
  exact Nat.lt_irrefl _ below

theorem next_notMem_claimed (recorded : Recorded hand host) :
    ⟨host.operations.next⟩ ∉ host.dealings.claimed :=
  fun isClaimed => recorded.next_notMem (recorded.lawful.claimed_subset isClaimed)

/-- The next handle is in nobody's hand. -/
theorem next_notMem_hand
    (recorded : Recorded hand host)
    (operation : OperationId) :
    .operation ⟨host.operations.next⟩ operation ∉ hand := fun inHand =>
  recorded.next_notMem (List.mem_map_of_mem (recorded.inHand _ _ inHand))

/-- Nothing stands under the next handle. -/
theorem occupant?_eq_none (recorded : Recorded hand host) :
    host.operations.occupant? = none := by
  have isFree := recorded.get?_eq ⟨host.operations.next⟩
  rw [operationOf?_eq_none recorded.next_notMem, Option.map_eq_none_iff] at isFree
  exact isFree

/-- The script is given an operation that is new to it, and a handle that is new, too. -/
theorem gives
    {operation : OperationId}
    (recorded : Recorded hand host)
    (natural : ResultType)
    (isThere : host.board.Holds operation)
    (isNew : operation ∉ host.dealings.held.map Prod.snd)
    (handlesLeft : host.dealings.created + 2 < UInt32.size) :
    Recorded hand (host.holdOperation operation natural).2 := by
  have isFree := recorded.next_notMem
  have notClaimed := recorded.next_notMem_claimed
  generalize isLater : (host.holdOperation operation natural).2 = later
  have sameBoard : later.board = host.board := by rw [← isLater]; rfl
  have operations : later.operations = (host.operations.insert ⟨operation, natural⟩).1 := by
    rw [← isLater]
    rfl
  have dealings : later.dealings =
      host.dealings ++ [.held ⟨host.operations.next⟩ operation] := by
    rw [← isLater]
    rfl
  have nowHeld : later.dealings.held =
      host.dealings.held ++ [(⟨host.operations.next⟩, operation)] := by
    rw [dealings, held_concat]
    rfl
  have sameClaimed : later.dealings.claimed = host.dealings.claimed := by
    rw [dealings, claimed_concat_none rfl]
  have next : later.operations.next.toNat = host.operations.next.toNat + 1 := by
    rw [operations]
    refine HandleTable.toNat_successor ?_
    rw [recorded.next_eq]
    exact handlesLeft
  refine
    { lawful := dealings ▸ recorded.lawful.concat ⟨isFree, isNew⟩
      outcome?_eq := fun operation => ?_
      distinct := operations ▸ recorded.distinct.insert _
      get?_eq := fun handle => ?_
      pending_add := ?_
      next_eq := ?_
      below := fun entry member => ?_
      inHand := fun handle other inHand => ?_
      balance := fun handle other member => ?_ }
  · rw [sameBoard, dealings, outcome?_concat_none rfl, recorded.outcome?_eq]
  · rw [operations, HandleTable.get?_insert, dealings, operationOf?_concat_held isFree notClaimed]
    split
    · rfl
    · exact recorded.get?_eq handle
  · have pending_add := recorded.pending_add
    rw [Host.pendingOperations, consumed, created] at pending_add
    rw [Host.pendingOperations, operations,
      recorded.distinct.size_insert recorded.occupant?_eq_none, consumed, sameClaimed, created,
      nowHeld, List.length_append, List.length_singleton]
    omega
  · rw [next, recorded.next_eq, created, created, nowHeld, List.length_append,
      List.length_singleton]
  · rw [next, sameBoard]
    rw [nowHeld] at member
    rcases List.mem_append.mp member with wasHeld | isLast
    · exact ⟨Nat.lt_succ_of_lt (recorded.below entry wasHeld).1, (recorded.below entry wasHeld).2⟩
    · obtain rfl := List.mem_singleton.mp isLast
      exact ⟨Nat.lt_succ_self _, isThere⟩
  · rw [nowHeld]
    exact List.mem_append_left _ (recorded.inHand handle other inHand)
  · rw [sameClaimed, dealings, handed_concat_none rfl]
    rw [nowHeld] at member
    rcases List.mem_append.mp member with wasHeld | isLast
    · exact recorded.balance handle other wasHeld
    · cases List.mem_singleton.mp isLast
      have notHanded : ⟨host.operations.next⟩ ∉ host.dealings.handed :=
        fun isHanded => notClaimed (recorded.lawful.handed_subset isHanded)
      rw [Multiset.count_eq_zero_of_notMem (recorded.next_notMem_hand operation),
        List.count_eq_zero_of_not_mem notHanded]
      exact Nat.zero_le _

/-- An operation that is begun is new to the script. -/
theorem creates
    {work : OperationId → Work}
    (recorded : Recorded hand host)
    (time : Nat)
    (natural : ResultType)
    (handlesLeft : host.dealings.created + 2 < UInt32.size) :
    Recorded hand
      ((host.begin time work).2.holdOperation (host.begin time work).1 natural).2 := by
  have begun : Recorded hand (host.begin time work).2 :=
    recorded.rest rfl (Board.outcome?_create _)
      ((Nat.le_succ _).trans_eq (Board.size_create _).symm) fun _ _ => le_rfl
  refine begun.gives natural ?_ (fun wasHeld => ?_) handlesLeft
  · exact (Nat.lt_succ_self _).trans_eq (Board.size_create host.board).symm
  · obtain ⟨entry, member, sameOperation⟩ := List.mem_map.mp wasHeld
    have isThere := (recorded.below entry member).2
    rw [sameOperation] at isThere
    exact Nat.lt_irrefl _ isThere

end Recorded

/-- What befell operations is never forgotten. -/
theorem Doing.dealings_prefix
    {hand laterHand : Multiset Possession}
    {host later : Host}
    (doing : Doing hand host laterHand later) :
    host.dealings <+: later.dealings := by
  cases doing with
  | deed _ same =>
      have sameDealings : later.dealings = host.dealings := congrArg (fun books => books.2.2) same
      rw [sameDealings]
  | @works _ _ work agenda _ =>
      obtain ⟨outcome, -, ledger⟩ := Host.exists_perform { host with agenda := agenda } work
      exact ⟨_, (Prod.mk.inj ledger).2.symm⟩
  | asks | recalls => exact List.prefix_rfl
  | claims taken =>
      obtain ⟨-, rfl⟩ := Host.takeOperation_eq_some taken
      exact List.prefix_append _ _
  | creates | shows | misses | hands => exact List.prefix_append _ _

end ScriptHost
