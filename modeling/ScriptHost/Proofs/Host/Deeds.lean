import ScriptHost.Proofs.Host
import Mathlib.Data.Multiset.Bind

/-!
# What is done to a host

Functions of the host change it by deeds: they park and release functions, make batches and
connections and take them apart, begin work and let time pass, pump the events of connections,
and look after the mailboxes and the places for output of their runs. What a function may do
depends on what it has in hand: a key that it releases, a mailbox that it reads, a place from
which it takes output, a pump that it runs, and an operation whose outcome it hands on are its
own. So whoever has something in hand meanwhile need not fear for it. To the script's requests to
end, functions of the host only add: they note that it asks, and that it is told. To operations
they do little more: they give those that they begin to the script, show their status, and claim
them for a recipient, who is handed the outcome that is there.
-/

namespace ScriptHost

/-- Something that a function of the host has in hand. -/
inductive Possession
  | key (key : HandleKey)
  | mailbox (mailbox : MailboxId)
  | cell (cell : OutputCell)
  | pump (handle : ScriptHandle)
  | operation (handle : ScriptHandle) (operation : OperationId)
deriving DecidableEq

/-- The key that a possession is. -/
def Possession.keys : Possession → Multiset HandleKey
  | .key handleKey => {handleKey}
  | .mailbox _ => 0
  | .cell _ => 0
  | .pump _ => 0
  | .operation _ _ => 0

/-- Keys in hand. -/
def keyHand (keys : List HandleKey) : Multiset Possession :=
  (keys.map .key : List Possession)

@[simp] theorem keyHand_nil : keyHand [] = 0 := rfl

@[simp] theorem keyHand_cons
    (key : HandleKey)
    (keys : List HandleKey) :
    keyHand (key :: keys) = .key key ::ₘ keyHand keys := rfl

theorem keyHand_append (first second : List HandleKey) :
    keyHand (first ++ second) = keyHand first + keyHand second := by
  rw [keyHand, List.map_append, ← Multiset.coe_add]
  rfl

/-- The keys that are in hand. -/
def keysIn (hand : Multiset Possession) : Multiset HandleKey :=
  hand.bind Possession.keys

@[simp] theorem keysIn_zero : keysIn 0 = 0 := rfl

@[simp] theorem keysIn_add (hand others : Multiset Possession) :
    keysIn (hand + others) = keysIn hand + keysIn others :=
  Multiset.add_bind ..

@[simp] theorem keysIn_cons_key
    (key : HandleKey)
    (hand : Multiset Possession) :
    keysIn (.key key ::ₘ hand) = key ::ₘ keysIn hand := by
  rw [keysIn, Multiset.cons_bind, Possession.keys, Multiset.singleton_add, keysIn]

@[simp] theorem keysIn_cons_mailbox
    (mailbox : MailboxId)
    (hand : Multiset Possession) :
    keysIn (.mailbox mailbox ::ₘ hand) = keysIn hand := by
  rw [keysIn, Multiset.cons_bind, Possession.keys, Multiset.zero_add, keysIn]

@[simp] theorem keysIn_cons_cell
    (cell : OutputCell)
    (hand : Multiset Possession) :
    keysIn (.cell cell ::ₘ hand) = keysIn hand := by
  rw [keysIn, Multiset.cons_bind, Possession.keys, Multiset.zero_add, keysIn]

@[simp] theorem keysIn_keyHand (keys : List HandleKey) : keysIn (keyHand keys) = keys := by
  induction keys with
  | nil => rfl
  | cons key keys inductionHypothesis =>
      rw [keyHand_cons, keysIn_cons_key, inductionHypothesis, Multiset.cons_coe]

@[simp] theorem keysIn_cons_pump
    (handle : ScriptHandle)
    (hand : Multiset Possession) :
    keysIn (.pump handle ::ₘ hand) = keysIn hand := by
  rw [keysIn, Multiset.cons_bind, Possession.keys, Multiset.zero_add, keysIn]

@[simp] theorem keysIn_cons_operation
    (handle : ScriptHandle)
    (operation : OperationId)
    (hand : Multiset Possession) :
    keysIn (.operation handle operation ::ₘ hand) = keysIn hand := by
  rw [keysIn, Multiset.cons_bind, Possession.keys, Multiset.zero_add, keysIn]

/-- The place in which work leaves output. -/
def Work.cell? : Work → Option OutputCell
  | .process _ _ _ cell? => cell?
  | _ => none

/-- What of a host its functions depend on each other for: the machine, what is parked and for
whom, what goes on in the background, what came of it, and what befell the connections. -/
structure Affairs where
  machine : ChildProcess.Machine
  holdings : Holdings
  board : Board
  agenda : Agenda Work
  ended : List EndedProcess
  outputs : Array (Option String)
  occasions : Occasions

/-- The affairs of a host. -/
def Host.affairs (host : Host) : Affairs :=
  ⟨host.machine, host.holdings, host.board, host.agenda, host.ended, host.outputs,
    host.occasions⟩

/-- Something that is done to a host, with what is in hand before and after it. -/
inductive Deed : Multiset Possession → Host → Multiset Possession → Host → Prop
  | aside {hand : Multiset Possession} {host later : Host}
      (same : later.affairs = host.affairs) :
      Deed hand host hand later
  | park {hand : Multiset Possession} {host : Host}
      (function : Function) :
      Deed hand host (.key (host.park function).1 ::ₘ hand) (host.park function).2
  | release {hand : Multiset Possession} {host : Host}
      (key : HandleKey) :
      Deed (.key key ::ₘ hand) host hand (host.release key)
  | createBatch {hand : Multiset Possession} {host : Host}
      (function : Function) :
      Deed hand host hand ((host.park function).2.holdBatch ⟨(host.park function).1, []⟩).2
  | addEntry {hand : Multiset Possession} {host : Host} {handle : ScriptHandle} {batch : Batch}
      (spec : ProcessSpec)
      (onExit? : Option HandleKey)
      (found : host.batches.get? handle = some batch) :
      Deed (keyHand onExit?.toList + hand) host hand
        { host with
          batches := host.batches.modify handle fun batch =>
            { batch with entries := batch.entries ++ [⟨spec, onExit?⟩] } }
  | takeBatch {hand : Multiset Possession} {host : Host}
      (handle : ScriptHandle) :
      Deed hand host (keyHand ((host.batches.get? handle).elim [] Batch.keys) + hand)
        { host with batches := host.batches.erase handle }
  | holdConnection {hand : Multiset Possession} {host : Host}
      (connection : Connection) :
      Deed (keyHand connection.keys + hand) host hand (host.holdConnection connection).2
  | takeConnection {hand : Multiset Possession} {host : Host}
      (handle : ScriptHandle) :
      Deed hand host (keyHand ((host.connections.get? handle).elim [] Connection.keys) + hand)
        ({ host with connections := host.connections.erase handle }.note handle .disposed)
  | pumps {hand : Multiset Possession} {host : Host} {handle : ScriptHandle}
      {connection : Connection}
      (found : host.connections.get? handle = some connection) :
      Deed hand host (.pump handle ::ₘ hand) (host.note handle .pumps)
  | tells {hand : Multiset Possession} {host : Host} {handle : ScriptHandle}
      (function : Function)
      (inHand : .pump handle ∈ hand) :
      Deed hand host hand (host.note handle (.tells function))
  | pumped {hand : Multiset Possession} {host : Host}
      (handle : ScriptHandle) :
      Deed (.pump handle ::ₘ hand) host hand (host.note handle .pumped)
  | begin {hand : Multiset Possession} {host : Host}
      (time : Nat)
      (work : OperationId → Work)
      (settles : ∀ operation, (work operation).operation = operation)
      (inHand : ∀ operation cell, (work operation).cell? = some cell → .cell cell ∈ hand) :
      Deed hand host hand (host.begin time work).2
  | work {hand : Multiset Possession} {host : Host} {work : Work} {agenda : Agenda Work}
      (isNext : host.agenda.next? = some (work, agenda)) :
      Deed hand host hand ({ host with agenda := agenda }.perform work)
  | advance {hand : Multiset Possession} {host : Host}
      (time : Nat) :
      Deed hand host hand { host with agenda := host.agenda.advanceTo time }
  | makeCell {hand : Multiset Possession} {host : Host} :
      Deed hand host (.cell host.makeCell.1 ::ₘ hand) host.makeCell.2
  | takeOutput {hand : Multiset Possession} {host : Host}
      (cell : OutputCell) :
      Deed (.cell cell ::ₘ hand) host hand (host.takeOutput cell).2
  | leaveCell {hand : Multiset Possession} {host : Host}
      (cell : OutputCell) :
      Deed (.cell cell ::ₘ hand) host hand host
  | openMailbox {hand : Multiset Possession} {host : Host} :
      Deed hand host (.mailbox host.board.mailboxes.size ::ₘ hand)
        { host with board := host.board.openMailbox.1 }
  | listen {hand : Multiset Possession} {host : Host}
      (operation : OperationId)
      (listener : Listener)
      (inHand : .mailbox listener.mailbox ∈ hand) :
      Deed hand host hand { host with board := host.board.listen operation listener }
  | setSignals {hand : Multiset Possession} {host : Host}
      (mailbox : MailboxId)
      (signals : List Nat)
      (inHand : .mailbox mailbox ∈ hand) :
      Deed hand host hand { host with board := host.board.setSignals mailbox signals }
  | leaveMailbox {hand : Multiset Possession} {host : Host}
      (mailbox : MailboxId) :
      Deed (.mailbox mailbox ::ₘ hand) host hand host
  | takeOperation {hand : Multiset Possession} {host : Host}
      (handle : ScriptHandle)
      (operation : OperationId) :
      Deed hand host (.operation handle operation ::ₘ hand) (host.deal (.claimed handle))
  | leaveOperation {hand : Multiset Possession} {host : Host}
      (handle : ScriptHandle)
      (operation : OperationId) :
      Deed (.operation handle operation ::ₘ hand) host hand host

/-- What others have in hand meanwhile makes no difference to a deed. -/
theorem Deed.frame
    {hand laterHand : Multiset Possession}
    {host later : Host}
    (deed : Deed hand host laterHand later)
    (others : Multiset Possession) :
    Deed (others + hand) host (others + laterHand) later := by
  cases deed with
  | aside same => exact .aside same
  | park function =>
      rw [Multiset.add_cons]
      exact .park function
  | release key =>
      rw [Multiset.add_cons]
      exact .release key
  | createBatch function => exact .createBatch function
  | addEntry spec onExit? found =>
      rw [add_left_comm]
      exact .addEntry spec onExit? found
  | takeBatch handle =>
      rw [add_left_comm]
      exact .takeBatch handle
  | holdConnection connection =>
      rw [add_left_comm]
      exact .holdConnection connection
  | takeConnection handle =>
      rw [add_left_comm]
      exact .takeConnection handle
  | pumps found =>
      rw [Multiset.add_cons]
      exact .pumps found
  | tells function inHand => exact .tells function (Multiset.mem_add.mpr (.inr inHand))
  | pumped handle =>
      rw [Multiset.add_cons]
      exact .pumped handle
  | begin time work settles inHand =>
      exact .begin time work settles fun operation cell leaves =>
        Multiset.mem_add.mpr (.inr (inHand operation cell leaves))
  | work isNext => exact .work isNext
  | advance time => exact .advance time
  | makeCell =>
      rw [Multiset.add_cons]
      exact .makeCell
  | takeOutput cell =>
      rw [Multiset.add_cons]
      exact .takeOutput cell
  | leaveCell cell =>
      rw [Multiset.add_cons]
      exact .leaveCell cell
  | openMailbox =>
      rw [Multiset.add_cons]
      exact .openMailbox
  | listen operation listener inHand =>
      exact .listen operation listener (Multiset.mem_add.mpr (.inr inHand))
  | setSignals mailbox signals inHand =>
      exact .setSignals mailbox signals (Multiset.mem_add.mpr (.inr inHand))
  | leaveMailbox mailbox =>
      rw [Multiset.add_cons]
      exact .leaveMailbox mailbox
  | takeOperation handle operation =>
      rw [Multiset.add_cons]
      exact .takeOperation handle operation
  | leaveOperation handle operation =>
      rw [Multiset.add_cons]
      exact .leaveOperation handle operation

/-- No deed puts an end to it, given what is in hand. -/
def Stable (Holds : Multiset Possession → Host → Prop) : Prop :=
  ∀ ⦃hand host laterHand later⦄, Deed hand host laterHand later → Holds hand host →
    Holds laterHand later

namespace Stable

variable {Holds : Multiset Possession → Host → Prop}
variable {hand others : Multiset Possession} {host later : Host}

/-- What is stable is so whatever others have in hand meanwhile. -/
theorem frame
    (stable : Stable Holds)
    (others : Multiset Possession) :
    Stable fun hand => Holds (others + hand) :=
  fun _ _ _ _ deed => stable (deed.frame others)

/-- Something that does not touch the affairs of a host keeps what is stable. -/
theorem aside
    (stable : Stable Holds)
    (holds : Holds hand host)
    (same : later.affairs = host.affairs) :
    Holds hand later :=
  stable (.aside same) holds

/-- Two things that are stable are stable together. -/
theorem and
    {Other : Multiset Possession → Host → Prop}
    (stable : Stable Holds)
    (otherStable : Stable Other) :
    Stable fun hand host => Holds hand host ∧ Other hand host :=
  fun _ _ _ _ deed both => ⟨stable deed both.1, otherStable deed both.2⟩

end Stable

/-! ## Requests to end, and operations -/

/-- What a host keeps of requests to end: the code that no program has taken yet, and what befell
them. -/
def Host.exitState (host : Host) : Option Int32 × Exits :=
  (host.exitRequest?, host.exits)

/-- What a host keeps of operations: those that the script holds, and what befell them. -/
def Host.ledger (host : Host) : HandleTable HeldOperation × Dealings :=
  (host.operations, host.dealings)

/-- The books of a host: what it keeps of requests to end and of operations. -/
def Host.books (host : Host) : (Option Int32 × Exits) × (HandleTable HeldOperation × Dealings) :=
  (host.exitState, host.ledger)

/-- Something that a function of the host does: a deed that leaves the books alone, work that is
done in the background, or one of the things that befall requests to end and operations while a
script runs. -/
inductive Doing : Multiset Possession → Host → Multiset Possession → Host → Prop
  | deed {hand laterHand : Multiset Possession} {host later : Host}
      (deed : Deed hand host laterHand later)
      (same : later.books = host.books) :
      Doing hand host laterHand later
  | works {hand : Multiset Possession} {host : Host} {work : Work} {agenda : Agenda Work}
      (isNext : host.agenda.next? = some (work, agenda)) :
      Doing hand host hand ({ host with agenda := agenda }.perform work)
  | asks {hand : Multiset Possession} {host : Host}
      (code : Int32) :
      Doing hand host hand (host.askExit code)
  | recalls {hand : Multiset Possession} {host : Host} {code : Int32}
      (wanted : host.exitRequest? = some code) :
      Doing hand host hand (host.recallExit code)
  | creates {hand : Multiset Possession} {host : Host}
      (time : Nat)
      (work : OperationId → Work)
      (natural : ResultType)
      (settles : ∀ operation, (work operation).operation = operation)
      (inHand : ∀ operation cell, (work operation).cell? = some cell → .cell cell ∈ hand) :
      Doing hand host hand
        ((host.begin time work).2.holdOperation (host.begin time work).1 natural).2
  | shows {hand : Multiset Possession} {host : Host} {handle : ScriptHandle}
      {held : HeldOperation} {status : OperationStatus}
      (found : host.operations.get? handle = some held)
      (isStatus : host.board.status? held.operation = some status) :
      Doing hand host hand (host.deal (.shown handle status))
  | misses {hand : Multiset Possession} {host : Host} {handle : ScriptHandle}
      (absent : (host.operations.get? handle).bind
        (fun held => host.board.status? held.operation) = none) :
      Doing hand host hand (host.deal (.missed handle))
  | claims {hand : Multiset Possession} {host later : Host} {handle : ScriptHandle}
      {held : HeldOperation}
      (taken : host.takeOperation handle = some (held, later)) :
      Doing hand host (.operation handle held.operation ::ₘ hand) later
  | hands {hand : Multiset Possession} {host : Host} {operation : OperationId}
      {outcome : Outcome}
      (handle : ScriptHandle)
      (recipient : Recipient)
      (type : ResultType)
      (isThere : host.board.outcome? operation = some outcome) :
      Doing (.operation handle operation ::ₘ hand) host hand
        (host.deal (.handed handle recipient (Scheduler.deliveryOf type outcome)))

/-- Nothing that a function of the host does puts an end to it, given what is in hand. -/
def Lasting (Holds : Multiset Possession → Host → Prop) : Prop :=
  ∀ ⦃hand host laterHand later⦄, Doing hand host laterHand later → Holds hand host →
    Holds laterHand later

/-- An operation that is taken from its handle leaves the table. -/
theorem Host.takeOperation_eq_some
    {host later : Host}
    {handle : ScriptHandle}
    {held : HeldOperation}
    (taken : host.takeOperation handle = some (held, later)) :
    host.operations.get? handle = some held ∧
      later = { host with operations := host.operations.erase handle }.deal (.claimed handle) := by
  unfold Host.takeOperation at taken
  split at taken
  next isRemoved =>
    cases taken
    obtain ⟨found, rfl⟩ := Prod.mk.inj isRemoved
    exact ⟨found, rfl⟩
  next => cases taken

/-- A handle from which nothing can be taken has no operation. -/
theorem Host.get?_of_takeOperation_eq_none
    {host : Host}
    {handle : ScriptHandle}
    (absent : host.takeOperation handle = none) :
    host.operations.get? handle = none := by
  unfold Host.takeOperation at absent
  split at absent
  next => cases absent
  next isRemoved => exact (Prod.mk.inj isRemoved).1

/-- To the affairs of others a function of the host does nothing but deeds. -/
theorem Stable.lasting
    {Holds : Multiset Possession → Host → Prop}
    (stable : Stable Holds) :
    Lasting Holds := by
  intro hand host laterHand later doing holds
  cases doing with
  | deed deed => exact stable deed holds
  | works isNext => exact stable (.work isNext) holds
  | asks | recalls | shows | misses => exact stable.aside holds rfl
  | creates time work natural settles inHand =>
      exact stable.aside (stable (.begin time work settles inHand) holds) rfl
  | claims taken =>
      obtain ⟨-, rfl⟩ := Host.takeOperation_eq_some taken
      exact stable (.takeOperation _ _) (stable.aside holds rfl)
  | hands handle recipient type =>
      exact stable.aside (stable (.leaveOperation _ _) holds) rfl

/-- Work in the background does not touch the exit. -/
theorem Host.exitState_perform
    (host : Host)
    (work : Work) :
    (host.perform work).exitState = host.exitState :=
  Host.view_perform (fun _ _ _ _ _ _ _ => rfl) host work

namespace Lasting

variable {Holds : Multiset Possession → Host → Prop}
variable {hand laterHand : Multiset Possession} {host later : Host}

/-- A deed keeps what lasts, for the hand that it leaves. -/
theorem deed
    (lasting : Lasting Holds)
    (deed : Deed hand host laterHand later)
    (same : later.books = host.books)
    (holds : Holds hand host) :
    Holds laterHand later :=
  lasting (.deed deed same) holds

/-- A function that is parked is in hand by its key. -/
theorem park?
    (lasting : Lasting Holds)
    (holds : Holds hand host)
    (function? : Option Function) :
    Holds (keyHand (host.park? function?).1.toList + hand) (host.park? function?).2 := by
  cases function? with
  | none => exact (Multiset.zero_add hand).symm ▸ holds
  | some function => exact lasting.deed (.park function) rfl holds

/-- A key that is released is out of hand. -/
theorem release?
    {key? : Option HandleKey}
    (lasting : Lasting Holds)
    (holds : Holds (keyHand key?.toList + hand) host) :
    Holds hand (host.release? key?) := by
  cases key? with
  | none => exact Multiset.zero_add hand ▸ holds
  | some key => exact lasting.deed (.release key) rfl holds

/-- Keys that are released are out of hand. -/
theorem releaseEach
    {keys : List HandleKey}
    (lasting : Lasting Holds)
    (holds : Holds (keyHand keys + hand) host) :
    Holds hand (host.releaseEach keys) := by
  induction keys generalizing host with
  | nil => exact Multiset.zero_add hand ▸ holds
  | cons key keys inductionHypothesis =>
      rw [keyHand_cons, Multiset.cons_add] at holds
      exact inductionHypothesis (lasting.deed (.release key) rfl holds)

/-- Whoever lets go of a connection gives up its keys. -/
theorem letGo
    {connection : Connection}
    (lasting : Lasting Holds)
    (holds : Holds (keyHand connection.keys + hand) host) :
    Holds hand (host.letGo connection) := by
  refine lasting.releaseEach (lasting.deed (.aside ?_) ?_ holds)
  · rfl
  · rfl

/-- What lasts does so while the host waits. -/
theorem await?
    (lasting : Lasting Holds)
    (holds : Holds hand host)
    (waited : host.await? = some later) :
    Holds hand later := by
  unfold Host.await? at waited
  split at waited
  · cases waited
  next work agenda isNext =>
    cases waited
    exact lasting (.works isNext) holds

/-- What lasts does so until a time has come. -/
theorem passUntil
    (lasting : Lasting Holds)
    (time fuel : Nat)
    (holds : Holds hand host) :
    Holds hand (Host.passUntil time fuel host) := by
  induction fuel generalizing host with
  | zero => exact lasting.deed (.advance time) rfl holds
  | succ fuel inductionHypothesis =>
      unfold Host.passUntil
      split
      · exact lasting.deed (.advance time) rfl holds
      next work agenda isNext =>
        have isNext : host.agenda.next? = some (work, agenda) := by
          unfold Agenda.nextUntil? at isNext
          split at isNext
          · cases isNext
          · split at isNext
            · exact isNext
            · cases isNext
        exact inductionHypothesis (lasting (.works isNext) holds)

/-- What lasts does so while time passes. -/
theorem pass
    (lasting : Lasting Holds)
    (time : Nat)
    (holds : Holds hand host) :
    Holds hand (host.pass time) :=
  lasting.passUntil _ _ holds

end Lasting

/-! ## What hosts come to -/

/-- What every host on a machine begins with. -/
def Affairs.start (machine : ChildProcess.Machine) : Affairs :=
  ⟨machine, ⟨.empty, 0, .empty, .empty⟩, .empty, .empty, [], #[], []⟩

/-- What a host has come to by deeds, and what of all that was taken in hand is still there. -/
inductive Reached : Multiset Possession → Host → Prop
  | start {host : Host}
      (isStart : host.affairs = .start host.machine) :
      Reached 0 host
  | deed {hand laterHand : Multiset Possession} {host later : Host}
      (reached : Reached hand host)
      (deed : Deed hand host laterHand later) :
      Reached laterHand later

theorem stable_reached : Stable Reached :=
  fun _ _ _ _ deed reached => reached.deed deed

/-- What is stable holds of whatever a host comes to, if it holds in the beginning. -/
theorem Reached.holds
    {Holds : Multiset Possession → Host → Prop}
    {hand : Multiset Possession}
    {host : Host}
    (reached : Reached hand host)
    (stable : Stable Holds)
    (holdsAtStart : ∀ host, host.affairs = .start host.machine → Holds 0 host) :
    Holds hand host := by
  induction reached with
  | start isStart => exact holdsAtStart _ isStart
  | deed _ deed inductionHypothesis => exact stable deed inductionHypothesis

/-! ## Who owns what -/

/-- Whatever is done to a host, each function that is parked has one owner: whoever has its key
in hand, or what is stored. -/
theorem stable_owns : Stable fun hand => Owns (keysIn hand) := by
  intro hand host laterHand later deed owns
  cases deed with
  | aside same => exact owns.congr (congrArg Affairs.holdings same)
  | park function =>
      rw [keysIn_cons_key]
      exact owns.park function
  | release key =>
      rw [keysIn_cons_key] at owns
      exact owns.release
  | createBatch function => exact (owns.park function).holdBatch
  | addEntry spec onExit? found =>
      rw [keysIn_add, keysIn_keyHand] at owns
      exact owns.addEntry found
  | takeBatch handle =>
      rw [keysIn_add, keysIn_keyHand]
      exact owns.removeBatch handle
  | holdConnection connection =>
      rw [keysIn_add, keysIn_keyHand] at owns
      exact owns.holdConnection
  | takeConnection handle =>
      rw [keysIn_add, keysIn_keyHand]
      exact owns.removeConnection handle
  | pumps found =>
      rw [keysIn_cons_pump]
      exact owns
  | pumped handle =>
      rw [keysIn_cons_pump] at owns
      exact owns
  | work isNext => exact owns.congr (Host.holdings_perform _ _)
  | makeCell =>
      rw [keysIn_cons_cell]
      exact owns
  | takeOutput cell | leaveCell cell =>
      rw [keysIn_cons_cell] at owns
      exact owns
  | openMailbox =>
      rw [keysIn_cons_mailbox]
      exact owns
  | leaveMailbox mailbox =>
      rw [keysIn_cons_mailbox] at owns
      exact owns
  | takeOperation handle operation =>
      rw [keysIn_cons_operation]
      exact owns
  | leaveOperation handle operation =>
      rw [keysIn_cons_operation] at owns
      exact owns
  | tells | begin | advance | listen | setSignals => exact owns

/-- A host that was reached owns what is not in hand. -/
theorem Reached.owns
    {hand : Multiset Possession}
    {host : Host}
    (reached : Reached hand host) :
    Owns (keysIn hand) host :=
  reached.holds stable_owns fun _ isStart => owns_of_start (congrArg Affairs.holdings isStart)

end ScriptHost
