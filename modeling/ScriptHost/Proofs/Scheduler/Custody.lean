import ScriptHost.Natives.Tasks
import ScriptHost.Proofs.Host.Deeds
import ScriptHost.Proofs.Scheduler.Rounds
import ScriptHost.Proofs.Session
import Mathlib.Data.List.Perm.Basic

/-!
# What a run has in hand

A run takes the callbacks of operations and jobs in, and hands each of them on: the host is
told of the operation, or the callback is given up. In between it stands in a slot, or in the
list of the jobs that are not launched yet, and what it consists of is in hand, as is the
mailbox of the run. So whatever is lasting is kept through a whole run, and in the end the run
has nothing in hand any more.
-/

namespace ScriptHost
namespace Scheduler

variable {κ : Type}

namespace Slots

/-- The callbacks of the operations that are outstanding. -/
def callbacks (slots : Slots κ) : Multiset κ :=
  (slots.entries.toList.filterMap (Option.map Slot.callback) : List κ)

/-- The callback of a filled slot is one of the callbacks. -/
theorem callback_mem
    {slots : Slots κ}
    {index : Nat}
    {slot : Slot κ}
    (filled : slots.slotAt? index = some slot) :
    slot.callback ∈ slots.callbacks := by
  rw [slotAt?_eq_some_iff] at filled
  obtain ⟨inRange, isSlot⟩ := Array.getElem?_eq_some_iff.mp filled
  exact List.mem_filterMap.mpr ⟨some slot, isSlot ▸ Array.getElem_mem_toList inRange, rfl⟩

/-- Some slot is filled if there are callbacks. -/
theorem exists_filled
    {slots : Slots κ}
    (outstanding : slots.callbacks ≠ 0) :
    ∃ index slot, slots.slotAt? index = some slot := by
  obtain ⟨callback, member⟩ := Multiset.exists_mem_of_ne_zero outstanding
  obtain ⟨slot?, inEntries, isCallback⟩ := List.mem_filterMap.mp member
  obtain ⟨slot, rfl, -⟩ := Option.map_eq_some_iff.mp isCallback
  obtain ⟨index, isEntry⟩ := List.getElem?_of_mem inEntries
  exact ⟨index, slot, (slotAt?_eq_some_iff ..).mpr (Array.getElem?_toList ▸ isEntry)⟩

/-- The free list is in order, and operations are counted. -/
structure Counted (slots : Slots κ) : Prop where
  tidy : slots.Tidy
  card_callbacks : slots.callbacks.card = slots.occupied

@[simp] theorem callbacks_new
    (limit : Nat)
    (mailbox : MailboxId) :
    (new limit mailbox : Slots κ).callbacks = 0 := rfl

/-- Slots without entries are counted. -/
theorem counted_new
    (limit : Nat)
    (mailbox : MailboxId) :
    (new limit mailbox : Slots κ).Counted :=
  ⟨tidy_new limit mailbox, rfl⟩

/-- An item that is chosen is one of the chosen ones. -/
private theorem coe_filterMap_cons
    {α β : Type}
    (choose? : α → Option β)
    (item : α)
    (items : List α) :
    ((item :: items).filterMap choose? : Multiset β) =
      (choose? item).toList + items.filterMap choose? := by
  rw [List.filterMap_cons]
  cases choose? item <;> rfl

/-- What is put into an entry takes the place of what stood there. -/
private theorem callbacks_set
    {slots : Slots κ}
    {index : Nat}
    {slot? : Option (Slot κ)}
    (stood : slots.entries[index]? = some slot?)
    (other? : Option (Slot κ)) :
    ((slot?.map Slot.callback).toList : Multiset κ) +
        callbacks { slots with entries := slots.entries.set! index other? } =
      (other?.map Slot.callback).toList + slots.callbacks := by
  obtain ⟨inRange, rfl⟩ := Array.getElem?_eq_some_iff.mp stood
  have inRange : index < slots.entries.toList.length := inRange
  have beforehand := Multiset.coe_eq_coe.mpr
    ((List.getElem_cons_eraseIdx_perm inRange).filterMap (Option.map Slot.callback))
  have afterwards := Multiset.coe_eq_coe.mpr
    ((List.set_perm_cons_eraseIdx inRange other?).filterMap (Option.map Slot.callback))
  rw [coe_filterMap_cons] at beforehand afterwards
  rw [callbacks, callbacks, Array.set!_eq_setIfInBounds, Array.toList_setIfInBounds, afterwards,
    ← beforehand, add_left_comm]
  rfl

/-- The callback that is taken in joins those of the slots. -/
theorem Tidy.callbacks_occupy
    {slots : Slots κ}
    (tidy : slots.Tidy)
    (board : Board)
    (admission : Admission κ) :
    (slots.occupy board admission).1.callbacks = admission.callback ::ₘ slots.callbacks := by
  let slot := slots.nextSlot admission
  cases free : slots.free with
  | nil =>
      let grown : Slots κ := { slots with entries := slots.entries.push none }
      have isNew : grown.entries[slots.entries.size]? = some none := Array.getElem?_push_size
      have sameCallbacks : grown.callbacks = slots.callbacks := by
        simp [callbacks, grown]
      have occupied := callbacks_set isNew (some slot)
      rw [sameCallbacks] at occupied
      rw [Slots.occupy, free]
      exact (Multiset.zero_add _).symm.trans occupied
  | cons index rest =>
      have isFree := (tidy.mem_free_iff index).mp (free ▸ List.mem_cons_self)
      have occupied := callbacks_set isFree (some slot)
      rw [Slots.occupy, free]
      exact (Multiset.zero_add _).symm.trans occupied

/-- Slots stay counted when something is taken in. -/
theorem Counted.occupy
    {slots : Slots κ}
    (counted : slots.Counted)
    (board : Board)
    (admission : Admission κ) :
    (slots.occupy board admission).1.Counted := by
  refine ⟨counted.tidy.occupy board admission, ?_⟩
  rw [counted.tidy.callbacks_occupy, Multiset.card_cons, counted.card_callbacks, occupied_occupy]

/-- What is handed out stood in a slot. -/
theorem Counted.complete?
    {slots next : Slots κ}
    {board : Board}
    {signals rest : List Nat}
    {completion : Completion κ}
    (counted : slots.Counted)
    (announced : slots.complete? board signals = some (completion, next, rest)) :
    slots.callbacks = completion.callback ::ₘ next.callbacks ∧
      next.mailbox = slots.mailbox ∧ next.Counted := by
  obtain ⟨index, slot, _, filled, -, rfl, rfl⟩ := exists_vacate_of_complete? announced
  have stood : slots.callbacks = slot.callback ::ₘ (slots.vacate index).callbacks :=
    (Multiset.zero_add _).symm.trans
      (callbacks_set ((slotAt?_eq_some_iff ..).mp filled) none).symm
  have oneLess := counted.card_callbacks
  rw [stood, Multiset.card_cons] at oneLess
  exact ⟨stood, rfl, counted.tidy.vacate filled, Nat.eq_sub_of_add_eq oneLess⟩

/-- Each callback stands in a slot together with an operation that belongs to it. -/
def Matched
    (belongs : κ → OperationId → Prop)
    (slots : Slots κ) : Prop :=
  ∀ ⦃index slot⦄, slots.slotAt? index = some slot → belongs slot.callback slot.operation

/-- Slots stay matched when what is taken in matches. -/
theorem Matched.occupy
    {belongs : κ → OperationId → Prop}
    {slots : Slots κ}
    {admission : Admission κ}
    (matched : slots.Matched belongs)
    (tidy : slots.Tidy)
    (board : Board)
    (isMatch : belongs admission.callback admission.operation) :
    (slots.occupy board admission).1.Matched belongs := by
  intro index slot filled
  rcases (tidy.slotAt?_occupy_eq_some_iff board admission).mp filled with ⟨-, rfl⟩ | filled
  · exact isMatch
  · exact matched filled

/-- Slots without entries are matched. -/
theorem matched_new
    (belongs : κ → OperationId → Prop)
    (limit : Nat)
    (mailbox : MailboxId) :
    (new limit mailbox).Matched belongs :=
  fun _ _ filled => by cases (slotAt?_new limit mailbox _).symm.trans filled

/-- What is handed out is the outcome of an operation that belongs to the callback. -/
theorem Matched.complete?
    {belongs : κ → OperationId → Prop}
    {slots next : Slots κ}
    {board : Board}
    {signals rest : List Nat}
    {completion : Completion κ}
    (matched : slots.Matched belongs)
    (announced : slots.complete? board signals = some (completion, next, rest)) :
    next.Matched belongs ∧ ∃ operation type outcome, belongs completion.callback operation ∧
      board.outcome? operation = some outcome ∧ completion.result = deliveryOf type outcome := by
  obtain ⟨index, slot, outcome, filled, isThere, rfl, rfl⟩ := exists_vacate_of_complete? announced
  exact ⟨fun other slot stillFilled => matched (slotAt?_vacate_eq_some_iff.mp stillFilled).2,
    slot.operation, slot.type, outcome, matched filled, isThere, rfl⟩

/-- Nothing stands in slots that are empty. -/
theorem Counted.callbacks_eq_zero
    {slots : Slots κ}
    (counted : slots.Counted)
    (isEmpty : slots.isEmpty = true) :
    slots.callbacks = 0 := by
  rw [← Multiset.card_eq_zero, counted.card_callbacks]
  exact beq_iff_eq.mp isEmpty

end Slots

/-! ## Runs -/

/-- Something holds of what a step returns, if it returns anything. -/
def IfSome
    {α : Type}
    (returned : α → Host → Prop) : Option α → Host → Prop
  | none, _ => True
  | some value, host => returned value host

variable {Holds : Multiset Possession → Host → Prop} {possessions : κ → Multiset Possession}
variable {belongs : κ → OperationId → Prop}
variable {dispatch : Completion κ → SessionM (Except String Unit)} {discard : κ → SessionM Unit}
variable {others : Multiset Possession}

/-- What a completion reports is the outcome of an operation that belongs to the callback. -/
def Reports
    (belongs : κ → OperationId → Prop)
    (completion : Completion κ)
    (host : Host) : Prop :=
  ∃ operation type outcome, belongs completion.callback operation ∧
    host.board.outcome? operation = some outcome ∧ completion.result = deliveryOf type outcome

/-- Something lasting is kept by whatever a run asks of a host. When the host is told of an
operation, or a callback is given up, what the callback consists of is in hand no more. None of
this throws. -/
structure Custody
    (Holds : Multiset Possession → Host → Prop)
    (possessions : κ → Multiset Possession)
    (belongs : κ → OperationId → Prop)
    (dispatch : Completion κ → SessionM (Except String Unit))
    (discard : κ → SessionM Unit) : Prop where
  lasting : Lasting Holds
  dispatch (completion : Completion κ) (hand : Multiset Possession) :
    Session.Ensures
      (fun host => Reports belongs completion host ∧
        Holds (possessions completion.callback + hand) host)
      (dispatch completion) (fun _ => Holds hand) Session.never
  discard (callback : κ) (hand : Multiset Possession) :
    Session.Ensures (Holds (possessions callback + hand)) (discard callback)
      (fun _ => Holds hand) Session.never

/-- The callback of an operation that a producer yields is in hand, and belongs to it. -/
def Yields
    (Holds : Multiset Possession → Host → Prop)
    (possessions : κ → Multiset Possession)
    (belongs : κ → OperationId → Prop)
    (hand : Multiset Possession) : Production κ String → Host → Prop
  | .item admission, host =>
      belongs admission.callback admission.operation ∧
        Holds (possessions admission.callback + hand) host
  | _, host => Holds hand host

/-- What a run has in hand: its mailbox and its callbacks, and others have what they have. -/
def Run.hand
    (possessions : κ → Multiset Possession)
    (others : Multiset Possession)
    (run : Run κ String) : Multiset Possession :=
  .mailbox run.slots.mailbox ::ₘ (run.slots.callbacks.bind possessions + others)

/-- What others have in hand may be told apart. -/
theorem Run.hand_add
    (possessions : κ → Multiset Possession)
    (mine others : Multiset Possession)
    (run : Run κ String) :
    run.hand possessions (mine + others) = mine + run.hand possessions others := by
  rw [Run.hand, Run.hand, add_left_comm, Multiset.add_cons]

/-- The callbacks of a run are in hand, and others with them. -/
def Carries
    (Holds : Multiset Possession → Host → Prop)
    (possessions : κ → Multiset Possession)
    (belongs : κ → OperationId → Prop)
    (others : Multiset Possession)
    (run : Run κ String)
    (host : Host) : Prop :=
  (run.slots.Counted ∧ run.slots.Matched belongs) ∧ Holds (run.hand possessions others) host

open Session Natives

/-- A run sees the board that the host has. -/
theorem ensures_board
    {before : Host → Prop} :
    Ensures before (environment dispatch discard).board
      (fun board host => board = host.board ∧ before host) never := by
  refine ensures_theHost.bind fun host => ensures_pure ?_
  rintro _ ⟨rfl, holds⟩
  exact ⟨rfl, holds⟩

/-- A run changes nothing of the host but its board. -/
theorem ensures_setBoard
    {before : Host → Prop}
    {board : Board}
    (returned : Host → Prop)
    (isReturned : ∀ host, before host → returned { host with board := board }) :
    Ensures before ((environment dispatch discard).setBoard board) (fun _ => returned) never := by
  change Ensures _ (changeHost fun host => { host with board := board }) _ _
  exact ensures_changeHost _ isReturned

/-- A run begins without a failure. -/
theorem goesOn_start
    {ε : Type}
    (limit : Nat)
    (mailbox : MailboxId) :
    ¬(Run.start limit mailbox : Run κ ε).failure?.isSome = true :=
  Bool.false_ne_true

/-- A run begins with room for an operation. -/
theorem isFull_start
    {ε : Type}
    (limit : Nat)
    (mailbox : MailboxId) :
    (Run.start limit mailbox : Run κ ε).slots.isFull = false := by
  simp [Run.start, Slots.new, Slots.isFull]

/-- A run begins with empty slots and a mailbox of its own. -/
theorem ensures_begin
    {before : Host → Prop}
    (opened : MailboxId → Host → Prop)
    (opens : ∀ host, before host →
      opened host.board.mailboxes.size { host with board := host.board.openMailbox.1 })
    (limit : Nat) :
    Ensures before (begin (environment dispatch discard) limit)
      (fun run host => run = .start limit run.slots.mailbox ∧ opened run.slots.mailbox host)
      never := by
  refine ensures_board.bind fun board =>
    (ensures_setBoard (opened board.mailboxes.size) ?_).bind fun _ =>
      ensures_pure fun host holds => ⟨rfl, holds⟩
  rintro host ⟨rfl, holds⟩
  exact opens host holds

/-- What lasts does so while a run waits. -/
theorem ensures_await
    {hand : Multiset Possession}
    (lasting : Lasting Holds) :
    Ensures (Holds hand) await (fun _ => Holds hand) never := by
  refine ensures_theHost.bind fun host => ?_
  split
  · exact ensures_pure fun _ => And.right
  next later waited =>
    refine (ensures_changeHost (fun _ => Holds hand) ?_).bind fun _ => ensures_pure fun _ => id
    rintro _ ⟨rfl, holds⟩
    exact lasting.await? holds waited

/-- While a run waits, it carries its callbacks, and then it reports one of them. -/
theorem Custody.waitNext
    (custody : Custody Holds possessions belongs dispatch discard)
    (fuel : Nat)
    (run : Run κ String) :
    Ensures (Carries Holds possessions belongs others run)
      (waitNext (environment dispatch discard) fuel run)
      (IfSome fun found host =>
        (found.2.slots.Counted ∧ found.2.slots.Matched belongs) ∧
          Reports belongs found.1 host ∧
            Holds (possessions found.1.callback + found.2.hand possessions others) host)
      never := by
  induction fuel with
  | zero => exact ensures_pure fun _ _ => trivial
  | succ fuel inductionHypothesis =>
      refine ensures_of_fact fun isInOrder => ?_
      obtain ⟨counted, matched⟩ := isInOrder
      refine ensures_board.bind fun board => ?_
      split
      next completion next nextBoard announced =>
        obtain ⟨slots, signals, isComplete, rfl, rfl⟩ := Run.complete?_eq_some_iff.mp announced
        obtain ⟨stood, sameMailbox, countedNext⟩ := counted.complete? isComplete
        obtain ⟨matchedNext, operation, type, outcome, isMatch, isThere, isResult⟩ :=
          matched.complete? isComplete
        refine (ensures_setBoard (fun host => host.board.outcome? operation = some outcome ∧
          Holds (run.hand possessions others) host) ?_).bind fun _ =>
            ensures_pure fun host holds => ?_
        · rintro host ⟨rfl, holds⟩
          refine ⟨(Board.outcome?_setSignals ..).trans isThere, ?_⟩
          exact custody.lasting.deed (.setSignals _ _ (Multiset.mem_cons_self _ _)) rfl holds
        · obtain ⟨stillThere, holds⟩ := holds
          rw [Run.hand, stood, Multiset.cons_bind, add_assoc, ← Multiset.add_cons] at holds
          refine ⟨⟨countedNext, matchedNext⟩,
            ⟨operation, type, outcome, isMatch, stillThere, isResult⟩, ?_⟩
          rw [Run.hand, sameMailbox]
          exact holds
      next =>
        refine Ensures.bind ((ensures_await custody.lasting).imp fun _ => And.right)
          fun settled => ?_
        split
        · exact inductionHypothesis.imp fun host holds => ⟨⟨counted, matched⟩, holds⟩
        · exact ensures_pure fun _ _ => trivial

/-- A delivery uses up the callback that was reported. -/
theorem Custody.deliverNext
    (custody : Custody Holds possessions belongs dispatch discard)
    (fuel : Nat)
    (run : Run κ String) :
    Ensures (Carries Holds possessions belongs others run)
      (deliverNext (environment dispatch discard) fuel run)
      (IfSome (Carries Holds possessions belongs others)) never := by
  refine (custody.waitNext fuel run).bind fun found? => ?_
  cases found? with
  | none => exact ensures_pure fun _ _ => trivial
  | some found =>
      refine ensures_of_fact fun counted => ?_
      refine (custody.dispatch found.1 _).bind fun result => ensures_pure fun host holds => ?_
      rw [IfSome, Carries, Run.hand, Run.slots_record]
      exact ⟨counted, holds⟩

/-- A run carries the callback that it takes in. -/
theorem Custody.occupyNext
    (custody : Custody Holds possessions belongs dispatch discard)
    (run : Run κ String)
    (admission : Admission κ)
    (isMatch : belongs admission.callback admission.operation) :
    Ensures (Carries Holds possessions belongs (possessions admission.callback + others) run)
      (occupyNext (environment dispatch discard) run admission)
      (Carries Holds possessions belongs others) never := by
  refine ensures_of_fact fun isInOrder => ?_
  obtain ⟨counted, matched⟩ := isInOrder
  refine ensures_board.bind fun board => (ensures_setBoard
    (Holds (run.hand possessions (possessions admission.callback + others))) ?_).bind fun _ =>
      ensures_pure fun host holds =>
        ⟨⟨counted.occupy board admission, matched.occupy counted.tidy board isMatch⟩, ?_⟩
  · rintro host ⟨rfl, holds⟩
    exact custody.lasting.deed (.listen _ ⟨_, _⟩ (Multiset.mem_cons_self _ _)) rfl holds
  · change Holds (.mailbox run.slots.mailbox ::ₘ
      ((run.slots.occupy board admission).1.callbacks.bind possessions + others)) host
    rw [counted.tidy.callbacks_occupy, Multiset.cons_bind, add_assoc, ← Multiset.add_cons]
    rw [Run.hand_add] at holds
    exact holds

/-- While a run pulls, it carries the callbacks of all that it has taken in. -/
theorem Custody.pull
    {produce : SessionM (Production κ String)}
    (custody : Custody Holds possessions belongs dispatch discard)
    (produces : ∀ hand, Ensures (Holds hand) produce (Yields Holds possessions belongs hand) never)
    (fuel : Nat)
    (run : Run κ String) :
    Ensures (Carries Holds possessions belongs others run)
      (pull (environment dispatch discard) produce fuel run)
      (IfSome (Carries Holds possessions belongs others)) never := by
  induction fuel generalizing run with
  | zero => exact ensures_pure fun _ _ => trivial
  | succ fuel inductionHypothesis =>
      unfold Scheduler.pull
      split
      · exact ensures_pure fun _ => id
      · split
        · refine (custody.deliverNext fuel run).bind fun run? => ?_
          cases run? with
          | none => exact ensures_pure fun _ _ => trivial
          | some run => exact inductionHypothesis run
        · refine ensures_of_fact fun counted => ?_
          refine (produces _).bind fun production => ?_
          cases production with
          | item admission =>
              refine ensures_of_fact fun isMatch => Ensures.bind ?_ inductionHypothesis
              refine (custody.occupyNext run admission isMatch).imp
                fun host holds => ⟨counted, ?_⟩
              rw [Run.hand_add]
              exact holds
          | finished => exact ensures_pure fun host holds => ⟨counted, holds⟩
          | failed error =>
              exact (inductionHypothesis (run.fail error)).imp fun host holds => ⟨counted, holds⟩

/-- What a list of jobs has in hand. -/
def handOf
    (possessions : κ → Multiset Possession)
    (jobs : List (Job SessionM κ)) : Multiset Possession :=
  Multiset.bind (jobs.map Job.callback : List κ) possessions

@[simp] theorem handOf_cons
    (possessions : κ → Multiset Possession)
    (job : Job SessionM κ)
    (jobs : List (Job SessionM κ)) :
    handOf possessions (job :: jobs) = possessions job.callback + handOf possessions jobs := by
  rw [handOf, List.map_cons, ← Multiset.cons_coe, Multiset.cons_bind, handOf]

/-- The callbacks of the jobs that are left over stay in hand. -/
theorem Custody.launch
    (custody : Custody Holds possessions belongs dispatch discard)
    (anyMatches : ∀ callback operation, belongs callback operation)
    (fuel : Nat)
    (jobs : List (Job SessionM κ))
    (launches : ∀ job ∈ jobs, ∀ hand,
      Ensures (Holds (possessions job.callback + hand)) job.launch
        (fun _ => Holds (possessions job.callback + hand)) never)
    (run : Run κ String) :
    Ensures (Carries Holds possessions belongs (handOf possessions jobs + others) run)
      (launch (environment dispatch discard) fuel jobs run)
      (IfSome fun left =>
        Carries Holds possessions belongs (handOf possessions left.2 + others) left.1)
      never := by
  induction fuel generalizing jobs run with
  | zero => exact ensures_pure fun _ _ => trivial
  | succ fuel inductionHypothesis =>
      unfold Scheduler.launch
      split
      · exact ensures_pure fun _ => id
      · split
        · refine (custody.deliverNext fuel run).bind fun run? => ?_
          cases run? with
          | none => exact ensures_pure fun _ _ => trivial
          | some run => exact inductionHypothesis jobs launches run
        · cases jobs with
          | nil => exact ensures_pure fun _ => id
          | cons job jobs =>
              obtain ⟨launchesFirst, launches⟩ := List.forall_mem_cons.mp launches
              refine ensures_of_fact fun counted => ?_
              rw [handOf_cons, add_assoc, Run.hand_add]
              refine (launchesFirst _).bind fun operation =>
                Ensures.bind ?_ (inductionHypothesis jobs launches)
              refine (custody.occupyNext run ⟨operation, job.type, job.callback⟩
                (anyMatches _ _)).imp fun host holds => ⟨counted, ?_⟩
              rw [Run.hand_add]
              exact holds

/-- A run that is drained carries nothing. -/
theorem Custody.drain
    (custody : Custody Holds possessions belongs dispatch discard)
    (fuel : Nat)
    (run : Run κ String) :
    Ensures (Carries Holds possessions belongs others run)
      (drain (environment dispatch discard) fuel run) (IfSome fun _ => Holds others) never := by
  induction fuel generalizing run with
  | zero => exact ensures_pure fun _ _ => trivial
  | succ fuel inductionHypothesis =>
      unfold Scheduler.drain
      split
      next isEmpty =>
        refine ensures_pure fun host carries => ?_
        obtain ⟨⟨counted, -⟩, holds⟩ := carries
        rw [Run.hand, counted.callbacks_eq_zero isEmpty, Multiset.zero_bind,
          Multiset.zero_add] at holds
        exact custody.lasting.deed (.leaveMailbox _) rfl holds
      next =>
        refine (custody.deliverNext fuel run).bind fun run? => ?_
        cases run? with
        | none => exact ensures_pure fun _ _ => trivial
        | some run => exact inductionHypothesis run

/-- The callbacks of jobs that are given up are used up. -/
theorem Custody.abandonAll
    (custody : Custody Holds possessions belongs dispatch discard)
    (jobs : List (Job SessionM κ))
    (run : Run κ String) :
    Ensures (Holds (handOf possessions jobs + others))
      (abandonAll (environment dispatch discard) jobs run) (fun _ => Holds others) never := by
  induction jobs generalizing run with
  | nil => exact ensures_pure fun host holds => Multiset.zero_add others ▸ holds
  | cons job jobs inductionHypothesis =>
      refine Ensures.bind ?_ fun _ => inductionHypothesis run.abandon
      refine (custody.discard job.callback _).imp fun host holds => ?_
      rw [handOf_cons, add_assoc] at holds
      exact holds

/-- A run begins without callbacks. -/
theorem Custody.begin
    (custody : Custody Holds possessions belongs dispatch discard)
    (limit : Nat) :
    Ensures (Holds others) (begin (environment dispatch discard) limit)
      (Carries Holds possessions belongs others) never := by
  refine (ensures_begin (fun mailbox => Holds (.mailbox mailbox ::ₘ others))
    (fun host holds => custody.lasting.deed .openMailbox rfl holds) limit).weaken
      (fun _ => id) ?_ fun _ => id
  rintro run host ⟨isStart, holds⟩
  rw [isStart, Carries, Run.hand, Run.start, Slots.callbacks_new, Multiset.zero_bind,
    Multiset.zero_add]
  exact ⟨⟨Slots.counted_new .., Slots.matched_new ..⟩, holds⟩

/-- A run that ends has nothing in hand any more. -/
theorem Custody.runPull
    {produce : SessionM (Production κ String)}
    (custody : Custody Holds possessions belongs dispatch discard)
    (produces : ∀ hand, Ensures (Holds hand) produce (Yields Holds possessions belongs hand) never)
    (limit fuel : Nat) :
    Ensures (Holds others) (runPull (environment dispatch discard) limit produce fuel)
      (IfSome fun _ => Holds others) never := by
  refine (custody.begin limit).bind fun run => (custody.pull produces fuel run).bind fun run? => ?_
  cases run? with
  | none => exact ensures_pure fun _ _ => trivial
  | some run =>
      refine (custody.drain fuel run).bind fun run? => ?_
      cases run? with
      | none => exact ensures_pure fun _ _ => trivial
      | some run => exact ensures_pure fun _ => id

/-- A run of jobs hands on whatever it carries once no more of them are launched. -/
theorem Custody.runFanOut_of_launch
    {before : Host → Prop}
    {begun : Run κ String → Host → Prop}
    (custody : Custody Holds possessions belongs dispatch discard)
    (others : Multiset Possession)
    {jobs : List (Job SessionM κ)}
    {limit fuel : Nat}
    (begins : Ensures before (Scheduler.begin (environment dispatch discard) limit) begun never)
    (launches : ∀ run, Ensures (begun run)
      (Scheduler.launch (environment dispatch discard) fuel jobs run)
      (IfSome fun left =>
        Carries Holds possessions belongs (handOf possessions left.2 + others) left.1) never) :
    Ensures before (Scheduler.runFanOut (environment dispatch discard) limit jobs fuel)
      (IfSome fun _ => Holds others) never := by
  refine begins.bind fun run => (launches run).bind fun left? => ?_
  cases left? with
  | none => exact ensures_pure fun _ _ => trivial
  | some left =>
      refine (custody.drain fuel left.1).bind fun run? => ?_
      cases run? with
      | none => exact ensures_pure fun _ _ => trivial
      | some run =>
          exact (custody.abandonAll left.2 run).bind fun run => ensures_pure fun _ => id

/-- A run of jobs that ends has none of their callbacks in hand any more. -/
theorem Custody.runFanOut
    (custody : Custody Holds possessions belongs dispatch discard)
    (anyMatches : ∀ callback operation, belongs callback operation)
    (others : Multiset Possession)
    (jobs : List (Job SessionM κ))
    (launches : ∀ job ∈ jobs, ∀ hand,
      Ensures (Holds (possessions job.callback + hand)) job.launch
        (fun _ => Holds (possessions job.callback + hand)) never)
    (limit fuel : Nat) :
    Ensures (Holds (handOf possessions jobs + others))
      (runFanOut (environment dispatch discard) limit jobs fuel)
      (IfSome fun _ => Holds others) never :=
  custody.runFanOut_of_launch others (custody.begin limit)
    (custody.launch anyMatches fuel jobs launches)

/-- What a run does not put an end to holds after it if it holds once the first job is launched. -/
theorem Custody.runFanOut_cons
    {before kept : Host → Prop}
    (custody : Custody (fun _ => kept) possessions (fun _ _ => True) dispatch discard)
    (opens : ∀ host, before host → before { host with board := host.board.openMailbox.1 })
    {job : Job SessionM κ}
    {jobs : List (Job SessionM κ)}
    (launchesFirst : Ensures before job.launch (fun _ => kept) never)
    (launches : ∀ job ∈ jobs, Ensures kept job.launch (fun _ => kept) never)
    (limit fuel : Nat) :
    Ensures before (Scheduler.runFanOut (environment dispatch discard) limit (job :: jobs) fuel)
      (IfSome fun _ => kept) never := by
  refine custody.runFanOut_of_launch 0 (ensures_begin (fun _ => before) opens limit) fun run =>
    ensures_of_fact fun isStart => ?_
  cases fuel with
  | zero => exact ensures_pure fun _ _ => trivial
  | succ fuel =>
      rw [isStart, Scheduler.launch, if_neg (goesOn_start _ _),
        if_neg (ne_true_of_eq_false (isFull_start ..))]
      refine launchesFirst.bind fun operation => ?_
      have takesIn : Ensures (Carries (fun _ => kept) possessions (fun _ _ => True)
          (possessions job.callback + handOf possessions jobs) (.start limit run.slots.mailbox)) _
          _ _ := custody.occupyNext _ ⟨operation, job.type, job.callback⟩ trivial
      refine Ensures.bind (takesIn.imp fun host holds =>
        ⟨⟨Slots.counted_new .., Slots.matched_new ..⟩, holds⟩) fun run => ?_
      exact custody.launch (fun _ _ => trivial) fuel jobs
        (fun job member _ => launches job member) run

end Scheduler
end ScriptHost
