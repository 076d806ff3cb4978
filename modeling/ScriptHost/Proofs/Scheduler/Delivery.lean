import ScriptHost.Proofs.Scheduler.Handles
import ScriptHost.Proofs.Scheduler.Ledger
import ScriptHost.Proofs.Scheduler.Rehearsal
import ScriptHost.Proofs.Scheduler.SettlementOrder

/-!
# Delivery

A run hands out each operation that it takes in, once, as soon as it is its turn in the
completion order, with the outcome of that operation and no other. Nothing is assumed
about the order in which operations settle, nor about what the host does in the meantime
and whether it fails.
-/

namespace ScriptHost
namespace Scheduler

variable {α κ ε : Type}

namespace Ledger

variable {start : Board} {events : List (Event α κ ε)} {desk : Desk κ}

/-- What was handed out so far is a beginning of the completion order. -/
theorem isPrefix_completionOrder (ledger : Ledger start events desk) :
    (completions events).map Completion.sequence <+: completionOrder start events := by
  obtain ⟨sequences, isOrder, -⟩ := ledger.announced
  rw [isOrder]
  exact List.prefix_append ..

/-- When nothing is outstanding, all that is ready was handed out. -/
theorem eq_completionOrder_of_isEmpty
    (ledger : Ledger start events desk)
    (isEmpty : desk.slots.isEmpty = true) :
    (completions events).map Completion.sequence = completionOrder start events := by
  have noneLeft : desk.slots.occupied = 0 := eq_of_beq isEmpty
  have counted := ledger.occupied
  refine ledger.isPrefix_completionOrder.eq_of_length_le ?_
  rw [List.length_map]
  have bounded := length_completionOrder_le start events
  omega

/-- When nothing is outstanding, everything that was taken in is ready. -/
theorem completionOrder_perm_of_isEmpty
    (ledger : Ledger start events desk)
    (isEmpty : desk.slots.isEmpty = true) :
    (completionOrder start events).Perm (List.range (admissions events).length) := by
  have noneLeft : desk.slots.occupied = 0 := eq_of_beq isEmpty
  have counted := ledger.occupied
  have sameLength := congrArg List.length (ledger.eq_completionOrder_of_isEmpty isEmpty)
  rw [List.length_map] at sameLength
  refine (completionOrder_subperm start events).perm_of_length_le ?_
  rw [List.length_range]
  omega

/-- When nothing is outstanding, every operation that was taken in was handed out once,
with its own outcome. -/
theorem completions_perm_of_isEmpty
    (ledger : Ledger start events desk)
    (isEmpty : desk.slots.isEmpty = true) :
    ((completions events).map some).Perm
      ((List.range (admissions events).length).map
        (completionOf desk.board (admissions events))) := by
  have sequences : ((completions events).map Completion.sequence).Perm
      (List.range (admissions events).length) := by
    rw [ledger.eq_completionOrder_of_isEmpty isEmpty]
    exact ledger.completionOrder_perm_of_isEmpty isEmpty
  have results : (completions events).map some =
      ((completions events).map Completion.sequence).map
        (completionOf desk.board (admissions events)) := by
    rw [List.map_map]
    apply List.map_congr_left
    intro completion member
    exact (ledger.delivered completion member).symm
  rw [results]
  exact sequences.map _

/-- When nothing is outstanding, every callback that was taken in or given up was handed to
the host. -/
theorem exists_handed
    (ledger : Ledger start events desk)
    (isEmpty : desk.slots.isEmpty = true)
    (held : κ → Option HandleKey) :
    ∀ callback ∈ (admissions events).map Admission.callback ++ discards events,
      ∃ event ∈ events, event.handed? held = held callback := by
  intro callback isGiven
  rcases List.mem_append.mp isGiven with isTaken | isDiscarded
  · obtain ⟨admission, isAdmission, rfl⟩ := List.mem_map.mp isTaken
    obtain ⟨sequence, inRange, rfl⟩ := List.mem_iff_getElem.mp isAdmission
    have isDelivered : completionOf desk.board (admissions events) sequence ∈
        (completions events).map some :=
      (ledger.completions_perm_of_isEmpty isEmpty).mem_iff.mpr
        (List.mem_map_of_mem (List.mem_range.mpr inRange))
    obtain ⟨completion, isCompletion, same⟩ := List.mem_map.mp isDelivered
    obtain ⟨admission, outcome, found, -, rfl⟩ := completionOf_eq_some_iff.mp same.symm
    obtain ⟨event, member, isDispatch⟩ := List.mem_filterMap.mp isCompletion
    rw [List.getElem?_eq_getElem inRange] at found
    cases found
    refine ⟨event, member, ?_⟩
    cases event with
    | dispatched other =>
        cases isDispatch
        rfl
    | _ => cases isDispatch
  · obtain ⟨event, member, isDiscard⟩ := List.mem_filterMap.mp isDiscarded
    refine ⟨event, member, ?_⟩
    cases event with
    | discarded other =>
        cases isDiscard
        rfl
    | _ => cases isDiscard

end Ledger

section Runs

open Stateful

variable {m : Type → Type} [Monad m] {σ : Type} [Stateful m σ]
variable {env : Environment m κ ε} {shows : σ → World α κ ε → Prop}
variable {held : κ → Option HandleKey} {source : Source m κ ε}
variable {world : World α κ ε} {before after : σ} {limit fuel : Nat}

/-- A run keeps its ledger to the end, and so does every beginning of it. -/
theorem Chronicle.ledger_of_run
    {result? : Option (Except ε Report)}
    (chronicle : Chronicle env shows world.board.mailboxes.size held)
    (answers : source.Chronicled shows world.board.mailboxes.size)
    (unused : ∀ id, world.board.unfired world.board.mailboxes.size id = [])
    (isShown : shows before world)
    (returned : Returns (source.run env limit fuel) before result? after) :
    ∃ events last lastRun,
      Rounds world.board.mailboxes.size held { world with board := world.board.openMailbox.1 }
        (Run.start limit world.board.mailboxes.size) events last lastRun ∧
      shows after last ∧
      (∃ tickets, Ledger world.board events ⟨lastRun.slots, last.board, tickets⟩) ∧
      (∀ past, past <+: events → ∃ desk, Ledger world.board past desk) ∧
      ∀ result, result? = some result →
        lastRun.slots.isEmpty = true ∧ result = lastRun.result ∧ source.Accounts events := by
  obtain ⟨events, last, lastRun, rounds, isShown, ended⟩ :=
    chronicle.rounds_of_run answers isShown returned
  obtain ⟨tickets, moment⟩ := rounds.exists_moment
  refine ⟨events, last, lastRun, rounds, isShown, ⟨tickets, .ofMoment unused moment⟩, ?_, ?_⟩
  · intro past isPrefix
    obtain ⟨desk, pastMoment⟩ := moment.ofPrefix isPrefix
    exact ⟨desk, .ofMoment unused pastMoment⟩
  · intro result isResult
    obtain ⟨isEmpty, same, accounts, -⟩ := ended result isResult
    exact ⟨isEmpty, same, accounts⟩

/-- A plan in which the operation that is taken in first settles last, at the hand of the
first dispatch, which fails. -/
def crossedPlan : Rehearsal.Plan where
  discipline := .pull
  limit? := some 2
  outcomes := #[.ok (.int 7), .error .abandoned]
  items := #[
    ⟨1, .int, [], ⟨.take, [], none, false⟩⟩,
    ⟨0, .string, [], ⟨.get, [1], some "broken", true⟩⟩,
    ⟨1, .void, [], ⟨.release, [], none, false⟩⟩]
  ready := []
  order := [0]
  producerFailure? := none

/-- The crossed plan, played from the start. -/
def crossedRun : Option (Except String Report) × Rehearsal.Stage :=
  ((Source.producer (Rehearsal.produce crossedPlan)).run
    (Rehearsal.environment crossedPlan) 2 9).run (Rehearsal.stageOf crossedPlan .empty)

example : Rehearsal.dispatches crossedRun.2.log = [(1, .ok none), (0, .error .abandoned)] := by
  decide +kernel

/-- Every operation that is taken in is handed out exactly once: under its own sequence,
for the callback it was taken in with, and with its own outcome read as its own result
type. A source is used up, and every handle that the run was given is gone from the
registry when it returns, unless the registry gave the same key again after the handle was
handed over. -/
theorem run_delivers_exactly_once
    {result : Except ε Report}
    (chronicle : Chronicle env shows world.board.mailboxes.size held)
    (answers : source.Chronicled shows world.board.mailboxes.size)
    (unused : ∀ id, world.board.unfired world.board.mailboxes.size id = [])
    (isShown : shows before world)
    (returned : Returns (source.run env limit fuel) before (some result) after) :
    ∃ events last, shows after last ∧ last.history = world.history ++ events ∧
      ((completions events).map some).Perm
        ((List.range (admissions events).length).map
          (completionOf last.board (admissions events))) ∧
      ((completions events).map Completion.sequence).Perm
        (List.range (admissions events).length) ∧
      source.Accounts events ∧
      ∀ callback ∈ (admissions events).map Admission.callback ++ discards events,
        ∀ key, held callback = some key →
          ∃ past event rest, events = past ++ event :: rest ∧
            event.handed? held = some key ∧
            (key ∉ keysGiven (registryAfter world.registry past) rest →
              last.registry.contains key = false) := by
  obtain ⟨events, last, lastRun, rounds, isShown, ⟨tickets, ledger⟩, -, ended⟩ :=
    chronicle.ledger_of_run answers unused isShown returned
  obtain ⟨isEmpty, -, accounts⟩ := ended result rfl
  have delivered := ledger.completions_perm_of_isEmpty isEmpty
  refine ⟨events, last, isShown, rounds.history_eq, delivered, ?_, accounts, ?_⟩
  · rw [ledger.eq_completionOrder_of_isEmpty isEmpty]
    exact ledger.completionOrder_perm_of_isEmpty isEmpty
  · intro callback isGiven key isHeld
    obtain ⟨event, member, isHanded⟩ := ledger.exists_handed isEmpty held callback isGiven
    rw [isHeld] at isHanded
    obtain ⟨past, rest, rfl⟩ := List.append_of_mem member
    refine ⟨past, event, rest, rfl, isHanded, ?_⟩
    intro notAgain
    rw [Bool.eq_false_iff]
    intro isLive
    apply notAgain
    exact rounds.mem_keysGiven_of_handed isHanded isLive

/-- A plan whose first dispatch clears the registry and fails, while one item is taken in
and one is not. -/
def brokenPlan : Rehearsal.Plan where
  discipline := .fanOut
  limit? := some 2
  outcomes := #[.ok (.int 7), .error (.failed "lost")]
  items := #[
    ⟨0, .int, [], ⟨.invoke, [1], some "broken", true⟩⟩,
    ⟨1, .int, [], ⟨.get, [], none, false⟩⟩,
    ⟨0, .int, [], ⟨.take, [], none, false⟩⟩]
  ready := []
  order := [0]
  producerFailure? := none

/-- The registry in which the items of the broken plan are parked. -/
def brokenRegistry : Registry Int64 :=
  ⟨4, [(⟨1⟩, 0), (⟨2⟩, 1), (⟨3⟩, 2)]⟩

/-- The jobs of the broken plan. -/
def brokenJobs : List (Job Rehearsal.StageM HandleKey) :=
  brokenPlan.items.toList.zipIdx.map fun entry =>
    Rehearsal.jobOf brokenPlan entry.2 entry.1 ⟨UInt64.ofNat (entry.2 + 1)⟩

/-- The broken plan, played from the start. -/
def brokenRun : Option (Except String Report) × Rehearsal.Stage :=
  ((Source.jobs brokenJobs).run (Rehearsal.environment brokenPlan) 2 10).run
    (Rehearsal.stageOf brokenPlan brokenRegistry)

theorem isPlanned_brokenJobs :
    ∀ job ∈ brokenJobs, ∃ index, ∃ item ∈ brokenPlan.items, ∃ key,
      job = Rehearsal.jobOf brokenPlan index item key := by
  intro job member
  obtain ⟨⟨item, index⟩, isItem, rfl⟩ := List.mem_map.mp member
  exact ⟨index, item, Array.mem_toList_iff.mp (List.fst_mem_of_mem_zipIdx isItem), _, rfl⟩

theorem brokenRun_delivers_exactly_once :
    ∃ events last, Rehearsal.Shows brokenPlan brokenRun.2 last ∧
      last.history = (Rehearsal.worldOf brokenPlan brokenRegistry).history ++ events ∧
      ((completions events).map some).Perm
        ((List.range (admissions events).length).map
          (completionOf last.board (admissions events))) ∧
      ((completions events).map Completion.sequence).Perm
        (List.range (admissions events).length) ∧
      (Source.jobs brokenJobs : Source _ _ String).Accounts events ∧
      ∀ callback ∈ (admissions events).map Admission.callback ++ discards events,
        ∀ key, some callback = some key →
          ∃ past event rest, events = past ++ event :: rest ∧
            event.handed? some = some key ∧
            (key ∉ keysGiven (registryAfter brokenRegistry past) rest →
              last.registry.contains key = false) := by
  have hasReturned : brokenRun.1 = some (.error "broken") := by decide +kernel
  have returned := returns_run
    ((Source.jobs brokenJobs).run (Rehearsal.environment brokenPlan) 2 10)
    (Rehearsal.stageOf brokenPlan brokenRegistry)
  exact run_delivers_exactly_once (Rehearsal.chronicle brokenPlan _)
    (Rehearsal.chronicled_jobs (by decide) _ isPlanned_brokenJobs)
    (Rehearsal.unfired_operationsOf brokenPlan _)
    (Rehearsal.shows_stageOf (by decide)) (hasReturned ▸ returned)

example : Rehearsal.dispatches brokenRun.2.log =
    [(0, .ok (some (.int 7))), (1, .error (.failed "lost"))] := by
  decide +kernel

end Runs

end Scheduler
end ScriptHost
