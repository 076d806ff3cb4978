import ScriptHost.Operation.Observation
import ScriptHost.Proofs.Operation.Lifecycle
import Mathlib.Data.Fintype.EquivFin

/-!
# Requests on an observed operation

An observation answers one request at a time. Whatever requests it answers, it stands as a
shared operation does in which each call has returned before the next request, and what its
listeners have recorded is what fired. So all that holds of shared operations holds of it.
-/

namespace ScriptHost
namespace Operation

/-- The listener that fires in any call. -/
def Event.fired? {ℓ : Type} : Event ℓ → Option ℓ
  | fired _ listener => some listener
  | _ => none

/-- The listeners that fired, in order. -/
def allFirings {ℓ : Type} (events : List (Event ℓ)) : List ℓ :=
  events.filterMap Event.fired?

section Firings

variable {ℓ : Type} {events : List (Event ℓ)} {shared : Shared ℓ}

theorem allFirings_append (first second : List (Event ℓ)) :
    allFirings (first ++ second) = allFirings first ++ allFirings second :=
  List.filterMap_append

theorem allFirings_concat
    {event : Event ℓ}
    (isQuiet : event.fired? = none)
    (events : List (Event ℓ)) :
    allFirings (events ++ [event]) = allFirings events := by
  rw [allFirings_append]
  simp [allFirings, isQuiet]

theorem allFirings_finished
    (call : Call)
    (list : List ℓ) :
    allFirings (list.map (.fired call) ++ [.returned call]) = list := by
  induction list with
  | nil => rfl
  | cons listener rest inductionHypothesis => exact congrArg (listener :: ·) inductionHypothesis

/-- Nothing has fired while the operation is pending. -/
theorem After.allFirings_eq_nil
    (after : After events shared)
    (isPending : outcomeOf events = none) :
    allFirings events = [] := by
  rw [allFirings, List.filterMap_eq_nil_iff]
  intro event member
  cases event with
  | fired call listener =>
      obtain ⟨past, rest, split⟩ := List.append_of_mem member
      have isSettled := (after.firesOnce.settled past call listener rest split).1
      rw [split, outcomeOf_append, Option.or_eq_none_iff] at isPending
      exact absurd isPending.1 isSettled
  | _ => rfl

end Firings

namespace Observation

variable {observation : Observation} {events : List (Event Mark)} {shared : Shared Mark}

/-- Listening does not change what a listener records. -/
theorem recorded_listen
    (operation : Operation Mark)
    (mark : Mark) :
    recorded (operation.listen mark).1 = recorded operation := by
  funext other
  cases other <;> cases operation <;> rfl

/-- A completer settles what is pending and is used up. -/
theorem complete_of_hasCompleter
    {marks : List Mark}
    (hasCompleter : observation.hasCompleter = true)
    (isWaiting : observation.operation = .pending marks)
    (outcome : Outcome) :
    (observation.complete outcome).1 =
      { observation with
        operation := .settled outcome
        hasCompleter := false
        fired := observation.fired ++ marks.map (recorded (.settled outcome)) } := by
  rw [Observation.complete, hasCompleter, if_pos rfl, isWaiting]
  rfl

/-- A listener that is told to fire at once records how the operation stands. -/
theorem listen_eq
    (observation : Observation)
    (mark : Mark) :
    (observation.listen mark).1 =
      { observation with
        operation := (observation.operation.listen mark).1
        fired := observation.fired ++
          (if (observation.operation.listen mark).2 then [mark] else []).map
            (recorded observation.operation) } := by
  rw [← recorded_listen observation.operation mark, Observation.listen]
  cases observation.operation with
  | pending listeners => simp [Operation.listen]
  | settled outcome => rfl

/-- An observation stands as a shared operation does after some events, when no call is under
way. -/
structure Sees
    (observation : Observation)
    (events : List (Event Mark))
    (shared : Shared Mark) : Prop where
  after : After events shared
  operation_eq : shared.operation = observation.operation
  unused_iff : shared.completer = .unused ↔ observation.hasCompleter = true
  observers_eq : shared.observers.length = observation.observers
  isObserved : 0 < observation.observers
  idle : ∀ call, shared.due call = none
  fired_eq : observation.fired = (allFirings events).map (recorded observation.operation)

namespace Sees

theorem exists_mem_observers (sees : Sees observation events shared) :
    ∃ observer, observer ∈ shared.observers := by
  apply List.exists_mem_of_length_pos
  rw [sees.observers_eq]
  exact sees.isObserved

theorem idle_setDue
    (sees : Sees observation events shared)
    (call other : Call) :
    (shared.setDue call none).due other = none := by
  by_cases same : other = call
  · rw [same, Shared.due_setDue_self]
  · rw [Shared.due_setDue_of_ne same, sees.idle]

/-- The completer settles the operation, and the listeners that waited fire. -/
theorem settle
    {outcome : Outcome}
    {event : Event Mark}
    {completer : Completer}
    (sees : Sees observation events shared)
    (hasCompleter : observation.hasCompleter = true)
    (step : Step shared event (shared.finish outcome completer))
    (isQuiet : event.fired? = none)
    (isUsed : completer ≠ .unused) :
    ∃ more, Sees (observation.complete outcome).1 (events ++ more)
      ((shared.finish outcome completer).setDue .completion none) := by
  have isUnused := sees.unused_iff.mpr hasCompleter
  have isPending := sees.after.stands.unused_iff.mp isUnused
  have isWaiting : observation.operation = .pending (registrations events) := by
    rw [← sees.operation_eq, sees.after.stands.operation_eq, operationAfter, isPending]
    rfl
  have settled := sees.after.goesOn step
  have isDue : (shared.finish outcome completer).due .completion =
      some (registrations events) := by
    refine (Shared.due_setDue_self ..).trans ?_
    rw [sees.operation_eq, isWaiting]
  have finished := settled.finishCall isDue
  rw [List.append_assoc] at finished
  rw [complete_of_hasCompleter hasCompleter isWaiting]
  refine ⟨_, finished, ?_, iff_of_false isUsed Bool.false_ne_true, sees.observers_eq,
    sees.isObserved, ?_, ?_⟩
  · change (shared.operation.settle outcome).1 = _
    rw [sees.operation_eq, isWaiting]
    rfl
  · intro call
    change (((_ : Shared Mark).setDue .completion _).setDue .completion none).due call = none
    rw [Shared.setDue_setDue]
    exact sees.idle_setDue .completion call
  · have noneBefore := sees.after.allFirings_eq_nil isPending
    have nowFired : allFirings ([event] ++
        ((registrations events).map (.fired .completion) ++ [.returned .completion])) =
          registrations events := by
      rw [allFirings_append, allFirings_finished]
      simp [allFirings, isQuiet]
    rw [sees.fired_eq, allFirings_append, noneBefore, nowFired]
    rfl

/-- Nothing fires while a completer that was used is dropped, or an observer is told how the
operation stands, comes or goes. -/
theorem goOn
    {event : Event Mark}
    {next : Shared Mark}
    {observers : Nat}
    (sees : Sees observation events shared)
    (step : Step shared event next)
    (isQuiet : event.fired? = none)
    (sameOperation : next.operation = shared.operation)
    (sameUse : next.completer = .unused ↔ shared.completer = .unused)
    (sameDue : next.due = shared.due)
    (counted : next.observers.length = observers)
    (isObserved : 0 < observers) :
    Sees { observation with observers := observers } (events ++ [event]) next where
  after := sees.after.goesOn step
  operation_eq := sameOperation.trans sees.operation_eq
  unused_iff := sameUse.trans sees.unused_iff
  observers_eq := counted
  isObserved := isObserved
  idle call := by rw [sameDue, sees.idle]
  fired_eq := by rw [allFirings_concat isQuiet]; exact sees.fired_eq

/-- The completer is used, and dropped afterwards. -/
theorem complete
    (sees : Sees observation events shared)
    (outcome : Outcome) :
    ∃ more last, Sees (observation.complete outcome).1 (events ++ more) last := by
  cases hasCompleter : observation.hasCompleter with
  | false =>
      refine ⟨[], shared, ?_⟩
      rw [Observation.complete, hasCompleter, List.append_nil]
      exact sees
  | true =>
      have isUnused := sees.unused_iff.mpr hasCompleter
      obtain ⟨more, settled⟩ := sees.settle hasCompleter (.uses outcome isUnused) rfl nofun
      have dropped := settled.goOn (.drops rfl) rfl rfl (iff_of_false nofun nofun) rfl
        settled.observers_eq settled.isObserved
      rw [List.append_assoc] at dropped
      exact ⟨_, _, dropped⟩

/-- A completer that is dropped unused abandons the operation. -/
theorem drop (sees : Sees observation events shared) :
    ∃ more last, Sees observation.drop.1 (events ++ more) last := by
  cases hasCompleter : observation.hasCompleter with
  | false =>
      refine ⟨[], shared, ?_⟩
      rw [Observation.drop, Observation.complete, hasCompleter, List.append_nil]
      exact sees
  | true =>
      have isUnused := sees.unused_iff.mpr hasCompleter
      obtain ⟨more, settled⟩ := sees.settle hasCompleter (.abandons isUnused) rfl nofun
      exact ⟨more, _, settled⟩

/-- A listener is registered, and fires at once if it comes too late. -/
theorem listen
    (sees : Sees observation events shared)
    (mark : Mark) :
    ∃ more last, Sees (observation.listen mark).1 (events ++ more) last := by
  obtain ⟨observer, isThere⟩ := sees.exists_mem_observers
  have registered := sees.after.goesOn (.registers observer mark isThere)
  have isDue : (shared.register mark).due (.registration shared.registered) =
      some (if (observation.operation.listen mark).2 then [mark] else []) := by
    rw [← sees.operation_eq]
    exact Shared.due_setDue_self ..
  have returned := registered.finishCall isDue
  rw [List.append_assoc] at returned
  rw [listen_eq]
  refine ⟨_, _, returned, ?_, sees.unused_iff, sees.observers_eq, sees.isObserved, ?_, ?_⟩
  · rw [← sees.operation_eq]
    rfl
  · intro call
    change (((_ : Shared Mark).setDue (.registration _) _).setDue (.registration _) none).due
      call = none
    rw [Shared.setDue_setDue]
    exact sees.idle_setDue (.registration shared.registered) call
  · rw [recorded_listen, sees.fired_eq, allFirings_append, allFirings_append,
      allFirings_finished, List.map_append]
    rfl

/-- Whatever an observation is asked, it goes on as the shared operation does. -/
theorem answer
    (sees : Sees observation events shared)
    (request : Request) :
    ∃ more last, Sees (observation.answer request).1 (events ++ more) last := by
  obtain ⟨observer, isThere⟩ := sees.exists_mem_observers
  have reads : ∀ reading : Reading, reading.Fits shared.operation →
      ∃ more last, Sees observation (events ++ more) last := fun reading fits =>
    ⟨_, _, sees.goOn (.reads observer reading isThere fits) rfl rfl .rfl rfl sees.observers_eq
      sees.isObserved⟩
  cases request with
  | complete outcome => exact sees.complete outcome
  | drop => exact sees.drop
  | listen mark => exact sees.listen mark
  | addObserver =>
      obtain ⟨copy, isNew⟩ := Infinite.exists_notMem_finset shared.observers.toFinset
      rw [List.mem_toFinset] at isNew
      refine ⟨_, _, sees.goOn (.clones observer copy isThere isNew) rfl rfl .rfl rfl ?_
        (Nat.succ_pos _)⟩
      rw [List.length_append, sees.observers_eq]
      rfl
  | dropObserver =>
      rcases Nat.lt_or_ge 1 observation.observers with others | lastOne
      · refine ⟨_, _, sees.goOn (.leaves observer isThere) rfl rfl .rfl rfl ?_ ?_⟩
        · rw [List.length_erase_of_mem isThere, sees.observers_eq]
          omega
        · omega
      · have isLast := Nat.le_antisymm lastOne sees.isObserved
        refine ⟨[], shared, ?_⟩
        rw [List.append_nil]
        have stays : max 1 (observation.observers - 1) = observation.observers := by omega
        rw [Observation.answer, stays]
        exact sees
  | outcome => exact reads (.outcome shared.operation.outcome?) rfl
  | wait => exact reads (.waitTimeout shared.operation.outcome?) rfl
  | isComplete => exact reads (.isComplete shared.operation.isComplete) rfl
  | describe => exact reads (.status shared.operation.status) rfl

/-- An observation begins as a shared operation does: as it was made, or settled by its maker or
by a worker that has ended, which drops its completer if it comes to no outcome. -/
theorem ofOrigin (origin : Origin) :
    ∃ events shared, Sees (.begin origin) events shared := by
  have made : Sees (.begin .pending) [] .fresh :=
    ⟨.begins, rfl, iff_of_true rfl rfl, rfl, Nat.one_pos, fun _ => rfl, rfl⟩
  cases origin with
  | pending => exact ⟨_, _, made⟩
  | ready outcome =>
      obtain ⟨more, last, settled⟩ := made.complete outcome
      exact ⟨_, _, settled⟩
  | worker outcome? =>
      cases outcome? with
      | none =>
          obtain ⟨more, last, settled⟩ := made.drop
          exact ⟨_, _, settled⟩
      | some outcome =>
          obtain ⟨more, last, settled⟩ := made.complete outcome
          exact ⟨_, _, settled⟩

end Sees

/-- Whatever requests an observation answers, it stands as some shared operation does. -/
theorem exists_sees
    (origin : Origin)
    (requests : List Request) :
    ∃ events shared, Sees
      (requests.foldl (fun observation request => (observation.answer request).1) (.begin origin))
      events shared := by
  obtain ⟨events, shared, sees⟩ := Sees.ofOrigin origin
  generalize Observation.begin origin = observation at sees ⊢
  induction requests generalizing observation events shared with
  | nil => exact ⟨events, shared, sees⟩
  | cons request requests inductionHypothesis =>
      obtain ⟨more, last, answered⟩ := sees.answer request
      exact inductionHypothesis _ _ _ answered

end Observation
end Operation
end ScriptHost
