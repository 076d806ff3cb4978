import ScriptHost.Proofs.Operation.Sharing

/-!
# The life of an operation

An operation is pending until its completer is used or dropped, and keeps what is recorded
then. Whatever its observers do meanwhile, in whatever order and from within listeners, each
listener fires once: the early ones when the operation settles, in the order in which they
were registered, and the others in their own registrations.
-/

namespace ScriptHost
namespace Operation

variable {ℓ : Type} {events : List (Event ℓ)} {event : Event ℓ} {shared next : Shared ℓ}

/-! ## How the operation stands -/

/-- A shared operation stands as its history tells. -/
structure Stands
    (events : List (Event ℓ))
    (shared : Shared ℓ) : Prop where
  operation_eq : shared.operation = operationAfter events
  unused_iff : shared.completer = .unused ↔ outcomeOf events = none
  registered_eq : shared.registered = (registrations events).length

namespace Stands

/-- Before anything happens, the state stands for it. -/
theorem fresh : Stands ([] : List (Event ℓ)) .fresh :=
  ⟨rfl, iff_of_true rfl rfl, rfl⟩

/-- The completer settles an operation only once. -/
theorem finish
    {outcome : Outcome}
    {completer : Completer}
    (stands : Stands events shared)
    (isUnused : shared.completer = .unused)
    (isEnding : event.ending? = some outcome)
    (isUsed : completer ≠ .unused) :
    Stands (events ++ [event]) (shared.finish outcome completer) := by
  have isPending := stands.unused_iff.mp isUnused
  have recorded := outcomeOf_concat_of_ending isPending isEnding
  refine ⟨?_, iff_of_false isUsed (by rw [recorded]; nofun), ?_⟩
  · change (shared.operation.settle outcome).1 = _
    rw [stands.operation_eq, operationAfter, operationAfter, recorded, isPending]
    rfl
  · rw [registrations_concat_of_none (listener?_eq_none_of_ending isEnding)]
    exact stands.registered_eq

/-- Registering a listener leaves the outcome as it is. -/
theorem register
    {observer : Nat}
    (stands : Stands events shared)
    (listener : ℓ) :
    Stands (events ++ [.registered observer listener]) (shared.register listener) := by
  have sameOutcome : outcomeOf (events ++ [Event.registered observer listener]) =
      outcomeOf events := outcomeOf_concat_of_none (.inl rfl)
  have oneMore : registrations (events ++ [Event.registered observer listener]) =
      registrations events ++ [listener] := registrations_concat ..
  refine ⟨?_, by rw [sameOutcome]; exact stands.unused_iff, ?_⟩
  · change (shared.operation.listen listener).1 = _
    rw [stands.operation_eq, operationAfter, operationAfter, sameOutcome, oneMore]
    cases outcomeOf events <;> rfl
  · rw [oneMore, List.length_append, ← stands.registered_eq]
    rfl

/-- Nothing else changes how the operation stands. -/
theorem same
    (stands : Stands events shared)
    (noListener : event.listener? = none)
    (noEnding : event.ending? = none ∨ (outcomeOf events).isSome = true)
    (sameOperation : next.operation = shared.operation)
    (sameCompleter : next.completer = .unused ↔ shared.completer = .unused)
    (sameRegistered : next.registered = shared.registered) :
    Stands (events ++ [event]) next := by
  have sameOutcome := outcomeOf_concat_of_none noEnding
  have sameRegistrations : registrations (events ++ [event]) = registrations events :=
    registrations_concat_of_none noListener
  refine ⟨?_, ?_, ?_⟩
  · rw [sameOperation, stands.operation_eq, operationAfter, operationAfter, sameOutcome,
      sameRegistrations]
  · rw [sameCompleter, sameOutcome, stands.unused_iff]
  · rw [sameRegistered, sameRegistrations, stands.registered_eq]

/-- An outcome is recorded once the completer is not unused. -/
theorem isSome_of_ne
    (stands : Stands events shared)
    (isUsed : shared.completer ≠ .unused) :
    (outcomeOf events).isSome = true :=
  Option.isSome_iff_ne_none.mpr fun isPending => isUsed (stands.unused_iff.mpr isPending)

end Stands

/-- After each step, the state stands for what has happened. -/
theorem Step.stands
    (step : Step shared event next)
    (stands : Stands events shared) :
    Stands (events ++ [event]) next := by
  cases step with
  | uses outcome isUnused => exact stands.finish isUnused rfl nofun
  | abandons isUnused => exact stands.finish isUnused rfl nofun
  | drops isUsedUp =>
      have isUsed : shared.completer ≠ .unused := by rw [isUsedUp]; nofun
      exact stands.same rfl (.inr (stands.isSome_of_ne isUsed)) rfl
        (iff_of_false nofun isUsed) rfl
  | registers observer listener isThere => exact stands.register listener
  | fires | returns | reads | clones | leaves =>
      exact stands.same rfl (.inl rfl) rfl .rfl rfl

/-- After every history, the state stands for it. -/
theorem After.stands (after : After events shared) : Stands events shared := by
  induction after with
  | begins => exact .fresh
  | goesOn _ step inductionHypothesis => exact step.stands inductionHypothesis

/-! ## What the calls let fire -/

/-- The calls under way still owe what is due in them, and the others owe nothing. -/
structure Owes
    (events : List (Event ℓ))
    (shared : Shared ℓ) : Prop where
  owed_eq : ∀ call, owed events call = firings call events ++ (shared.due call).getD []
  hasBegun : ∀ call, (shared.due call).isSome = true → HasBegun events call
  returned : ∀ call, .returned call ∈ events → HasBegun events call ∧ shared.due call = none

/-- A call that has begun has begun, whatever follows. -/
theorem HasBegun.append
    {call : Call}
    (hasBegun : HasBegun events call)
    (more : List (Event ℓ)) :
    HasBegun (events ++ more) call := by
  cases call with
  | completion =>
      change outcomeOf _ ≠ none
      rw [outcomeOf_append, Option.or_of_isSome (Option.isSome_iff_ne_none.mpr hasBegun)]
      exact hasBegun
  | registration number =>
      change number < (registrations (events ++ more)).length
      rw [registrations, List.filterMap_append, List.length_append]
      exact Nat.lt_add_right _ hasBegun

namespace Owes

/-- Before anything happens, nothing is owed. -/
theorem fresh : Owes ([] : List (Event ℓ)) .fresh where
  owed_eq := owed_of_outcomeOf_eq_none rfl
  hasBegun _ absurdity := nomatch absurdity
  returned _ absurdity := nomatch absurdity

/-- A call that is made owes what has to fire in it. -/
theorem make
    (owes : Owes events shared)
    (call : Call)
    (list : List ℓ)
    (noReturn : ∀ call, event ≠ .returned call)
    (noFiring : ∀ call, event.firedIn? call = none)
    (isNew : ¬ HasBegun events call)
    (hasBegun : HasBegun (events ++ [event]) call)
    (changed : ∀ other, owed (events ++ [event]) other =
      if other = call then list else owed events other)
    (nothingOwed : owed events call = [])
    (isMade : next.due = (shared.setDue call (some list)).due) :
    Owes (events ++ [event]) next := by
  have returned_iff : ∀ other, .returned other ∈ events ++ [event] ↔ .returned other ∈ events := by
    intro other
    rw [List.mem_append, List.mem_singleton, or_iff_left (noReturn other).symm]
  refine ⟨?_, ?_, ?_⟩
  · intro other
    rw [changed, firings_concat, noFiring, Option.toList_none, List.append_nil, isMade]
    by_cases same : other = call
    · have noneFired := owes.owed_eq call
      rw [nothingOwed] at noneFired
      rw [same, if_pos rfl, Shared.due_setDue_self, (List.append_eq_nil_iff.mp noneFired.symm).1]
      rfl
    · rw [if_neg same, Shared.due_setDue_of_ne same, owes.owed_eq]
  · intro other isDue
    by_cases same : other = call
    · rw [same]
      exact hasBegun
    · rw [isMade, Shared.due_setDue_of_ne same] at isDue
      exact (owes.hasBegun other isDue).append _
  · intro other hasReturned
    obtain ⟨begun, isDone⟩ := owes.returned other ((returned_iff other).mp hasReturned)
    refine ⟨begun.append _, ?_⟩
    rw [isMade, Shared.due_setDue_of_ne (by rintro rfl; exact isNew begun), isDone]

/-- A call under way goes on: what was due in it is what fires now and what is due then. -/
theorem goOn
    {call : Call}
    {list : List ℓ}
    {list? : Option (List ℓ)}
    (owes : Owes events shared)
    (isDue : shared.due call = some list)
    (isFired : list = (event.firedIn? call).toList ++ list?.getD [])
    (isOfCall : event.listener? = none ∧ event.ending? = none)
    (noOther : ∀ other, other ≠ call → event.firedIn? other = none ∧ event ≠ .returned other)
    (isOver : event = .returned call → list? = none) :
    Owes (events ++ [event]) (shared.setDue call list?) := by
  have begun := (owes.hasBegun call (by rw [isDue]; rfl)).append [event]
  refine ⟨?_, ?_, ?_⟩
  · intro other
    rw [owed_concat_of_none isOfCall.1 (.inl isOfCall.2), firings_concat, owes.owed_eq]
    by_cases same : other = call
    · rw [same, isDue, Shared.due_setDue_self, List.append_assoc, Option.getD_some, isFired]
    · rw [Shared.due_setDue_of_ne same, (noOther other same).1, Option.toList_none,
        List.append_nil]
  · intro other isUnderWay
    by_cases same : other = call
    · rw [same]
      exact begun
    · rw [Shared.due_setDue_of_ne same] at isUnderWay
      exact (owes.hasBegun other isUnderWay).append _
  · intro other hasReturned
    rw [List.mem_append, List.mem_singleton] at hasReturned
    by_cases same : other = call
    · rw [same, Shared.due_setDue_self]
      have isReturned := hasReturned.resolve_left fun before => by
        have isDone := (owes.returned other before).2
        rw [same, isDue] at isDone
        cases isDone
      exact ⟨begun, isOver (same ▸ isReturned.symm)⟩
    · obtain ⟨begun, isDone⟩ :=
        owes.returned other (hasReturned.resolve_right (noOther other same).2.symm)
      exact ⟨begun.append _, (Shared.due_setDue_of_ne same ..).trans isDone⟩

/-- Nothing else changes what the calls owe. -/
theorem same
    (owes : Owes events shared)
    (noListener : event.listener? = none)
    (noEnding : event.ending? = none ∨ (outcomeOf events).isSome = true)
    (noReturn : ∀ call, event ≠ .returned call)
    (noFiring : ∀ call, event.firedIn? call = none)
    (sameDue : next.due = shared.due) :
    Owes (events ++ [event]) next := by
  refine ⟨?_, ?_, ?_⟩
  · intro call
    rw [owed_concat_of_none noListener noEnding, firings_concat, noFiring, sameDue, owes.owed_eq,
      Option.toList_none, List.append_nil]
  · intro call isUnderWay
    rw [sameDue] at isUnderWay
    exact (owes.hasBegun call isUnderWay).append _
  · intro call hasReturned
    rw [List.mem_append, List.mem_singleton, or_iff_left (noReturn call).symm] at hasReturned
    obtain ⟨begun, isDone⟩ := owes.returned call hasReturned
    exact ⟨begun.append _, sameDue ▸ isDone⟩

/-- The call that settles the operation owes all listeners that waited. -/
theorem finish
    {outcome : Outcome}
    {completer : Completer}
    (owes : Owes events shared)
    (stands : Stands events shared)
    (isUnused : shared.completer = .unused)
    (isEnding : event.ending? = some outcome)
    (noReturn : ∀ call, event ≠ .returned call)
    (noFiring : ∀ call, event.firedIn? call = none) :
    Owes (events ++ [event]) (shared.finish outcome completer) := by
  have isPending := stands.unused_iff.mp isUnused
  refine owes.make .completion (registrations events) noReturn noFiring
    (fun hasBegun => hasBegun isPending) ?_ ?_ (owed_of_outcomeOf_eq_none isPending _) ?_
  · change outcomeOf _ ≠ none
    rw [outcomeOf_concat_of_ending isPending isEnding]
    nofun
  · intro other
    rw [owed_concat_of_ending isPending isEnding, owed_of_outcomeOf_eq_none isPending]
  · change (shared.setDue .completion (some (shared.operation.settle outcome).2)).due = _
    rw [stands.operation_eq, operationAfter, isPending]
    rfl

/-- The registration of a listener owes that listener if it comes too late. -/
theorem register
    {observer : Nat}
    (owes : Owes events shared)
    (stands : Stands events shared)
    (listener : ℓ) :
    Owes (events ++ [.registered observer listener]) (shared.register listener) := by
  have oneMore : registrations (events ++ [Event.registered observer listener]) =
      registrations events ++ [listener] := registrations_concat ..
  refine owes.make (.registration (registrations events).length)
    (if (outcomeOf events).isSome then [listener] else [])
    nofun (fun _ => rfl) (Nat.lt_irrefl _) ?_ ?_ (owed_registration_of_le (Nat.le_refl _)) ?_
  · change (registrations events).length < (registrations (events ++ [_])).length
    rw [oneMore, List.length_append]
    exact Nat.lt_succ_self _
  · intro other
    cases isRecorded : outcomeOf events with
    | none =>
        have stillPending : outcomeOf (events ++ [Event.registered observer listener]) = none :=
          (outcomeOf_concat_of_none (.inl rfl)).trans isRecorded
        rw [owed_of_outcomeOf_eq_none stillPending, owed_of_outcomeOf_eq_none isRecorded]
        exact (ite_self _).symm
    | some outcome =>
        exact owed_concat_of_registered listener (by rw [isRecorded]; rfl) other
  · change (shared.setDue (.registration shared.registered)
      (some (if (shared.operation.listen listener).2 then [listener] else []))).due = _
    rw [stands.registered_eq, stands.operation_eq, operationAfter]
    cases outcomeOf events <;> rfl

end Owes

/-- After each step, what is owed is what was registered and has not fired. -/
theorem Step.owes
    (step : Step shared event next)
    (stands : Stands events shared)
    (owes : Owes events shared) :
    Owes (events ++ [event]) next := by
  cases step with
  | uses outcome isUnused => exact owes.finish stands isUnused rfl nofun (fun _ => rfl)
  | abandons isUnused => exact owes.finish stands isUnused rfl nofun (fun _ => rfl)
  | drops isUsedUp =>
      have isUsed : shared.completer ≠ .unused := by rw [isUsedUp]; nofun
      exact owes.same rfl (.inr (stands.isSome_of_ne isUsed)) nofun (fun _ => rfl) rfl
  | registers observer listener isThere => exact owes.register stands listener
  | fires call isDue =>
      refine owes.goOn isDue ?_ ⟨rfl, rfl⟩ (fun other isOther => ⟨?_, nofun⟩) nofun
      · rw [Event.firedIn?, if_pos rfl]
        rfl
      · exact if_neg isOther.symm
  | returns call isDone =>
      refine owes.goOn isDone rfl ⟨rfl, rfl⟩ (fun other isOther => ⟨rfl, ?_⟩) fun _ => rfl
      exact fun same => isOther (Event.returned.inj same).symm
  | reads | clones | leaves => exact owes.same rfl (.inl rfl) nofun (fun _ => rfl) rfl

/-- After every history, what is owed is what was registered and has not fired. -/
theorem After.owes (after : After events shared) : Owes events shared := by
  induction after with
  | begins => exact .fresh
  | goesOn after step inductionHypothesis => exact step.owes after.stands inductionHypothesis

/-- A call under way can always go on to its end: its listeners fire one by one, and then it
returns. -/
theorem After.finishCall
    {call : Call}
    {list : List ℓ}
    (after : After events shared)
    (isDue : shared.due call = some list) :
    After (events ++ (list.map (.fired call) ++ [.returned call])) (shared.setDue call none) := by
  induction list generalizing events shared with
  | nil => exact after.goesOn (.returns call isDue)
  | cons listener rest inductionHypothesis =>
      have fired := after.goesOn (.fires call isDue)
      have finished := inductionHypothesis fired (Shared.due_setDue_self ..)
      rw [List.append_assoc, Shared.setDue_setDue] at finished
      exact finished

/-- Calls that are under way can go on to their ends, one after the other. -/
private theorem After.exists_idle_of_mem
    {calls : List Call}
    (after : After events shared)
    (underWay : ∀ call, (shared.due call).isSome = true → call ∈ calls) :
    ∃ more last, After (events ++ more) last ∧ (∀ event ∈ more, event.isOfCall = true) ∧
      last.operation = shared.operation ∧ ∀ call, last.due call = none := by
  induction calls generalizing events shared with
  | nil =>
      refine ⟨[], shared, by rwa [List.append_nil], nofun, rfl, fun call => ?_⟩
      rw [← Option.not_isSome_iff_eq_none]
      exact fun isUnderWay => List.not_mem_nil (underWay call isUnderWay)
  | cons call calls inductionHypothesis =>
      cases isDue : shared.due call with
      | none =>
          apply inductionHypothesis after
          intro other isUnderWay
          refine (List.mem_cons.mp (underWay other isUnderWay)).resolve_left ?_
          rintro rfl
          rw [isDue] at isUnderWay
          cases isUnderWay
      | some list =>
          obtain ⟨more, last, after, ofCalls, sameOperation, idle⟩ :=
            inductionHypothesis (after.finishCall isDue) (by
              intro other isUnderWay
              by_cases same : other = call
              · rw [same, Shared.due_setDue_self] at isUnderWay
                cases isUnderWay
              · rw [Shared.due_setDue_of_ne same] at isUnderWay
                exact (List.mem_cons.mp (underWay other isUnderWay)).resolve_left same)
          rw [List.append_assoc] at after
          refine ⟨_, last, after, ?_, sameOperation, idle⟩
          intro event member
          rw [List.mem_append, List.mem_append, List.mem_map, List.mem_singleton] at member
          rcases member with (⟨listener, -, rfl⟩ | rfl) | member
          · rfl
          · rfl
          · exact ofCalls event member

/-- All calls under way can go on to their ends while nothing else happens. -/
theorem After.exists_idle (after : After events shared) :
    ∃ more last, After (events ++ more) last ∧ (∀ event ∈ more, event.isOfCall = true) ∧
      last.operation = shared.operation ∧ ∀ call, last.due call = none := by
  have underWay : ∀ call, (shared.due call).isSome = true →
      call ∈ .completion :: (List.range (registrations events).length).map .registration := by
    intro call isUnderWay
    have hasBegun := after.owes.hasBegun call isUnderWay
    cases call with
    | completion => exact List.mem_cons_self
    | registration number =>
        exact List.mem_cons_of_mem _ (List.mem_map_of_mem (List.mem_range.mpr hasBegun))
  exact after.exists_idle_of_mem underWay

/-! ## One outcome -/

/-- An operation is pending until its completer is used or dropped, and what is recorded then
is what everybody sees from then on. A completer that is dropped unused records that the
operation was abandoned, and so does a worker that says so itself. -/
structure SettlesOnce
    (events : List (Event ℓ))
    (shared : Shared ℓ) : Prop where
  pending_iff_unused : shared.operation.status = .pending ↔ shared.completer = .unused
  pending_iff : shared.operation.status = .pending ↔ ∀ event ∈ events, event.ending? = none
  ofUsed : ∀ outcome, .used outcome ∈ events → shared.operation.outcome? = some outcome
  abandoned_iff : shared.operation.outcome? = some (.error .abandoned) ↔
    (.dropped ∈ events ∧ ∀ outcome, .used outcome ∉ events) ∨ .used (.error .abandoned) ∈ events
  stays : ∀ past rest earlier, events = past ++ rest → After past earlier →
    earlier.operation.status ≠ .pending → shared.operation = earlier.operation
  reads : ∀ past observer reading rest, events = past ++ .read observer reading :: rest →
    ∃ earlier, After past earlier ∧ reading.Fits earlier.operation ∧
      ∀ outcome, reading.seen? = some outcome → shared.operation.outcome? = some outcome

theorem outcome?_operationAfter (events : List (Event ℓ)) :
    (operationAfter events).outcome? = outcomeOf events := by
  rw [operationAfter]
  cases outcomeOf events <;> rfl

/-- An operation is pending as long as it has no outcome. -/
theorem status_operationAfter_eq_pending_iff (events : List (Event ℓ)) :
    (operationAfter events).status = .pending ↔ outcomeOf events = none := by
  rw [status, outcome?_operationAfter]
  cases outcomeOf events with
  | none => exact iff_of_true rfl rfl
  | some outcome => cases outcome <;> exact iff_of_false nofun nofun

/-- What was recorded once is recorded for good. -/
theorem operationAfter_append_of_isSome
    (isSettled : (outcomeOf events).isSome = true)
    (more : List (Event ℓ)) :
    operationAfter (events ++ more) = operationAfter events := by
  obtain ⟨outcome, isRecorded⟩ := Option.isSome_iff_exists.mp isSettled
  rw [operationAfter, operationAfter, outcomeOf_append, isRecorded]
  rfl

/-- A completer is used only if nothing was recorded before. -/
theorem After.outcomeOf_of_used
    {outcome : Outcome}
    (after : After events shared)
    (isUsed : .used outcome ∈ events) :
    outcomeOf events = some outcome := by
  obtain ⟨past, rest, rfl⟩ := List.append_of_mem isUsed
  obtain ⟨earlier, next, before, step⟩ := after.exists_step
  cases step with
  | uses _ isUnused =>
      rw [outcomeOf_append, before.stands.unused_iff.mp isUnused]
      rfl

/-- What is recorded was brought by a completer that was used, or dropped unused. -/
theorem After.outcomeOf_eq_abandoned_iff (after : After events shared) :
    outcomeOf events = some (.error .abandoned) ↔
      (.dropped ∈ events ∧ ∀ outcome, .used outcome ∉ events) ∨
        .used (.error .abandoned) ∈ events := by
  constructor
  · intro isAbandoned
    obtain ⟨event, member, isEnding⟩ := List.exists_of_findSome?_eq_some isAbandoned
    cases event with
    | used outcome => exact .inr (Option.some.inj isEnding ▸ member)
    | dropped =>
        by_cases isUsed : ∃ outcome, .used outcome ∈ events
        · obtain ⟨outcome, isUsed⟩ := isUsed
          have same := (after.outcomeOf_of_used isUsed).symm.trans isAbandoned
          exact .inr (Option.some.inj same ▸ isUsed)
        · exact .inl ⟨member, fun outcome isUsed' => isUsed ⟨outcome, isUsed'⟩⟩
    | _ => cases isEnding
  · rintro (⟨isDropped, unused⟩ | isUsed)
    · cases isRecorded : outcomeOf events with
      | none => cases outcomeOf_eq_none_iff.mp isRecorded _ isDropped
      | some outcome =>
          obtain ⟨event, member, isEnding⟩ := List.exists_of_findSome?_eq_some isRecorded
          cases event with
          | used other => exact absurd member (unused other)
          | dropped => exact isEnding.symm
          | _ => cases isEnding
    · exact after.outcomeOf_of_used isUsed

/-- An operation settles once, whatever its threads do. -/
theorem After.settlesOnce (after : After events shared) : SettlesOnce events shared := by
  have stands := after.stands
  refine ⟨?_, ?_, ?_, ?_, ?_, ?_⟩
  · rw [stands.operation_eq, status_operationAfter_eq_pending_iff, stands.unused_iff]
  · rw [stands.operation_eq, status_operationAfter_eq_pending_iff, outcomeOf_eq_none_iff]
  · intro outcome isUsed
    rw [stands.operation_eq, outcome?_operationAfter, after.outcomeOf_of_used isUsed]
  · rw [stands.operation_eq, outcome?_operationAfter, after.outcomeOf_eq_abandoned_iff]
  · rintro past rest earlier rfl before isSettled
    rw [before.stands.operation_eq, Ne, status_operationAfter_eq_pending_iff] at isSettled
    rw [stands.operation_eq, before.stands.operation_eq,
      operationAfter_append_of_isSome (Option.isSome_iff_ne_none.mpr isSettled)]
  · rintro past observer reading rest rfl
    obtain ⟨earlier, next, before, step⟩ := after.exists_step
    cases step with
    | reads _ _ isThere fits =>
        refine ⟨earlier, before, fits, ?_⟩
        intro outcome isSeen
        have isRecorded := fits.outcome?_eq isSeen
        rw [before.stands.operation_eq, outcome?_operationAfter] at isRecorded
        rw [stands.operation_eq, outcome?_operationAfter, outcomeOf_append, isRecorded]
        rfl

/-! ## Every listener once -/

/-- Listeners fire in calls that are under way and never while the operation is pending. In
each call they fire in the order in which they are owed there, and all of them before it
returns. Once the operation is settled and no call is under way, every listener has fired
once, and calls that are under way can always get there. -/
structure FiresOnce
    (events : List (Event ℓ))
    (shared : Shared ℓ) : Prop where
  settled : ∀ past call listener rest, events = past ++ .fired call listener :: rest →
    outcomeOf past ≠ none ∧ HasBegun past call ∧ .returned call ∉ past
  inOrder : ∀ call, firings call events <+: owed events call
  returned : ∀ call, .returned call ∈ events → firings call events = owed events call
  once : shared.operation.status ≠ .pending → (∀ call, shared.due call = none) →
    firings .completion events ++ (List.range (registrations events).length).flatMap
      (fun number => firings (.registration number) events) = registrations events
  ends : ∃ more last, After (events ++ more) last ∧ (∀ event ∈ more, event.isOfCall = true) ∧
    last.operation = shared.operation ∧ ∀ call, last.due call = none

/-- What is due nowhere has fired where it was owed. -/
theorem Owes.firings_eq
    {call : Call}
    (owes : Owes events shared)
    (isDone : shared.due call = none) :
    firings call events = owed events call := by
  rw [owes.owed_eq, isDone, Option.getD_none, List.append_nil]

/-- A listener fires once, whatever the threads do. -/
theorem After.firesOnce (after : After events shared) : FiresOnce events shared := by
  have owes := after.owes
  refine ⟨?_, ?_, ?_, ?_, after.exists_idle⟩
  · rintro past call listener rest rfl
    obtain ⟨earlier, next, before, step⟩ := after.exists_step
    cases step with
    | fires _ isDue =>
        refine ⟨?_, before.owes.hasBegun call (by rw [isDue]; rfl), ?_⟩
        · intro isPending
          have owed := before.owes.owed_eq call
          rw [owed_of_outcomeOf_eq_none isPending, isDue] at owed
          exact absurd owed (by simp)
        · intro hasReturned
          have isDone := (before.owes.returned call hasReturned).2
          rw [isDue] at isDone
          cases isDone
  · intro call
    rw [owes.owed_eq]
    exact List.prefix_append ..
  · intro call hasReturned
    exact owes.firings_eq (owes.returned call hasReturned).2
  · intro isSettled isIdle
    rw [after.stands.operation_eq, Ne, status_operationAfter_eq_pending_iff] at isSettled
    simp only [owes.firings_eq (isIdle _)]
    exact flatMap_owed_eq_registrations (Option.isSome_iff_ne_none.mpr isSettled)

/-- In every interleaving of what the worker and the observers of an operation do, the
operation settles once, and every listener fires once. -/
theorem settlesOnce_and_firesOnce (after : After events shared) :
    SettlesOnce events shared ∧ FiresOnce events shared :=
  ⟨after.settlesOnce, after.firesOnce⟩

/-- A listener is registered in time. A second one comes too late, but before the first one
fires, and a third one is registered while the first one fires. -/
def crossing : List (Event Nat) :=
  [.cloned 0 1, .registered 0 10, .returned (.registration 0), .read 1 (.status .pending),
    .used (.ok .void), .registered 1 20, .fired .completion 10, .registered 0 30,
    .fired (.registration 2) 30, .returned (.registration 2), .fired (.registration 1) 20,
    .returned .completion, .dropped, .returned (.registration 1), .read 1 (.wait (.ok .void))]

theorem exists_after_crossing : ∃ shared, After crossing shared := by
  have inTime := (((After.begins.goesOn (.clones 0 1 (by decide) (by decide))).goesOn
    (.registers 0 10 (by decide))).goesOn (.returns (.registration 0) rfl)).goesOn
    (.reads 1 (.status .pending) (by decide) rfl)
  have tooLate := (inTime.goesOn (.uses (.ok .void) rfl)).goesOn (.registers 1 20 (by decide))
  have nested := (((tooLate.goesOn (.fires .completion rfl)).goesOn
    (.registers 0 30 (by decide))).goesOn (.fires (.registration 2) rfl)).goesOn
    (.returns (.registration 2) rfl)
  have ended := (((nested.goesOn (.fires (.registration 1) rfl)).goesOn
    (.returns .completion rfl)).goesOn (.drops rfl)).goesOn (.returns (.registration 1) rfl)
  exact ⟨_, ended.goesOn (.reads 1 (.wait (.ok .void)) (by decide) rfl)⟩

theorem crossing_settlesOnce_and_firesOnce :
    ∃ shared, After crossing shared ∧ SettlesOnce crossing shared ∧ FiresOnce crossing shared := by
  obtain ⟨shared, after⟩ := exists_after_crossing
  exact ⟨shared, after, settlesOnce_and_firesOnce after⟩

/-- An operation may be abandoned without its completer being dropped unused: a worker may
say that it abandoned its work. -/
theorem not_abandoned_iff_dropped :
    ¬ ∀ (events : List (Event Nat)) (shared : Shared Nat), After events shared →
      (shared.operation.outcome? = some (.error .abandoned) ↔
        .dropped ∈ events ∧ ∀ outcome, .used outcome ∉ events) := by
  intro onlyIfDropped
  have after : After ([.used (.error .abandoned)] : List (Event Nat)) _ :=
    After.begins.goesOn (.uses (.error .abandoned) rfl)
  have isDropped := ((onlyIfDropped _ _ after).mp rfl).1
  simp at isDropped

end Operation
end ScriptHost
