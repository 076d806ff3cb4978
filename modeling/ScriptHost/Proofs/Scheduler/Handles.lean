import ScriptHost.Proofs.Registry
import ScriptHost.Proofs.Scheduler.Rounds

/-!
# Handles of a run

Whoever is handed a callback gives up the handle that it holds. From then on the key of
the handle is not live, unless the registry gives the same key a second time. A registry
counts its keys up, so that it does so only after it has given every other key.
-/

namespace ScriptHost
namespace Scheduler

variable {α κ ε : Type}

/-- The handle that the host is given for good: with a completion, or to be given up. -/
def Event.handed?
    (held : κ → Option HandleKey) : Event α κ ε → Option HandleKey
  | dispatched completion => held completion.callback
  | discarded callback => held callback
  | _ => none

/-- The key that a registry gives in an event. -/
def Event.given?
    (registry : Registry α) : Event α κ ε → Option HandleKey
  | moved (.register callable) => some (registry.register callable).2
  | _ => none

/-- The keys that a registry gives while something happens, in order. -/
def keysGiven
    (registry : Registry α) : List (Event α κ ε) → List HandleKey
  | [] => []
  | event :: events =>
      (event.given? registry).toList ++ keysGiven (event.onRegistry registry) events

/-- Every handle that the host is given is given up afterwards. -/
def GivesUp
    (held : κ → Option HandleKey) : List (Event α κ ε) → Prop
  | [] => True
  | event :: events =>
      (∀ key, event.handed? held = some key → .moved (.release key) ∈ events) ∧
        GivesUp held events

/-! ## Keys that are live later -/

theorem registryAfter_append
    (registry : Registry α)
    (first second : List (Event α κ ε)) :
    registryAfter registry (first ++ second) =
      registryAfter (registryAfter registry first) second :=
  List.foldl_append ..

theorem keysGiven_append
    (registry : Registry α)
    (first second : List (Event α κ ε)) :
    keysGiven registry (first ++ second) =
      keysGiven registry first ++ keysGiven (registryAfter registry first) second := by
  induction first generalizing registry with
  | nil => rfl
  | cons event first inductionHypothesis =>
      rw [List.cons_append, keysGiven, inductionHypothesis, keysGiven, List.append_assoc]
      rfl

/-- A key that is live after an event was live before it, or is given in it. -/
theorem contains_onRegistry
    {registry : Registry α}
    {event : Event α κ ε}
    {key : HandleKey}
    (isLive : (event.onRegistry registry).contains key = true) :
    registry.contains key = true ∨ event.given? registry = some key := by
  cases event with
  | moved move =>
      cases move with
      | register callable =>
          exact ((registry.contains_register callable key).mp isLive).imp_right
            fun same => congrArg some same.symm
      | release released => exact Or.inl ((registry.contains_release released key).mp isLive).1
      | releaseAll => cases (registry.contains_releaseAll key).symm.trans isLive
      | _ => exact Or.inl isLive
  | _ => exact Or.inl isLive

theorem contains_registryAfter
    {registry : Registry α}
    {events : List (Event α κ ε)}
    {key : HandleKey}
    (isLive : (registryAfter registry events).contains key = true) :
    registry.contains key = true ∨ key ∈ keysGiven registry events := by
  induction events generalizing registry with
  | nil => exact Or.inl isLive
  | cons event events inductionHypothesis =>
      rcases inductionHypothesis isLive with wasLive | isGiven
      · rcases contains_onRegistry wasLive with wasLive | isGiven
        · exact Or.inl wasLive
        · exact Or.inr (List.mem_append_left _ (isGiven ▸ List.mem_cons_self))
      · exact Or.inr (List.mem_append_right _ isGiven)

/-- A key that is given up is live later only if it is given again. -/
theorem mem_keysGiven_of_released
    {registry : Registry α}
    {events : List (Event α κ ε)}
    {key : HandleKey}
    (isReleased : .moved (.release key) ∈ events)
    (isLive : (registryAfter registry events).contains key = true) :
    key ∈ keysGiven registry events := by
  obtain ⟨first, second, rfl⟩ := List.append_of_mem isReleased
  rw [registryAfter_append] at isLive
  rw [keysGiven_append]
  refine List.mem_append_right _ ?_
  change (registryAfter ((registryAfter registry first).release key) second).contains key = true
    at isLive
  rcases contains_registryAfter isLive with wasLive | isGiven
  · exact absurd rfl ((Registry.contains_release ..).mp wasLive).2
  · exact List.mem_append_right _ isGiven

/-! ## Giving up -/

theorem givesUp_append
    {held : κ → Option HandleKey}
    {first second : List (Event α κ ε)}
    (firstGivesUp : GivesUp held first)
    (secondGivesUp : GivesUp held second) :
    GivesUp held (first ++ second) := by
  induction first with
  | nil => exact secondGivesUp
  | cons event first inductionHypothesis =>
      exact ⟨fun key isHanded => List.mem_append_left _ (firstGivesUp.1 key isHanded),
        inductionHypothesis firstGivesUp.2⟩

/-- A handle that is given at some point is given up after it. -/
theorem GivesUp.mem_release
    {held : κ → Option HandleKey}
    {past rest : List (Event α κ ε)}
    {event : Event α κ ε}
    {key : HandleKey}
    (givesUp : GivesUp held (past ++ event :: rest))
    (isHanded : event.handed? held = some key) :
    .moved (.release key) ∈ rest := by
  induction past with
  | nil => exact givesUp.1 key isHanded
  | cons first past inductionHypothesis => exact inductionHypothesis givesUp.2

/-- Events in which the host is given no handle. -/
private theorem givesUp_of_none
    {held : κ → Option HandleKey}
    {events : List (Event α κ ε)}
    (noneHanded : ∀ event ∈ events, event.handed? held = none) :
    GivesUp held events := by
  induction events with
  | nil => trivial
  | cons event events inductionHypothesis =>
      refine ⟨fun key isHanded => ?_, inductionHypothesis fun other member =>
        noneHanded other (.tail _ member)⟩
      rw [noneHanded event List.mem_cons_self] at isHanded
      cases isHanded

private theorem handed?_of_mem_moves
    {held : κ → Option HandleKey}
    {list : List (Move α)}
    {event : Event α κ ε}
    (member : event ∈ moves list) :
    event.handed? held = none := by
  obtain ⟨move, -, rfl⟩ := List.mem_map.mp member
  rfl

private theorem handed?_of_mem_moves_concat
    {held : κ → Option HandleKey}
    {list : List (Move α)}
    {last event : Event α κ ε}
    (noneHanded : last.handed? held = none)
    (member : event ∈ moves list ++ [last]) :
    event.handed? held = none := by
  rcases List.mem_append.mp member with isMove | isLast
  · exact handed?_of_mem_moves isMove
  · rwa [List.mem_singleton.mp isLast]

section Rounds

variable {mailbox : MailboxId} {held : κ → Option HandleKey}
variable {world next : World α κ ε} {run nextRun : Run κ ε} {events : List (Event α κ ε)}

theorem Round.givesUp
    (round : Round mailbox held world run events next nextRun) :
    GivesUp held events := by
  cases round with
  | waits list spares _ =>
      exact givesUp_of_none (List.forall_mem_cons.mpr ⟨rfl, fun _ => handed?_of_mem_moves⟩)
  | admits list admission spares _ _ _ =>
      exact givesUp_of_none (List.forall_mem_cons.mpr
        ⟨rfl, fun _ => handed?_of_mem_moves_concat rfl⟩)
  | finishes list spares _ =>
      exact givesUp_of_none (List.forall_mem_cons.mpr
        ⟨rfl, fun _ => handed?_of_mem_moves_concat rfl⟩)
  | refuses list error spares _ =>
      exact givesUp_of_none (List.forall_mem_cons.mpr
        ⟨rfl, fun _ => handed?_of_mem_moves_concat rfl⟩)
  | delivers list completion result spares usesUp announced =>
      refine ⟨fun key isHanded => ?_, givesUp_of_none fun _ => handed?_of_mem_moves_concat rfl⟩
      exact List.mem_append_left _ (List.mem_map_of_mem (usesUp key isHanded))
  | discards list callback spares usesUp =>
      refine ⟨fun key isHanded => ?_, givesUp_of_none fun _ => handed?_of_mem_moves⟩
      exact List.mem_map_of_mem (usesUp key isHanded)

theorem Rounds.givesUp
    (rounds : Rounds mailbox held world run events next nextRun) :
    GivesUp held events := by
  induction rounds with
  | none => trivial
  | more round _ inductionHypothesis => exact givesUp_append round.givesUp inductionHypothesis

/-- Only the host uses its registry. -/
theorem Rounds.registry_eq
    (rounds : Rounds mailbox held world run events next nextRun) :
    next.registry = registryAfter world.registry events := by
  induction rounds with
  | none => rfl
  | more round _ inductionHypothesis =>
      rw [inductionHypothesis, registryAfter_append]
      congr 1
      cases round with
      | admits _ _ _ _ isNoted => rw [isNoted, World.registry_noteAll]
      | _ => exact World.registry_noteAll ..

/-- A handle that the host is given is not live at the end, unless the registry gives its
key a second time. -/
theorem Rounds.mem_keysGiven_of_handed
    {past rest : List (Event α κ ε)}
    {event : Event α κ ε}
    {key : HandleKey}
    (rounds : Rounds mailbox held world run (past ++ event :: rest) next nextRun)
    (isHanded : event.handed? held = some key)
    (isLive : next.registry.contains key = true) :
    key ∈ keysGiven (registryAfter world.registry past) rest := by
  have isReleased := rounds.givesUp.mem_release isHanded
  rw [rounds.registry_eq, registryAfter_append] at isLive
  have unchanged : event.onRegistry (registryAfter world.registry past) =
      registryAfter world.registry past := by
    cases event with
    | dispatched completion => rfl
    | discarded callback => rfl
    | _ => cases isHanded
  refine mem_keysGiven_of_released isReleased ?_
  rwa [← unchanged]

end Rounds

end Scheduler
end ScriptHost
