/-!
# Computations that may return

Runs and passes are written for any monad that reaches the host in which they work.
What they do there is told by one relation: started in a state, a computation may
return a value and leave another state. A computation that never returns, or is
interrupted, returns nothing.
-/

namespace ScriptHost

/-- A monad whose computations start in a state and may return in another. -/
class Stateful (m : Type → Type) [Monad m] (σ : outParam Type) where
  /-- Started in the first state, the computation may return the value and leave the
  second state. -/
  Returns {α : Type} : m α → σ → α → σ → Prop
  returns_pure_iff {α : Type} (value : α) (before : σ) (result : α) (after : σ) :
    Returns (pure value) before result after ↔ result = value ∧ after = before
  returns_bind_iff {α β : Type} (first : m α) (next : α → m β)
      (before : σ) (result : β) (after : σ) :
    Returns (first >>= next) before result after ↔
      ∃ value between, Returns first before value between ∧
        Returns (next value) between result after

namespace Stateful

/-- A state computation returns what its function gives. -/
instance (σ : Type) : Stateful (StateM σ) σ where
  Returns computation before value after := computation.run before = (value, after)
  returns_pure_iff value before result after := by
    constructor
    · intro returned
      cases returned
      exact ⟨rfl, rfl⟩
    · rintro ⟨rfl, rfl⟩
      rfl
  returns_bind_iff first next before result after := by
    constructor
    · intro returned
      exact ⟨(first.run before).1, (first.run before).2, rfl, returned⟩
    · rintro ⟨value, between, firstReturned, nextReturned⟩
      change (next (first.run before).1).run (first.run before).2 = (result, after)
      rw [firstReturned]
      exact nextReturned

theorem returns_run
    {σ α : Type}
    (computation : StateM σ α)
    (before : σ) :
    Returns computation before (computation.run before).1 (computation.run before).2 :=
  rfl

/-! ## Computations that do return -/

section Concluding

variable {m : Type → Type} [Monad m] {σ : Type} [Stateful m σ] {α β : Type}

/-- Started in the first state, the computation returns, always with the value and in the
second state. What is up to a host is part of its state. -/
def Concludes
    (computation : m α)
    (before : σ)
    (value : α)
    (after : σ) : Prop :=
  ∀ result last, Returns computation before result last ↔ result = value ∧ last = after

/-- What a computation concludes with is what it returns. -/
theorem Concludes.returns
    {computation : m α}
    {before after : σ}
    {value : α}
    (concludes : Concludes computation before value after) :
    Returns computation before value after :=
  (concludes value after).mpr ⟨rfl, rfl⟩

theorem concludes_pure
    (value : α)
    (state : σ) :
    Concludes (pure value : m α) state value state :=
  fun result last => returns_pure_iff value state result last

/-- Two computations conclude one after the other. -/
theorem Concludes.bind
    {first : m α}
    {next : α → m β}
    {before between after : σ}
    {value : α}
    {result : β}
    (concludesFirst : Concludes first before value between)
    (concludesNext : Concludes (next value) between result after) :
    Concludes (first >>= next) before result after := by
  intro other last
  rw [returns_bind_iff, ← concludesNext other last]
  constructor
  · rintro ⟨found, middle, returned, goesOn⟩
    obtain ⟨rfl, rfl⟩ := (concludesFirst found middle).mp returned
    exact goesOn
  · exact fun goesOn => ⟨value, between, concludesFirst.returns, goesOn⟩

theorem concludes_run
    {σ : Type}
    (computation : StateM σ α)
    (before : σ) :
    Concludes computation before (computation.run before).1 (computation.run before).2 := by
  intro result last
  change computation.run before = (result, last) ↔ _
  constructor
  · intro returned
    rw [returned]
    exact ⟨rfl, rfl⟩
  · rintro ⟨rfl, rfl⟩
    rfl

/-- With enough fuel a computation concludes, and more fuel makes no difference. -/
def ConcludesInTime
    (computation : Nat → m α)
    (before : σ)
    (value : α)
    (after : σ) : Prop :=
  ∃ least, ∀ fuel, least ≤ fuel → Concludes (computation fuel) before value after

/-- What needs no fuel concludes in time. -/
theorem Concludes.inTime
    {computation : m α}
    {before after : σ}
    {value : α}
    (concludes : Concludes computation before value after) :
    ConcludesInTime (fun _ => computation) before value after :=
  ⟨0, fun _ _ => concludes⟩

/-- One round of fuel is used up. -/
theorem ConcludesInTime.ofSucc
    {computation : Nat → m α}
    {before after : σ}
    {value : α}
    (concludes : ConcludesInTime (fun fuel => computation (fuel + 1)) before value after) :
    ConcludesInTime computation before value after := by
  obtain ⟨least, concludes⟩ := concludes
  refine ⟨least + 1, fun fuel isEnough => ?_⟩
  obtain ⟨fuel, rfl⟩ := Nat.exists_eq_add_of_lt isEnough
  exact concludes (least + fuel) (Nat.le_add_right ..)

/-- Computations that conclude in time do so one after the other. -/
theorem ConcludesInTime.bind
    {first : Nat → m α}
    {next : Nat → α → m β}
    {before between after : σ}
    {value : α}
    {result : β}
    (concludesFirst : ConcludesInTime first before value between)
    (concludesNext : ConcludesInTime (fun fuel => next fuel value) between result after) :
    ConcludesInTime (fun fuel => first fuel >>= next fuel) before result after := by
  obtain ⟨enough, concludesFirst⟩ := concludesFirst
  obtain ⟨more, concludesNext⟩ := concludesNext
  refine ⟨max enough more, fun fuel isEnough => ?_⟩
  obtain ⟨isEnoughFirst, isEnoughNext⟩ := Nat.max_le.mp isEnough
  exact (concludesFirst fuel isEnoughFirst).bind (concludesNext fuel isEnoughNext)

end Concluding

end Stateful
end ScriptHost
