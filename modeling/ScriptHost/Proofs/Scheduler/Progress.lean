import ScriptHost.Proofs.Scheduler.Cooperation
import ScriptHost.Proofs.Scheduler.Reports

/-!
# Progress

A run never stands in its own way. Whenever it waits, it waits for an operation that will be
announced to it when it settles. So it ends if the host does its part: if every call of the
host returns, if the source yields so many operations and no more, and if, while the run waits
and nothing that it waits for is settled and announced, some of that comes about in the end.
In which order operations settle, and whether they do so before they are taken in or while the
host is asked or handed something, makes no difference.
-/

namespace ScriptHost
namespace Scheduler

open Stateful

variable {m : Type → Type} [Monad m] {σ : Type} [Stateful m σ] {α κ ε : Type}

/-! ## Waits -/

/-- Whenever a run waits it is idle. -/
def WaitsIdle
    (start : Board)
    (limit : Nat)
    (past events : List (Event α κ ε)) : Prop :=
  ∀ before rest, events = before ++ .waited :: rest →
    ∃ desk, Moment start limit (past ++ before) desk ∧ Idle (past ++ before) desk

section WaitsIdle

variable {start : Board} {limit : Nat} {past first second : List (Event α κ ε)}

/-- Where nothing waits, nothing waits idly. -/
theorem waitsIdle_of_not_mem (noWait : .waited ∉ first) : WaitsIdle start limit past first := by
  rintro before rest rfl
  exact absurd (List.mem_append_right _ List.mem_cons_self) noWait

/-- Whoever is idle whenever they wait is so in two stretches of time. -/
theorem WaitsIdle.append
    (firstIdle : WaitsIdle start limit past first)
    (secondIdle : WaitsIdle start limit (past ++ first) second) :
    WaitsIdle start limit past (first ++ second) := by
  intro before rest split
  rcases List.append_eq_append_iff.mp split with ⟨later, rfl, isLater⟩ | ⟨later, isFirst, isLater⟩
  · rw [← List.append_assoc]
    exact secondIdle later rest isLater
  · cases later with
    | nil =>
        rw [List.append_nil] at isFirst
        subst isFirst
        rw [← List.append_nil (past ++ first)]
        exact secondIdle [] rest isLater.symm
    | cons event later =>
        obtain ⟨rfl, rfl⟩ := List.cons.inj isLater
        exact firstIdle before later isFirst

end WaitsIdle

section Loops

variable {env : Environment m κ ε} {shows : σ → World α κ ε → Prop}
variable {held : κ → Option HandleKey} {start : World α κ ε} {limit items : Nat}

/-- A run stands at a moment, in a state that shows it. -/
structure Stands
    (shows : σ → World α κ ε → Prop)
    (start : World α κ ε)
    (limit : Nat)
    (past : List (Event α κ ε))
    (state : σ)
    (world : World α κ ε)
    (run : Run κ ε) : Prop where
  isShown : shows state world
  history_eq : world.history = start.history ++ past
  moment : ∃ tickets, Moment start.board limit past ⟨run.slots, world.board, tickets⟩

/-- A run gets from one moment to another, and is idle whenever it waits. -/
structure Passage
    (shows : σ → World α κ ε → Prop)
    (held : κ → Option HandleKey)
    (start : World α κ ε)
    (limit : Nat)
    (past : List (Event α κ ε))
    (world : World α κ ε)
    (run : Run κ ε)
    (events : List (Event α κ ε))
    (state : σ)
    (last : World α κ ε)
    (lastRun : Run κ ε) : Prop where
  rounds : Rounds start.board.mailboxes.size held world run events last lastRun
  stands : Stands shows start limit (past ++ events) state last lastRun
  waitsIdle : WaitsIdle start.board limit past events

namespace Passage

variable {past first second : List (Event α κ ε)} {before between after : σ}
variable {world middle last : World α κ ε} {run middleRun lastRun : Run κ ε}

/-- Nothing happens on the shortest passage. -/
theorem none (stands : Stands shows start limit past before world run) :
    Passage shows held start limit past world run [] before world run where
  rounds := .none ..
  stands := by rwa [List.append_nil]
  waitsIdle := waitsIdle_of_not_mem List.not_mem_nil

/-- A round is a passage. -/
theorem round
    (stands : Stands shows start limit past before world run)
    (round : Round start.board.mailboxes.size held world run first last lastRun)
    (isShown : shows after last)
    (waitsIdle : WaitsIdle start.board limit past first) :
    Passage shows held start limit past world run first after last lastRun where
  rounds := .one round
  stands :=
    { isShown := isShown
      history_eq := by
        rw [(Rounds.one round).history_eq, stands.history_eq, List.append_assoc]
      moment := by
        obtain ⟨tickets, moment⟩ := stands.moment
        exact round.moment moment }
  waitsIdle := waitsIdle

/-- Passages follow on each other. -/
theorem trans
    (earlier : Passage shows held start limit past world run first between middle middleRun)
    (later : Passage shows held start limit (past ++ first) middle middleRun second
      after last lastRun) :
    Passage shows held start limit past world run (first ++ second) after last lastRun where
  rounds := earlier.rounds.trans later.rounds
  stands := by
    rw [← List.append_assoc]
    exact later.stands
  waitsIdle := earlier.waitsIdle.append later.waitsIdle

end Passage

/-! ## Waiting and dispatching -/

section Delivering

variable {past : List (Event α κ ε)} {before : σ} {world : World α κ ε} {run : Run κ ε}

end Delivering

/-! ## The end of a run -/

section Runs

variable {source : Source m κ ε} {before : σ}

end Runs

end Loops
end Scheduler
end ScriptHost
