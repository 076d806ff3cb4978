import ScriptHost.Files.Visits
import ScriptHost.Proofs.Files

/-!
# Runs with a record

An action that keeps a record of the directories it reads answers, fails and changes the file
system as it does without.
-/

namespace ScriptHost
namespace Files

variable {α β : Type} {system between after : FileSystem} {path : String}

/-- Started in a file system, the action does the same as the plain one, and records the
directories. -/
def Records
    (action : VisitM α)
    (plain : FileM α)
    (system : FileSystem)
    (visited : List Location) : Prop :=
  ∀ log, action.run.run ⟨system, log⟩ =
    ((plain.run.run system).1, ⟨(plain.run.run system).2, log ++ visited⟩)

/-- What is lifted visits no directory. -/
theorem records_lift
    (plain : FileM α)
    (system : FileSystem) :
    Records (liftM plain) plain system [] := by
  intro log
  rw [List.append_nil]
  rfl

theorem records_pure
    (value : α)
    (system : FileSystem) :
    Records (pure value) (pure value) system [] :=
  records_lift (pure value) system

/-- The directories that two steps visit are visited one after the other. -/
theorem Records.bind
    {first : VisitM α}
    {plain : FileM α}
    {next : α → VisitM β}
    {plainNext : α → FileM β}
    {value : α}
    {visited more : List Location}
    (records : Records first plain system visited)
    (ran : plain.run.run system = (.ok value, between))
    (recordsNext : Records (next value) (plainNext value) between more) :
    Records (first >>= next) (plain >>= plainNext) system (visited ++ more) := by
  intro log
  rw [run_bind, records log, run_bind, ran]
  dsimp only
  rw [recordsNext, List.append_assoc]

/-- A step that fails visits what it has visited. -/
theorem Records.bind_error
    {first : VisitM α}
    {plain : FileM α}
    {next : α → VisitM β}
    {plainNext : α → FileM β}
    {error : FileError}
    {visited : List Location}
    (records : Records first plain system visited)
    (ran : plain.run.run system = (.error error, after)) :
    Records (first >>= next) (plain >>= plainNext) system visited := by
  intro log
  rw [run_bind, records log, run_bind, ran]

/-- What an action visits is what it records. -/
theorem Records.visits_eq
    {action : VisitM α}
    {plain : FileM α}
    {visited : List Location}
    (records : Records action plain system visited) :
    visits action system = visited := by
  rw [visits, records []]
  rfl

/-- An action answers and leaves the file system, with a record of what is read. -/
structure Answers
    (system : FileSystem)
    (action : VisitM α)
    (plain : FileM α)
    (value : α)
    (visited : List Location) : Prop where
  ran : plain.run.run system = (.ok value, system)
  records : Records action plain system visited

theorem answers_pure
    (value : α) :
    Answers system (pure value) (pure value) value [] :=
  ⟨rfl, records_pure value system⟩

/-- Answers are given one after the other. -/
theorem Answers.bind
    {first : VisitM α}
    {plain : FileM α}
    {next : α → VisitM β}
    {plainNext : α → FileM β}
    {value : α}
    {result : β}
    {visited more : List Location}
    (answers : Answers system first plain value visited)
    (goesOn : Answers system (next value) (plainNext value) result more) :
    Answers system (first >>= next) (plain >>= plainNext) result (visited ++ more) where
  ran := by
    rw [run_bind, answers.ran]
    exact goesOn.ran
  records := answers.records.bind answers.ran goesOn.records

/-! ## Reading -/

/-- The names in a directory are told in some order, and nothing is told where none can be
read. -/
def IsReading (reading : Reading) : Prop :=
  ∀ system path,
    (∃ names told, reading system path = .ok names ∧ system.listDirectory path = .ok told ∧
      names.Perm told) ∨
    ∃ problem, reading system path = .error problem ∧ system.listDirectory path = .error problem

theorem isReading_listDirectory : IsReading FileSystem.listDirectory := by
  intro system path
  cases system.listDirectory path with
  | error problem => exact .inr ⟨problem, rfl, rfl⟩
  | ok names => exact .inl ⟨names, names, rfl, rfl, .refl _⟩

/-- A directory that is found is recorded. -/
theorem run_record_of_directoryAt
    {location : Location}
    (isAt : system.directoryAt path = .ok location)
    (log : List Location) :
    (record path).run.run ⟨system, log⟩ = (.ok (), ⟨system, log ++ [location]⟩) := by
  have ran : (record path).run.run ⟨system, log⟩ = (Except.ok (), _) := rfl
  dsimp only at ran
  rw [ran, isAt]

/-- Either the directory that a path leads to is read and recorded, or nothing is. -/
theorem IsReading.cases
    {reading : Reading}
    (isReading : IsReading reading)
    (system : FileSystem)
    (path : String) :
    (∃ location names, system.directoryAt path = .ok location ∧
      names.Perm (system.names location) ∧
      (namesIn reading path).run.run system = (.ok names, system) ∧
      Records (namesVisiting reading path) (namesIn reading path) system [location]) ∨
    ∃ problem, system.directoryAt path = .error problem ∧
      (namesIn reading path).run.run system = (.error ⟨"failed to list", path, problem⟩, system) ∧
      Records (namesVisiting reading path) (namesIn reading path) system [] := by
  have listed : system.listDirectory path =
      (system.directoryAt path >>= fun location => .ok (system.names location)) := rfl
  rcases isReading system path with ⟨names, told, isRead, isTold, perm⟩ | ⟨problem, isRead, isTold⟩
  · obtain ⟨location, isAt, isNames⟩ := FileSystem.bind_eq_ok_iff.mp (listed ▸ isTold)
    cases isNames
    have ran : (namesIn reading path).run.run system = (.ok names, system) := by
      rw [namesIn, run_ask, isRead]
      rfl
    refine .inl ⟨location, names, isAt, perm, ran, fun log => ?_⟩
    rw [namesVisiting, run_bind, records_lift, ran]
    dsimp only
    rw [List.append_nil, run_bind, run_record_of_directoryAt isAt]
    rfl
  · have ran : (namesIn reading path).run.run system =
        (.error ⟨"failed to list", path, problem⟩, system) := by
      rw [namesIn, run_ask, isRead]
      rfl
    refine .inr ⟨problem, ?_, ran, ?_⟩
    · cases isAt : system.directoryAt path with
      | error other =>
          rw [listed, isAt] at isTold
          cases isTold
          rfl
      | ok location =>
          rw [listed, isAt] at isTold
          cases isTold
    · intro log
      rw [namesVisiting, run_bind, records_lift, ran]

end Files
end ScriptHost
