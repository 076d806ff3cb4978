import ScriptHost.Files

/-!
# Visits of directories

Actions on directories can be run with a record of the directories whose names are read. The
record makes no difference to what they do.
-/

namespace ScriptHost

/-- A file system with the directories that have been read, in order. -/
structure Visit where
  system : FileSystem
  visited : List Location

/-- An action on the file system that may fail, with a record of the directories it reads. -/
abbrev VisitM := ExceptT FileError (StateM Visit)

/-- What is done beside the record. -/
instance : MonadLift FileM VisitM where
  monadLift action := ExceptT.mk fun visit =>
    let (result, system) := action.run.run visit.system
    (result, { visit with system := system })

namespace Files

/-- Record the directory that a path leads to. -/
def record (path : String) : VisitM Unit :=
  modifyThe Visit fun visit =>
    match visit.system.directoryAt path with
    | .ok location => { visit with visited := visit.visited ++ [location] }
    | .error _ => visit

/-- The names in a directory, which is recorded when they have been read. -/
def namesVisiting
    (reading : Reading)
    (path : String) : VisitM (List String) := do
  let names ← namesIn reading path
  record path
  pure names

/-- The directories that an action reads. -/
def visits
    {α : Type}
    (action : VisitM α)
    (system : FileSystem) : List Location :=
  (action.run.run ⟨system, []⟩).2.visited

end Files
end ScriptHost
