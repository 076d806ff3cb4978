import ScriptHost.FileSystem.Walk

/-!
# Requests to the file system

Each request walks along its paths first. It then either answers with the file system
after it or is refused for one reason, and a refused request changes nothing.
-/

namespace ScriptHost
namespace FileSystem

/-! ## Looking -/

/-- The location of a goal. -/
def Goal.location : Goal → Location
  | .root => []
  | .here location => location
  | .above location => location
  | .entry directory name _ => directory ++ [name]

/-- What stands at a goal. A slash behind a name asks for a directory. -/
def find
    (system : FileSystem)
    (goal : Goal) : Except SystemError Node :=
  match goal with
  | .entry directory name slash =>
      match system.node? (directory ++ [name]) with
      | none => .error .noSuchFile
      | some .directory => .ok .directory
      | some node => if slash then .error .notDirectory else .ok node
  | _ => .ok .directory

/-- What stands at a name in a directory. -/
def lookUp
    (system : FileSystem)
    (directory : Location)
    (name : String) : Except SystemError (Option Node) :=
  if longestName < name.utf8ByteSize then .error .nameTooLong
  else .ok (system.node? (directory ++ [name]))

/-- What a path leads to, links followed. -/
def status
    (system : FileSystem)
    (path : String) : Except SystemError Node := do
  system.find (← system.walk .follow path)

/-- What a path names, the last link kept. -/
def linkStatus
    (system : FileSystem)
    (path : String) : Except SystemError Node := do
  system.find (← system.walk .keep path)

/-- Whether a path leads to something. -/
def leads (system : FileSystem) (path : String) : Bool :=
  (system.status path).isOk

/-- Whether a path leads to a file. -/
def isFile (system : FileSystem) (path : String) : Bool :=
  match system.status path with
  | .ok (.file _) => true
  | _ => false

/-- Whether a path leads to a directory. -/
def isDirectory (system : FileSystem) (path : String) : Bool :=
  match system.status path with
  | .ok .directory => true
  | _ => false

/-- The location of the directory that a path leads to. -/
def directoryAt
    (system : FileSystem)
    (path : String) : Except SystemError Location := do
  let goal ← system.walk .follow path
  match ← system.find goal with
  | .directory => pure goal.location
  | _ => throw .notDirectory

/-- The names in the directory that a path leads to. -/
def listDirectory
    (system : FileSystem)
    (path : String) : Except SystemError (List String) := do
  pure (system.names (← system.directoryAt path))

/-- The bytes of the file that a path leads to. A directory can be opened, but not
read. -/
def readFile
    (system : FileSystem)
    (path : String) : Except SystemError Bytes := do
  match ← system.status path with
  | .file content => pure content
  | _ => throw .isDirectory

/-! ## Files -/

/-- The location of the file that a path leads to, or of the file that it would
create. -/
def writable
    (system : FileSystem)
    (path : String) : Except SystemError Location := do
  match ← system.walk .create path with
  | .entry directory name _ =>
      match system.node? (directory ++ [name]) with
      | some .directory => throw .isDirectory
      | _ => pure (directory ++ [name])
  | _ => throw .isDirectory

/-- The content at a location, empty if there is no file. -/
def contentAt
    (system : FileSystem)
    (location : Location) : Bytes :=
  match system.node? location with
  | some (.file content) => content
  | _ => []

/-- Write a file, in place of its content. -/
def writeFile
    (system : FileSystem)
    (path : String)
    (content : Bytes) : Except SystemError FileSystem := do
  pure (system.put (← system.writable path) (.file content))

/-- Append to a file, which is created if it is not there. -/
def appendFile
    (system : FileSystem)
    (path : String)
    (content : Bytes) : Except SystemError FileSystem := do
  let location ← system.writable path
  pure (system.put location (.file (system.contentAt location ++ content)))

/-- Copy the content of a file. The target is emptied before the source is read, so a
file that is copied onto itself ends up empty. The answer tells how many bytes were
copied. -/
def copyFile
    (system : FileSystem)
    (source target : String) : Except SystemError (Nat × FileSystem) := do
  let sourceGoal ← system.walk .follow source
  match ← system.find sourceGoal with
  | .file _ => do
      let location ← system.writable target
      let emptied := system.put location (.file [])
      let content := emptied.contentAt sourceGoal.location
      pure (content.length, emptied.put location (.file content))
  | _ => throw .notRegular

/-- Remove a file or a link. -/
def removeFile
    (system : FileSystem)
    (path : String) : Except SystemError FileSystem := do
  match ← system.walk .place path with
  | .entry directory name slash =>
      match ← system.lookUp directory name with
      | none => throw .noSuchFile
      | some .directory => throw .isDirectory
      | some _ => if slash then throw .notDirectory else pure (system.erase (directory ++ [name]))
  | _ => throw .isDirectory

/-! ## Directories and links -/

/-- Make a directory. -/
def makeDirectory
    (system : FileSystem)
    (path : String) : Except SystemError FileSystem := do
  match ← system.walk .place path with
  | .entry directory name _ =>
      match ← system.lookUp directory name with
      | none => pure (system.put (directory ++ [name]) .directory)
      | some _ => throw .alreadyExists
  | _ => throw .alreadyExists

/-- Remove an empty directory. -/
def removeDirectory
    (system : FileSystem)
    (path : String) : Except SystemError FileSystem := do
  match ← system.walk .place path with
  | .root => throw .busy
  | .here _ => throw .invalidArgument
  | .above _ => throw .notEmpty
  | .entry directory name _ =>
      let location := directory ++ [name]
      match ← system.lookUp directory name with
      | none => throw .noSuchFile
      | some .directory =>
          if system.isEmptyAt location then pure (system.erase location) else throw .notEmpty
      | some _ => throw .notDirectory

/-- Make a link. -/
def makeLink
    (system : FileSystem)
    (path target : String) : Except SystemError FileSystem := do
  if target = "" then throw .noSuchFile
  match ← system.walk .place path with
  | .entry directory name slash =>
      match ← system.lookUp directory name with
      | none =>
          if slash then throw .noSuchFile
          else pure (system.put (directory ++ [name]) (.link target))
      | some _ => throw .alreadyExists
  | _ => throw .alreadyExists

/-! ## Renaming -/

/-- Whether a location lies strictly below another one. -/
def liesBelow (location : Location) (top : Location) : Bool :=
  top.isPrefixOf location && top.length < location.length

/-- Why a node cannot take the place of another one. -/
def replaceProblem?
    (system : FileSystem)
    (source : Node)
    (target : Location) : Option SystemError :=
  match source, system.node? target with
  | _, none => none
  | .directory, some .directory => if system.isEmptyAt target then none else some .notEmpty
  | .directory, some _ => some .notDirectory
  | _, some .directory => some .isDirectory
  | _, some _ => none

/-- Give a node that stands at one location the place of another one. -/
def renameAt
    (system : FileSystem)
    (node : Node)
    (source target : Location)
    (slash : Bool) : Except SystemError FileSystem :=
  if node ≠ .directory && slash then .error .notDirectory
  else if liesBelow target source then .error .invalidArgument
  else if liesBelow source target then .error .notEmpty
  else if source = target then .ok system
  else
    match system.replaceProblem? node target with
    | some problem => .error problem
    | none => .ok ((system.erase target).move source target)

/-- Rename what a path names. -/
def rename
    (system : FileSystem)
    (source target : String) : Except SystemError FileSystem := do
  let sourceGoal ← system.walk .place source
  let targetGoal ← system.walk .place target
  match sourceGoal, targetGoal with
  | .entry sourceDirectory sourceName sourceSlash, .entry targetDirectory targetName targetSlash =>
      match ← system.lookUp sourceDirectory sourceName with
      | none => throw .noSuchFile
      | some node => do
          let _ ← system.lookUp targetDirectory targetName
          system.renameAt node (sourceDirectory ++ [sourceName]) (targetDirectory ++ [targetName])
            (sourceSlash || targetSlash)
  | _, _ => throw .busy

/-! ## The current directory -/

/-- Make the directory that a path leads to the current one. -/
def changeDirectory
    (system : FileSystem)
    (path : String) : Except SystemError FileSystem := do
  let goal ← system.walk .follow path
  match ← system.find goal with
  | .directory => pure { system with current := goal.location }
  | _ => throw .notDirectory

/-- The absolute path of the current directory. -/
def currentPath (system : FileSystem) : String :=
  "/" ++ String.intercalate "/" system.current

/-! ## Whole trees -/

/-- Remove what stands below a location. -/
def eraseBelow
    (system : FileSystem)
    (location : Location) : FileSystem :=
  { system with entries := system.entries.filter fun entry => !liesBelow entry.1 location }

/-- Remove a directory with everything in it. A link is removed itself. The directory
is emptied before it is removed, so a directory that cannot be removed is empty
afterwards; one that has gone by then is no problem. -/
def removeTree
    (system : FileSystem)
    (path : String) : Except SystemError Unit × FileSystem :=
  match system.linkStatus path with
  | .error problem => (.error problem, system)
  | .ok (.link _) =>
      match system.removeFile path with
      | .ok after => (.ok (), after)
      | .error problem => (.error problem, system)
  | .ok (.file _) => (.error .notDirectory, system)
  | .ok .directory =>
      match system.walk .follow path with
      | .error problem => (.error problem, system)
      | .ok goal =>
          let emptied := system.eraseBelow goal.location
          match emptied.removeDirectory path with
          | .ok after => (.ok (), after)
          | .error .noSuchFile => (.ok (), emptied)
          | .error problem => (.error problem, emptied)

/-- Make a directory after those above it have been made. -/
def makeLastDirectory
    (system : FileSystem)
    (path : String) : Except SystemError Unit × FileSystem :=
  match system.makeDirectory path with
  | .ok after => (.ok (), after)
  | .error problem =>
      if system.isDirectory path then (.ok (), system) else (.error problem, system)

/-- Make a directory and the directories above it. What is there already need not be
made. `depth` bounds the number of names. -/
def makeDirectories : Nat → FileSystem → String → Except SystemError Unit × FileSystem
  | 0, system, _ => (.error .noSuchFile, system)
  | depth + 1, system, path =>
      if path = "" then (.ok (), system)
      else
        match system.makeDirectory path with
        | .ok after => (.ok (), after)
        | .error .noSuchFile =>
            match Path.parent? path with
            | none => (.error .noSuchFile, system)
            | some parent =>
                match makeDirectories depth system parent with
                | (.ok _, above) => above.makeLastDirectory path
                | (.error problem, above) => (.error problem, above)
        | .error problem =>
            if system.isDirectory path then (.ok (), system) else (.error problem, system)

end FileSystem
end ScriptHost
