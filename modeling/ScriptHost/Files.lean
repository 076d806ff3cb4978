import ScriptHost.FileSystem.Access
import ScriptHost.Md5

/-!
# Files

What scripts do with files and directories. To make something that is there already
and to delete something that is not there are no failures. A failure names the action,
the path and the reason; what was done before it stays done.
-/

namespace ScriptHost

/-- Why an action on files failed. -/
structure FileError where
  action : String
  path : String
  source : SystemError
deriving DecidableEq, Repr

/-- The text of a failure. -/
def FileError.message (error : FileError) : String :=
  error.action ++ " " ++ error.path ++ ": " ++ error.source.message

/-- An action on the file system that may fail. -/
abbrev FileM := ExceptT FileError (StateM FileSystem)

namespace Files

/-- Ask the file system and name the action if it refuses. -/
def ask
    {α : Type}
    (action path : String)
    (request : FileSystem → Except SystemError α) : FileM α := do
  match request (← get) with
  | .ok answer => pure answer
  | .error source => throw ⟨action, path, source⟩

/-- Change the file system and name the action if it refuses. -/
def change
    (action path : String)
    (request : FileSystem → Except SystemError FileSystem) : FileM Unit := do
  set (← ask action path request)

/-- Change the file system even if the action fails on the way. -/
def changePartly
    (action path : String)
    (request : FileSystem → Except SystemError Unit × FileSystem) : FileM Unit := do
  let (result, system) := request (← get)
  set system
  match result with
  | .ok _ => pure ()
  | .error source => throw ⟨action, path, source⟩

/-! ## Files -/

/-- Delete a file. -/
def delete (path : String) : FileM Unit := do
  if (← get).isFile path then
    change "failed to delete" path fun system => system.removeFile path

/-- Refuse a target that is there, unless it may be overwritten. -/
def refuseExisting
    (target : String)
    (overwrite : Bool) : FileM Unit := do
  if !overwrite && (← get).leads target then
    throw ⟨"refusing to overwrite", target, .destinationExists⟩

/-- Copy the content of a file under a named action. The answer tells how many bytes
were copied. -/
def copyContent
    (action source target : String) : FileM Nat := do
  let (count, system) ← ask action source fun system => system.copyFile source target
  set system
  pure count

/-- Copy a file. -/
def copy
    (source target : String)
    (overwrite : Bool) : FileM Nat := do
  refuseExisting target overwrite
  copyContent "failed to copy" source target

/-- How a request to rename is answered. -/
abbrev Renaming := FileSystem → String → String → Except SystemError FileSystem

/-- Move a file. If it cannot be renamed, it is copied and then removed. -/
def moveWith
    (rename : Renaming)
    (source target : String)
    (overwrite : Bool) : FileM Unit := do
  refuseExisting target overwrite
  match rename (← get) source target with
  | .ok system => set system
  | .error _ => do
      let _ ← copyContent "failed to move" source target
      change "failed to move" source fun system => system.removeFile source

/-- Move a file where everything lies on one device, so that it can be renamed. -/
def move
    (source target : String)
    (overwrite : Bool) : FileM Unit :=
  moveWith FileSystem.rename source target overwrite

/-- The size that a directory has. -/
def directorySize : Nat := 4096

/-- The size of what a path leads to. -/
def size (path : String) : FileM Nat := do
  match ← ask "failed to stat" path fun system => system.status path with
  | .file content => pure content.length
  | _ => pure directorySize

/-- The text of a file. -/
def readText (path : String) : FileM String :=
  ask "failed to read" path fun system => do
    match Utf8.decode? (← system.readFile path) with
    | some text => pure text
    | none => throw .invalidText

/-- The MD5 digest of a file in hex digits. -/
def md5 (path : String) : FileM String := do
  match ← ask "failed to open" path fun system => system.status path with
  | .file content => pure (Md5.hexDigest content)
  | _ => throw ⟨"failed to read", path, .isDirectory⟩

/-- Write a text to a file, or append it. -/
def writeText
    (path text : String)
    (append : Bool) : FileM Unit :=
  if append then
    change "failed to open" path fun system => system.appendFile path (Utf8.encode text)
  else change "failed to write" path fun system => system.writeFile path (Utf8.encode text)

/-! ## Directories -/

/-- Make a directory and those above it. -/
def makeDirectory (path : String) : FileM Unit :=
  changePartly "failed to create" path fun system =>
    system.makeDirectories FileSystem.pathLimit path

/-- Delete a directory; it must be empty unless everything in it is deleted, too. -/
def deleteDirectory
    (path : String)
    (recursive : Bool) : FileM Unit := do
  if (← get).isDirectory path then
    if recursive then
      changePartly "failed to delete" path fun system => system.removeTree path
    else change "failed to delete" path fun system => system.removeDirectory path

/-- Move a directory. -/
def moveDirectory (source target : String) : FileM Unit :=
  change "failed to move" source fun system => system.rename source target

/-- How the names in a directory are told. -/
abbrev Reading := FileSystem → String → Except SystemError (List String)

/-- The names in a directory. -/
def namesIn
    (reading : Reading)
    (path : String) : FileM (List String) :=
  ask "failed to list" path fun system => reading system path

/-- Whether a path leads to a directory now. -/
def leadsToDirectory (path : String) : FileM Bool := do
  pure ((← get).isDirectory path)

/-- Give up for a reason. -/
def refuse
    (action path : String)
    (source : SystemError) : FileM Unit :=
  throw ⟨action, path, source⟩

/-- What a listing shows. -/
inductive EntryKind
  | file
  | directory
deriving DecidableEq, Repr

/-- Whether a listing shows an entry. What is no directory counts as a file. -/
def EntryKind.shows : EntryKind → Bool → Bool
  | .file, isDirectory => !isDirectory
  | .directory, isDirectory => isDirectory

/-! ## Directories with what is below them

Who reads the names in a directory is a parameter: the names may come in any order, and
a record may be kept of what is read. `depth` bounds how deep the directories lie; since
paths are of bounded length, so is their depth. -/

section Recursion

variable {m : Type → Type} [Monad m] [MonadLiftT FileM m]

/-- Copy an entry of a directory into another one. -/
def copyEntry
    (copyBelow : String → String → m Unit)
    (source target name : String) : m Unit := do
  let entry := Path.join source name
  let copied := Path.join target name
  if ← leadsToDirectory entry then copyBelow entry copied
  else
    let _ ← copyContent "failed to copy" entry copied

/-- Copy the content of a directory into another one. -/
def copyTree (read : String → m (List String)) : Nat → String → String → m Unit
  | 0, source, _ => refuse "failed to copy" source .nameTooLong
  | depth + 1, source, target => do
      makeDirectory target
      (← read source).forM (copyEntry (copyTree read depth) source target)

/-- Copy a directory into another one, where it keeps its name. -/
def copyDirectoryWith
    (read : String → m (List String))
    (source target : String) : m Unit :=
  match Path.fileName? source with
  | none => refuse "failed to copy" source .sourceWithoutName
  | some name => copyTree read FileSystem.pathLimit source (Path.join target name)

/-- What a listing shows of an entry of a directory. -/
def collectEntry
    (kind : EntryKind)
    (recursive : Bool)
    (collectBelow : String → m (List String))
    (directory name : String) : m (List String) := do
  let path := Path.join directory name
  let isDirectory ← leadsToDirectory path
  let below ← if recursive && isDirectory then collectBelow path else pure []
  pure (if kind.shows isDirectory then path :: below else below)

/-- The entries of a kind in a directory, and in those below it if asked for. -/
def collect
    (read : String → m (List String))
    (kind : EntryKind)
    (recursive : Bool) : Nat → String → m (List String)
  | 0, _ => pure []
  | depth + 1, directory => do
      let found ← (← read directory).mapM
        (collectEntry kind recursive (collect read kind recursive depth) directory)
      pure found.flatten

/-- The paths of the entries of a kind in a directory, in the order of their parts. -/
def listWith
    (read : String → m (List String))
    (directory : String)
    (kind : EntryKind)
    (recursive : Bool) : m (List String) := do
  pure (Path.sort (← collect read kind recursive FileSystem.pathLimit directory))

end Recursion

/-- Copy a directory into another one. -/
def copyDirectory (source target : String) : FileM Unit :=
  copyDirectoryWith (namesIn FileSystem.listDirectory) source target

/-- The paths of the entries of a kind in a directory. -/
def list
    (directory : String)
    (kind : EntryKind)
    (recursive : Bool) : FileM (List String) :=
  listWith (namesIn FileSystem.listDirectory) directory kind recursive

/-! ## Preparing -/

/-- Put a file or a directory at a path and make the directories above it. What cannot
be put there is left out. -/
def place
    (path : String)
    (node : Node)
    (system : FileSystem) : FileSystem :=
  let system :=
    match Path.parent? path with
    | none => system
    | some parent => (system.makeDirectories FileSystem.pathLimit parent).2
  match node with
  | .file content => (system.writeFile path content).toOption.getD system
  | .directory => (system.makeDirectories FileSystem.pathLimit path).2
  | .link target => (system.makeLink path target).toOption.getD system

end Files
end ScriptHost
