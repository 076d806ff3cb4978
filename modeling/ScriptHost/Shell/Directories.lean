import ScriptHost.Shell.Filters

/-!
# Programs for directories

Programs that list what stands at paths and make and remove files and directories.
-/

namespace ScriptHost
namespace Shell

/-- The arguments that are no options. -/
def operands (arguments : List String) : List String :=
  arguments.filter fun argument => !isOption argument

/-- Whether one of the options contains a letter. -/
def hasOption (letter : Char) (arguments : List String) : Bool :=
  (arguments.filter isOption).any fun option => option.toList.contains letter

/-- The lines that listing a path shows. Names with a leading dot are shown if an option
asks for them. -/
def listing
    (files : FileSystem)
    (options : List String)
    (path : String) : Except SystemError (List String) :=
  let hidden := hasOption 'a' options || hasOption 'A' options
  match files.status path with
  | .error problem => .error problem
  | .ok .directory => (files.listDirectory path).map fun names =>
      (if hasOption 'a' options then [".", ".."] else [])
        ++ names.filter fun name => hidden || name.toList.head? != some '.'
  | .ok _ => .ok [path]

/-- List paths. -/
def list (arguments : List String) : ShellM Nat := do
  let paths := operands arguments
  let statuses ← (if paths.isEmpty then ["."] else paths).mapM fun path => do
    match listing (← get).files arguments path with
    | .ok lines => do
        lines.forM fun line => say (line ++ "\n")
        pure 0
    | .error problem => do
        warn ("ls: cannot access '" ++ path ++ "': " ++ reasonOf problem ++ "\n")
        pure 2
  pure (statuses.foldl max 0)

/-- Change the files once for each path. What cannot be done is reported after
`complaint`. -/
def changeEach
    (complaint : String → String)
    (change : FileSystem → String → Except SystemError Unit × FileSystem)
    (paths : List String) : ShellM Nat := do
  let statuses ← paths.mapM fun path => do
    let state ← get
    let (result, files) := change state.files path
    set { state with files := files }
    match result with
    | .ok () => pure 0
    | .error problem => do
        warn (complaint path ++ ": " ++ reasonOf problem ++ "\n")
        pure 1
  pure (statuses.foldl max 0)

/-- A change that leaves the files as they are if it fails. -/
def orNothing
    (change : FileSystem → String → Except SystemError FileSystem)
    (files : FileSystem)
    (path : String) : Except SystemError Unit × FileSystem :=
  match change files path with
  | .ok after => (.ok (), after)
  | .error problem => (.error problem, files)

/-- Make empty files where there are none. -/
def touch (arguments : List String) : ShellM Nat :=
  changeEach (fun path => "touch: cannot touch '" ++ path ++ "'")
    (orNothing fun files path =>
      if files.leads path then .ok files else files.appendFile path [])
    (operands arguments)

/-- Make directories. -/
def makeDirectories (arguments : List String) : ShellM Nat :=
  changeEach (fun path => "mkdir: cannot create directory '" ++ path ++ "'")
    (if hasOption 'p' arguments then fun files path => files.makeDirectories (path.length + 1) path
      else orNothing FileSystem.makeDirectory)
    (operands arguments)

/-- Remove files, and directories with what stands in them if that is asked for. -/
def remove (arguments : List String) : ShellM Nat :=
  let forced := hasOption 'f' arguments
  let whole := hasOption 'r' arguments
  changeEach (fun path => "rm: cannot remove '" ++ path ++ "'")
    (fun files path =>
      let (result, after) :=
        if whole && files.isDirectory path then files.removeTree path
        else orNothing FileSystem.removeFile files path
      if forced && result matches .error .noSuchFile then (.ok (), files) else (result, after))
    (operands arguments)

/-- Remove empty directories. -/
def removeDirectories (arguments : List String) : ShellM Nat :=
  changeEach (fun path => "rmdir: failed to remove '" ++ path ++ "'")
    (orNothing FileSystem.removeDirectory)
    (operands arguments)

end Shell
end ScriptHost
