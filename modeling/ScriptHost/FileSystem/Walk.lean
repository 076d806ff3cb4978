import ScriptHost.FileSystem
import ScriptHost.Path
import ScriptHost.SystemError

/-!
# Walking along paths

A path is walked from name to name. A link on the way is replaced by its target;
after forty links the walk is given up. What happens at the last name depends on the
request: the link that stands there is followed or kept, or a file may be created.
-/

namespace ScriptHost
namespace FileSystem

/-- The number of links that a walk may follow. -/
def mostLinks : Nat := 40

/-- The longest name in bytes. -/
def longestName : Nat := 255

/-- The bytes of a path stay below this number. -/
def pathLimit : Nat := 4096

/-- What is asked for at the last name of a path. -/
inductive Purpose
  /-- Follow a link. -/
  | follow
  /-- Keep a link, unless a slash follows it. -/
  | keep
  /-- Find the place only, whatever its name is. -/
  | place
  /-- Follow a link, and let a file be created. -/
  | create
deriving DecidableEq, Repr

/-- Where a walk ends: at a directory that is not named by its last name, or at a name
in a directory, with or without a slash behind it. -/
inductive Goal
  | root
  | here (location : Location)
  | above (location : Location)
  | entry (directory : Location) (name : String) (slash : Bool)
deriving DecidableEq, Repr

/-- Whether a link at the last name is followed. -/
def Purpose.follows (purpose : Purpose) (slash : Bool) : Bool :=
  match purpose with
  | .follow => true
  | .keep => slash
  | .place => false
  | .create => true

/-- How a walk goes on at a link: from a directory along names, to a last name that a
slash may follow. -/
abbrev Continue := Location → List String → Bool → Except SystemError Goal

/-- The directory in which the target of a link starts. -/
def linkStart
    (directory : Location)
    (target : String) : Location :=
  if Path.isAbsolute target then [] else directory

/-- The walk at its last name. -/
def walkLast
    (system : FileSystem)
    (purpose : Purpose)
    (continue? : Continue)
    (directory : Location)
    (name : String)
    (slash : Bool) : Except SystemError Goal :=
  if name = "." then .ok (.here directory)
  else if name = ".." then .ok (.above directory.dropLast)
  else if purpose = .create && slash then .error .isDirectory
  else if purpose = .place then .ok (.entry directory name slash)
  else if longestName < name.utf8ByteSize then .error .nameTooLong
  else
    match system.node? (directory ++ [name]) with
    | some (.link target) =>
        if purpose.follows slash then
          continue? (linkStart directory target) (Path.names target)
            (slash || Path.endsWithSlash target)
        else .ok (.entry directory name slash)
    | _ => .ok (.entry directory name slash)

/-- The walk along names up to the next link. -/
def walkNames
    (system : FileSystem)
    (purpose : Purpose)
    (continue? : Continue)
    (directory : Location) : List String → Bool → Except SystemError Goal
  | [], _ => .ok (if directory = [] then .root else .here directory)
  | [name], slash => walkLast system purpose continue? directory name slash
  | name :: next :: rest, slash =>
      if name = "." then walkNames system purpose continue? directory (next :: rest) slash
      else if name = ".." then
        walkNames system purpose continue? directory.dropLast (next :: rest) slash
      else if longestName < name.utf8ByteSize then .error .nameTooLong
      else
        match system.node? (directory ++ [name]) with
        | none => .error .noSuchFile
        | some (.file _) => .error .notDirectory
        | some .directory =>
            walkNames system purpose continue? (directory ++ [name]) (next :: rest) slash
        | some (.link target) =>
            continue? (linkStart directory target) (Path.names target ++ next :: rest) slash

/-- The walk with a number of links that may still be followed. -/
def walkLinks
    (system : FileSystem)
    (purpose : Purpose) : Nat → Continue
  | 0 => walkNames system purpose fun _ _ _ => .error .tooManyLinks
  | links + 1 => walkNames system purpose (walkLinks system purpose links)

/-- Whether a text can be a path at all. -/
def checkPath (path : String) : Except SystemError Unit :=
  if path.toList.contains '\x00' then .error .nulInName
  else if path = "" then .error .noSuchFile
  else if pathLimit ≤ path.utf8ByteSize then .error .nameTooLong
  else .ok ()

/-- Walk along a path. -/
def walk
    (system : FileSystem)
    (purpose : Purpose)
    (path : String) : Except SystemError Goal := do
  checkPath path
  let start := if Path.isAbsolute path then [] else system.current
  walkLinks system purpose mostLinks start (Path.names path) (Path.endsWithSlash path)

end FileSystem
end ScriptHost
