import ScriptHost.Text.Utf8

/-!
# File systems

A file system is a finite tree of directories, files and symbolic links, given by
what stands at each location. The root is always a directory and has no entry of its
own. Relative paths start at the current directory.
-/

namespace ScriptHost

/-- Where something stands: the names from the root on. -/
abbrev Location := List String

/-- What stands at a location. -/
inductive Node
  | file (content : Bytes)
  | directory
  | link (target : String)
deriving DecidableEq, Repr

/-- A file system and its current directory. -/
structure FileSystem where
  entries : List (Location × Node)
  current : Location
deriving DecidableEq, Repr

namespace FileSystem

/-- The file system of an empty directory at the root. -/
def ofWorkspace (name : String) : FileSystem where
  entries := [([name], .directory)]
  current := [name]

/-- What stands at a location. -/
def node? (system : FileSystem) : Location → Option Node
  | [] => some .directory
  | location => system.entries.lookup location

/-- Put a node at a location, in place of what stood there. -/
def put
    (system : FileSystem)
    (location : Location)
    (node : Node) : FileSystem :=
  { system with
    entries := (location, node) :: system.entries.filter fun entry => entry.1 ≠ location }

/-- Take away what stands at a location. -/
def erase
    (system : FileSystem)
    (location : Location) : FileSystem :=
  { system with entries := system.entries.filter fun entry => entry.1 ≠ location }

/-- The name of a location directly below another one. -/
def childName?
    (parent : Location)
    (location : Location) : Option String :=
  match location.getLast? with
  | some name => if location = parent ++ [name] then some name else none
  | none => none

/-- The names of a directory in their order. -/
def names
    (system : FileSystem)
    (location : Location) : List String :=
  (system.entries.filterMap fun entry => childName? location entry.1).mergeSort (· ≤ ·)

/-- Whether nothing stands below a location. -/
def isEmptyAt
    (system : FileSystem)
    (location : Location) : Bool :=
  (system.names location).isEmpty

/-- A location after the tree at one location has moved to another one. -/
def relocated
    (source target : Location)
    (location : Location) : Location :=
  if source.isPrefixOf location then target ++ location.drop source.length else location

/-- Move the tree at one location to another one, where nothing stands. -/
def move
    (system : FileSystem)
    (source target : Location) : FileSystem where
  entries := system.entries.map fun (location, node) => (relocated source target location, node)
  current := relocated source target system.current

/-- What stands below a location, with the names from there on. -/
def below
    (system : FileSystem)
    (location : Location) : List (Location × Node) :=
  system.entries.filterMap fun (place, node) =>
    if location.isPrefixOf place && location.length < place.length then
      some (place.drop location.length, node)
    else none

/-- Everything below a location by its relative path, in the order of the paths. -/
def tree
    (system : FileSystem)
    (location : Location) : List (String × Node) :=
  ((system.below location).map fun (names, node) => (String.intercalate "/" names, node)).mergeSort
    fun left right => left.1 ≤ right.1

end FileSystem
end ScriptHost
