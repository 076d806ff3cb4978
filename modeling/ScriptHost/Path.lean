/-!
# Paths

The text of a path is a list of names between slashes. Paths are compared and cut by
their parts: empty names and names of one dot say nothing, except for a dot in front.
-/

namespace ScriptHost
namespace Path

/-- Cut a text at its slashes. -/
def cut : List Char → List (List Char)
  | [] => [[]]
  | char :: rest =>
      if char = '/' then [] :: cut rest
      else
        match cut rest with
        | [] => [[char]]
        | piece :: pieces => (char :: piece) :: pieces

/-- The names of a path that are not empty. -/
def names (path : String) : List String :=
  ((cut path.toList).filter fun piece => !piece.isEmpty).map String.ofList

/-- Whether a path starts at the root. -/
def isAbsolute (path : String) : Bool :=
  path.toList.head? == some '/'

/-- Whether a path ends with a slash. -/
def endsWithSlash (path : String) : Bool :=
  path.toList.getLast? == some '/'

/-- A part of a path. -/
inductive Part
  | root
  | here
  | above
  | name (text : String)
deriving DecidableEq, Repr

namespace Part

/-- Which kinds of parts come first. -/
def rank : Part → Nat
  | .root => 0
  | .here => 1
  | .above => 2
  | .name _ => 3

/-- Whether a part comes before another one. -/
def before : Part → Part → Bool
  | .name left, .name right => left < right
  | left, right => left.rank < right.rank

/-- The text of a part. -/
def text : Part → String
  | .root => "/"
  | .here => "."
  | .above => ".."
  | .name text => text

/-- The part that a name stands for. -/
def ofName (name : String) : Part :=
  if name = "." then .here
  else if name = ".." then .above
  else .name name

end Part

/-- The parts of a path. -/
def parts (path : String) : List Part :=
  let parts := (names path).map Part.ofName
  if isAbsolute path then .root :: parts.filter (· ≠ .here)
  else
    match parts with
    | .here :: rest => .here :: rest.filter (· ≠ .here)
    | rest => rest.filter (· ≠ .here)

/-- Whether the parts of a path come before those of another one or are equal. -/
def partsBefore : List Part → List Part → Bool
  | [], _ => true
  | _ :: _, [] => false
  | left :: lefts, right :: rights =>
      left.before right || (!right.before left && partsBefore lefts rights)

/-- Sort paths by their parts. -/
def sort (paths : List String) : List String :=
  paths.mergeSort fun left right => partsBefore (parts left) (parts right)

/-- A path below another one. -/
def join (base name : String) : String :=
  if isAbsolute name || base = "" then name
  else if endsWithSlash base then base ++ name
  else base ++ "/" ++ name

/-- The path of parts. -/
def ofParts : List Part → String
  | [] => ""
  | [part] => part.text
  | .root :: rest => "/" ++ ofParts rest
  | part :: rest => part.text ++ "/" ++ ofParts rest

/-- The last part of a path if it is a name. -/
def fileName? (path : String) : Option String :=
  match (parts path).getLast? with
  | some (.name text) => some text
  | _ => none

/-- The path without its last part. The root and the empty path have none. -/
def parent? (path : String) : Option String :=
  match parts path with
  | [] => none
  | [.root] => none
  | parts => some (ofParts parts.dropLast)

end Path
end ScriptHost
