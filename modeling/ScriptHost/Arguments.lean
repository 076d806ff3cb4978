import ScriptHost.Text.Blank

/-!
# Argument lines

A line of arguments is cut at white space. Double quotes group: white space between
them belongs to the argument, and the quotes themselves are left out. A pair of
quotes with nothing between them is an empty argument.
-/

namespace ScriptHost
namespace Arguments

/-- The argument that has been read so far, if one has begun. Its characters are in
reverse order. -/
def finish : Option (List Char) → List (List Char)
  | none => []
  | some word => [word.reverse]

/-- Put a character at the end of the argument that is being read. -/
def extend
    (word? : Option (List Char))
    (char : Char) : Option (List Char) :=
  some (char :: word?.getD [])

/-- Split the rest of a line, inside or outside quotes, with the argument that has
begun before it. -/
def splitFrom (quoted : Bool) (word? : Option (List Char)) :
    List Char → List (List Char)
  | [] => finish word?
  | char :: rest =>
      if char = '"' then splitFrom (!quoted) (some (word?.getD [])) rest
      else if Text.isBlank char && !quoted then finish word? ++ splitFrom quoted none rest
      else splitFrom quoted (extend word? char) rest

/-- The arguments of a line, as characters. -/
def splitChars (line : List Char) : List (List Char) :=
  splitFrom false none line

/-- The arguments of a line. -/
def split (line : String) : List String :=
  (splitChars line.toList).map String.ofList

end Arguments
end ScriptHost
