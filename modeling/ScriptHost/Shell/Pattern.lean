/-!
# Patterns

A pattern stands for texts: a star for any text, a question mark for any character, and
every other character for itself. Characters in quotes always stand for themselves.
-/

namespace ScriptHost
namespace Shell

/-- A part of a pattern. -/
inductive PatternPart
  | anyText
  | anyChar
  | exactly (char : Char)
deriving DecidableEq, Repr

/-- A pattern. -/
abbrev Pattern := List PatternPart

namespace Pattern

/-- The pattern that stands for one text. -/
def ofLiteral (text : String) : Pattern :=
  text.toList.map .exactly

/-- The pattern that a text without quotes writes. -/
def ofText (text : String) : Pattern :=
  text.toList.map fun char =>
    if char = '*' then .anyText else if char = '?' then .anyChar else .exactly char

/-- Whether a pattern can stand for more than one text. -/
def isOpen (pattern : Pattern) : Bool :=
  pattern.any fun part => part = .anyText || part = .anyChar

/-- Whether a pattern stands for a text. -/
def covers : Pattern → List Char → Bool
  | [], chars => chars.isEmpty
  | .anyText :: rest, chars =>
      (List.range (chars.length + 1)).any fun count => covers rest (chars.drop count)
  | .anyChar :: rest, chars => !chars.isEmpty && covers rest (chars.drop 1)
  | .exactly char :: rest, chars => chars.head? = some char && covers rest (chars.drop 1)

/-- What is left of a text without its longest or shortest beginning that a pattern
stands for. -/
def withoutFront
    (pattern : Pattern)
    (longest : Bool)
    (chars : List Char) : List Char :=
  let counts := List.range (chars.length + 1)
  let fits := (if longest then counts.reverse else counts).find? fun count =>
    pattern.covers (chars.take count)
  chars.drop (fits.getD 0)

/-- What is left of a text without its longest or shortest end that a pattern stands
for. -/
def withoutEnd
    (pattern : Pattern)
    (longest : Bool)
    (chars : List Char) : List Char :=
  let counts := List.range (chars.length + 1)
  let fits := (if longest then counts else counts.reverse).find? fun count =>
    pattern.covers (chars.drop count)
  chars.take (fits.getD chars.length)

/-- What stands for the text of a file's name: the names that a pattern covers, where a
leading dot has to be written. -/
def chooseNames
    (pattern : Pattern)
    (names : List String) : List String :=
  names.filter fun name =>
    pattern.covers name.toList
      && (name.toList.head? != some '.' || pattern.head? == some (.exactly '.'))

end Pattern
end Shell
end ScriptHost
