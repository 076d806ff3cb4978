/-!
# Tokens of a command line

A command line is cut into words and operators. A word consists of pieces: text, and
what is replaced when the command runs. Every piece remembers whether it stands in
quotes, since text in quotes is never cut into fields.
-/

namespace ScriptHost
namespace Shell

/-- A piece of a word. -/
inductive Piece
  | text (value : String) (quoted : Bool)
  | parameter (name : String) (quoted : Bool)
  | arithmetic (expression : String) (quoted : Bool)
  | commands (line : String) (quoted : Bool)
deriving DecidableEq, Repr

/-- A word. -/
abbrev Word := List Piece

/-- A word, an operator between commands, or a redirection with its descriptor. -/
inductive Token
  | word (pieces : Word)
  | operator (name : String)
  | redirect (descriptor? : Option Nat) (name : String)
deriving DecidableEq, Repr

/-- Why a line cannot be read. An unexpected token is named as messages name it, with the
word that had to stand in its place, if only one could. -/
inductive LineError
  | unterminatedQuote
  | unterminatedExpansion
  | unterminatedCommand
  | unexpected (token : String) (expected? : Option String)
deriving DecidableEq, Repr

namespace LineError

/-- The text of an error. -/
def message : LineError → String
  | .unterminatedQuote => "Unterminated quoted string"
  | .unterminatedExpansion => "Missing '\x7d'"
  | .unterminatedCommand => "EOF in backquote substitution"
  | .unexpected token none => token ++ " unexpected"
  | .unexpected token (some name) => token ++ " unexpected (expecting \"" ++ name ++ "\")"

end LineError

/-- Whether a character separates words. -/
def isBlank (char : Char) : Bool :=
  char = ' ' || char = '\t'

/-- Whether a character ends a word without quotes. -/
def endsWord (char : Char) : Bool :=
  isBlank char || [';', '&', '|', '(', ')', '<', '>', '\n'].contains char

/-- Whether a name can begin with a character. -/
def beginsName (char : Char) : Bool :=
  char.isAlpha || char = '_'

/-- Whether a name can go on with a character. -/
def continuesName (char : Char) : Bool :=
  char.isAlphanum || char = '_'

/-- Whether a character names a special parameter. -/
def namesSpecial (char : Char) : Bool :=
  char.isDigit || ['?', '$', '#', '@', '*', '!', '-'].contains char

/-- The text up to the parenthesis that closes a group, and what follows. `depth`
counts the groups that are open inside. -/
def untilClosed (depth : Nat) : List Char → Option (List Char × List Char)
  | [] => none
  | '(' :: rest => (untilClosed (depth + 1) rest).map fun (inner, rest) => ('(' :: inner, rest)
  | ')' :: rest =>
      match depth with
      | 0 => some ([], rest)
      | depth + 1 => (untilClosed depth rest).map fun (inner, rest) => (')' :: inner, rest)
  | char :: rest => (untilClosed depth rest).map fun (inner, rest) => (char :: inner, rest)

/-- Read what follows a dollar sign. -/
def readExpansion (quoted : Bool) : List Char → Except LineError (Piece × List Char)
  | '(' :: '(' :: rest =>
      match untilClosed 0 rest with
      | some (inner, ')' :: rest) => .ok (.arithmetic (String.ofList inner) quoted, rest)
      | _ => .error .unterminatedExpansion
  | '(' :: rest =>
      match untilClosed 0 rest with
      | some (inner, rest) => .ok (.commands (String.ofList inner) quoted, rest)
      | none => .error .unterminatedExpansion
  | '\x7b' :: rest =>
      match rest.dropWhile (· ≠ '\x7d') with
      | [] => .error .unterminatedExpansion
      | _ :: after => .ok (.parameter (String.ofList (rest.takeWhile (· ≠ '\x7d'))) quoted, after)
  | char :: rest =>
      if beginsName char then
        .ok (.parameter (String.ofList (char :: rest.takeWhile continuesName)) quoted,
          rest.dropWhile continuesName)
      else if namesSpecial char then .ok (.parameter (char.toString) quoted, rest)
      else .ok (.text "$" quoted, char :: rest)
  | [] => .ok (.text "$" quoted, [])

/-- Read a word, inside or outside double quotes. `bound` is at least the number of
characters. -/
def readWord (inside : Bool) : Nat → List Char → Except LineError (Word × List Char)
  | 0, chars => .ok ([], chars)
  | bound + 1, chars =>
      let prepend := fun (piece : Piece) (rest : List Char) => do
        let (pieces, rest) ← readWord inside bound rest
        pure (piece :: pieces, rest)
      match chars with
      | [] => if inside then .error .unterminatedQuote else .ok ([], [])
      | '\\' :: '\n' :: rest => readWord inside bound rest
      | ['\\'] => prepend (.text "\\" inside) []
      | '\\' :: char :: rest =>
          if !inside || ['$', '\x60', '"', '\\'].contains char then
            prepend (.text char.toString true) rest
          else prepend (.text (String.ofList ['\\', char]) true) rest
      | '"' :: rest =>
          if inside then .ok ([], rest)
          else do
            let (pieces, rest) ← readWord true bound rest
            let (more, rest) ← readWord false bound rest
            pure (.text "" true :: pieces ++ more, rest)
      | '$' :: rest => do
          let (piece, rest) ← readExpansion inside rest
          prepend piece rest
      | '\x60' :: rest =>
          match rest.dropWhile (· ≠ '\x60') with
          | [] => .error .unterminatedCommand
          | _ :: after =>
              prepend (.commands (String.ofList (rest.takeWhile (· ≠ '\x60'))) inside) after
      | char :: rest =>
          if inside then prepend (.text char.toString true) rest
          else if char = '\'' then
            match rest.dropWhile (· ≠ '\'') with
            | [] => .error .unterminatedQuote
            | _ :: after => prepend (.text (String.ofList (rest.takeWhile (· ≠ '\''))) true) after
          else if endsWord char then .ok ([], char :: rest)
          else prepend (.text char.toString false) rest

/-- The text of a word without quotes and replacements. -/
def literal? : Word → Option String
  | [] => some ""
  | .text value false :: rest => (literal? rest).map (value ++ ·)
  | _ => none

/-- Read a redirection after its descriptor. -/
def readRedirect (descriptor? : Option Nat) : List Char → Option (Token × List Char)
  | '>' :: '>' :: rest => some (.redirect descriptor? ">>", rest)
  | '>' :: '&' :: rest => some (.redirect descriptor? ">&", rest)
  | '>' :: rest => some (.redirect descriptor? ">", rest)
  | '<' :: '&' :: rest => some (.redirect descriptor? "<&", rest)
  | '<' :: rest => some (.redirect descriptor? "<", rest)
  | _ => none

/-- Read an operator or a redirection. -/
def readOperator : List Char → Option (Token × List Char)
  | '&' :: '&' :: rest => some (.operator "&&", rest)
  | '|' :: '|' :: rest => some (.operator "||", rest)
  | ';' :: ';' :: rest => some (.operator ";;", rest)
  | ';' :: rest => some (.operator ";", rest)
  | '&' :: rest => some (.operator "&", rest)
  | '|' :: rest => some (.operator "|", rest)
  | '(' :: rest => some (.operator "(", rest)
  | ')' :: rest => some (.operator ")", rest)
  | '\n' :: rest => some (.operator "\n", rest)
  | digit :: rest =>
      if digit.isDigit then readRedirect (some (digit.toNat - '0'.toNat)) rest
      else readRedirect none (digit :: rest)
  | [] => none

/-- Read the tokens of a line. `bound` is at least the number of characters. -/
def readTokens : Nat → List Char → Except LineError (List Token)
  | 0, _ => .ok []
  | _, [] => .ok []
  | bound + 1, char :: rest =>
      if isBlank char then readTokens bound rest
      else if char = '#' then readTokens bound (rest.dropWhile (· ≠ '\n'))
      else
        match readOperator (char :: rest) with
        | some (token, rest) => (token :: ·) <$> readTokens bound rest
        | none => do
            let (pieces, rest) ← readWord false (bound + 1) (char :: rest)
            (.word pieces :: ·) <$> readTokens bound rest

/-- The tokens of a line. -/
def tokens (line : String) : Except LineError (List Token) :=
  readTokens (line.length + 1) line.toList

end Shell
end ScriptHost
