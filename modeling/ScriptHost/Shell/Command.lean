import ScriptHost.Shell.Token

/-!
# Commands

The commands of a shell: simple ones with their words and redirections, and those that
are put together from others.
-/

namespace ScriptHost
namespace Shell

/-- A change of where a descriptor leads. -/
structure Redirect where
  descriptor? : Option Nat
  operator : String
  target : Word
deriving DecidableEq, Repr

/-- A command. -/
inductive Command
  | skip
  | simple
      (assignments : List (String × Word))
      (words : List Word)
      (redirects : List Redirect)
  | pipe (left right : Command)
  | negate (command : Command)
  | both (left right : Command)
  | either (left right : Command)
  | sequence (first second : Command)
  | loop (runsWhile : Bool) (condition body : Command)
  | branch (condition yes no : Command)
  | each (name : String) (words : List Word) (body : Command)
  | choose (word : Word) (patterns : List Word) (yes no : Command)
  | subshell (body : Command)
deriving Repr

instance : Inhabited Command := ⟨.skip⟩

namespace Command

/-- Words that end a list of commands. -/
def closers : List String :=
  ["do", "done", "then", "elif", "else", "fi", "esac", "\x7d"]

/-- Words that have a meaning of their own at the front of a command. -/
def keywords : List String :=
  closers ++ ["if", "while", "until", "for", "case", "in", "!", "\x7b"]

/-- The text of a token that is a plain word. -/
def keyword? : List Token → Option String
  | .word pieces :: _ => literal? pieces
  | _ => none

/-- Skip the ends of lines. -/
def skipLines : List Token → List Token
  | .operator "\n" :: rest => skipLines rest
  | rest => rest

/-- A name in quotes. -/
def inQuotes (name : String) : String :=
  "\"" ++ name ++ "\""

/-- The name of a token in a message. -/
def tokenName : Token → String
  | .word pieces =>
      match literal? pieces with
      | some name => if keywords.contains name then inQuotes name else "word"
      | none => "word"
  | .operator "\n" => "newline"
  | .operator name => inQuotes name
  | .redirect _ _ => "redirection"

/-- The error of a place where something else is missing. -/
def unexpected
    (tokens : List Token)
    (expected? : Option String) : LineError :=
  match tokens with
  | [] => LineError.unexpected "end of file" expected?
  | token :: _ => LineError.unexpected (tokenName token) expected?

/-- Go on after a given word. -/
def expectWord
    (name : String)
    (tokens : List Token) : Except LineError (List Token) :=
  match tokens with
  | .word pieces :: rest =>
      if literal? pieces = some name then .ok rest else .error (unexpected tokens name)
  | _ => .error (unexpected tokens name)

/-- Go on after a given operator. -/
def expectOperator
    (name : String)
    (tokens : List Token) : Except LineError (List Token) :=
  match tokens with
  | .operator found :: rest =>
      if found = name then .ok rest else .error (unexpected tokens name)
  | _ => .error (unexpected tokens name)

/-- The name and the value of a word that assigns a variable. -/
def assignment? (pieces : Word) : Option (String × Word) :=
  let isPlain : Piece → Bool
    | .text value false => value ≠ "="
    | _ => false
  let nameOf := literal? (pieces.takeWhile isPlain)
  match nameOf, pieces.dropWhile isPlain with
  | some name, .text "=" false :: value =>
      match name.toList with
      | first :: rest =>
          if beginsName first && rest.all continuesName then some (name, value) else none
      | [] => none
  | _, _ => none

/-- Read the words and redirections of a simple command. -/
def readSimple
    (assignments : List (String × Word))
    (words : List Word)
    (redirects : List Redirect) : List Token → Except LineError (Command × List Token)
  | .word pieces :: rest =>
      match if words.isEmpty then assignment? pieces else none with
      | some assignment => readSimple (assignments ++ [assignment]) words redirects rest
      | none => readSimple assignments (words ++ [pieces]) redirects rest
  | .redirect descriptor? operator :: .word target :: rest =>
      readSimple assignments words (redirects ++ [⟨descriptor?, operator, target⟩]) rest
  | .redirect _ _ :: rest => .error (unexpected rest none)
  | rest =>
      if assignments.isEmpty && words.isEmpty && redirects.isEmpty then
        .error (unexpected rest none)
      else .ok (.simple assignments words redirects, rest)

/-- The words in front of the next operator. -/
def readWords : List Token → List Word × List Token
  | .word pieces :: rest =>
      let (words, rest) := readWords rest
      (pieces :: words, rest)
  | rest => ([], rest)

/-- Read the name and the words of a loop over words. -/
def readEachHead (tokens : List Token) : Except LineError (String × List Word × List Token) := do
  match tokens with
  | .word pieces :: rest =>
      match literal? pieces with
      | none => throw (unexpected tokens none)
      | some name => do
          let rest ← expectWord "in" rest
          let (words, rest) := readWords rest
          match rest with
          | .operator ";" :: rest => pure (name, words, skipLines rest)
          | .operator "\n" :: rest => pure (name, words, skipLines rest)
          | _ => throw (unexpected rest none)
  | _ => throw (unexpected tokens none)

/-- Read the patterns of a clause, which bars separate and a parenthesis ends. -/
def readPatterns : List Token → Except LineError (List Word × List Token)
  | .word pattern :: .operator "|" :: rest => do
      let (patterns, rest) ← readPatterns rest
      pure (pattern :: patterns, rest)
  | .word pattern :: rest => do
      pure ([pattern], ← expectOperator ")" rest)
  | tokens => throw (unexpected tokens none)

/-- What a reader of commands is asked for, from the whole list down to one command. -/
inductive Level
  | list
  | chain
  | pipeline
  | command
  | afterCondition
  | clauses (word : Word)
deriving DecidableEq, Repr

/-- Read commands. `bound` limits how deep they are nested. -/
def read : Nat → Level → List Token → Except LineError (Command × List Token)
  | 0, _, tokens => .error (unexpected tokens none)
  | bound + 1, .list, tokens => do
      let tokens := skipLines tokens
      match tokens with
      | [] => pure (.skip, [])
      | .operator ")" :: _ => pure (.skip, tokens)
      | .operator ";;" :: _ => pure (.skip, tokens)
      | _ =>
          if (keyword? tokens).any closers.contains then pure (.skip, tokens)
          else do
            let (first, rest) ← read bound .chain tokens
            match rest with
            | .operator name :: rest =>
                if [";", "\n", "&"].contains name then do
                  let (second, rest) ← read bound .list rest
                  pure (.sequence first second, rest)
                else pure (first, .operator name :: rest)
            | rest => pure (first, rest)
  | bound + 1, .chain, tokens => do
      let (first, rest) ← read bound .pipeline tokens
      chain bound first rest
  | bound + 1, .pipeline, tokens => do
      if keyword? tokens = some "!" then
        let (command, rest) ← read bound .pipeline (tokens.drop 1)
        pure (.negate command, rest)
      else
        let (first, rest) ← read bound .command tokens
        match rest with
        | .operator "|" :: rest => do
            let (second, rest) ← read bound .pipeline (skipLines rest)
            pure (.pipe first second, rest)
        | rest => pure (first, rest)
  | bound + 1, .command, tokens => do
      match tokens, keyword? tokens with
      | .operator "(" :: rest, _ => do
          let (body, rest) ← read bound .list rest
          pure (.subshell body, ← expectOperator ")" rest)
      | _ :: rest, some "\x7b" => do
          let (body, rest) ← read bound .list rest
          pure (body, ← expectWord "\x7d" rest)
      | _ :: rest, some "while" => loopFrom bound true rest
      | _ :: rest, some "until" => loopFrom bound false rest
      | _ :: rest, some "if" => read bound .afterCondition rest
      | _ :: rest, some "for" => do
          let (name, words, rest) ← readEachHead rest
          let rest ← expectWord "do" rest
          let (body, rest) ← read bound .list rest
          pure (.each name words body, ← expectWord "done" rest)
      | _ :: .word word :: rest, some "case" => do
          read bound (.clauses word) (← expectWord "in" (skipLines rest))
      | tokens, _ =>
          if (keyword? tokens).any closers.contains then throw (unexpected tokens none)
          else readSimple [] [] [] tokens
  | bound + 1, .afterCondition, tokens => do
      let (condition, rest) ← read bound .list tokens
      let rest ← expectWord "then" rest
      let (yes, rest) ← read bound .list rest
      match rest, keyword? rest with
      | _ :: rest, some "elif" => do
          let (no, rest) ← read bound .afterCondition rest
          pure (.branch condition yes no, rest)
      | _ :: rest, some "else" => do
          let (no, rest) ← read bound .list rest
          pure (.branch condition yes no, ← expectWord "fi" rest)
      | rest, _ => pure (.branch condition yes .skip, ← expectWord "fi" rest)
  | bound + 1, .clauses word, tokens => do
      let tokens := skipLines tokens
      if keyword? tokens = some "esac" then pure (.skip, tokens.drop 1)
      else
        let (patterns, rest) ← readPatterns (dropOpening tokens)
        let (yes, rest) ← read bound .list rest
        match rest with
        | .operator ";;" :: rest => do
            let (no, rest) ← read bound (.clauses word) rest
            pure (.choose word patterns yes no, rest)
        | rest => pure (.choose word patterns yes .skip, ← expectWord "esac" rest)
where
  /-- Skip a parenthesis in front of patterns. -/
  dropOpening : List Token → List Token
    | .operator "(" :: rest => rest
    | rest => rest
  /-- Read what follows a pipeline in a chain. -/
  chain : Nat → Command → List Token → Except LineError (Command × List Token)
    | bound + 1, first, .operator "&&" :: rest => do
        let (second, rest) ← read bound .pipeline (skipLines rest)
        chain bound (.both first second) rest
    | bound + 1, first, .operator "||" :: rest => do
        let (second, rest) ← read bound .pipeline (skipLines rest)
        chain bound (.either first second) rest
    | _, first, rest => .ok (first, rest)
  /-- Read a loop after its first word. -/
  loopFrom (bound : Nat) (runsWhile : Bool) (tokens : List Token) :
      Except LineError (Command × List Token) := do
    let (condition, rest) ← read bound .list tokens
    let rest ← expectWord "do" rest
    let (body, rest) ← read bound .list rest
    pure (.loop runsWhile condition body, ← expectWord "done" rest)

/-- The commands of a line. -/
def ofLine (line : String) : Except LineError Command := do
  let tokens ← tokens line
  let (command, rest) ← read (8 * tokens.length + 8) .list tokens
  if rest.isEmpty then pure command else throw (unexpected rest none)

end Command
end Shell
end ScriptHost
