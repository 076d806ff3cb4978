import ScriptHost.Shell.State
import ScriptHost.Shell.Format

/-!
# Filters

Programs that read bytes, from files or from their input, and write some of them or
something about them.
-/

namespace ScriptHost
namespace Shell

/-! ## What is read -/

/-- The path of endless zeros. -/
def zerosPath : String := "/dev/zero"

/-- The words for a problem of the system. -/
def reasonOf (problem : SystemError) : String :=
  (problem.numbered?.map Prod.snd).getD problem.words

/-- Read files one after the other, or the input if none is named. `complaint` is what is
written in front of the reason why a path cannot be read. -/
def readAll
    (complaint : String → String)
    (paths : List String) : ShellM (Nat × Bytes) := do
  if paths.isEmpty then pure (0, (← get).input)
  else
    let results ← paths.mapM fun path => do
      if path = nowherePath then pure (0, [])
      else if path = "-" then pure (0, (← get).input)
      else
        match (← get).files.readFile path with
        | .ok content => pure (0, content)
        | .error problem => do
            warn (complaint path ++ ": " ++ reasonOf problem ++ "\n")
            pure (1, [])
    pure ((results.map Prod.fst).foldl max 0, results.flatMap Prod.snd)

/-- The lines of bytes, each one with its end. A line that has begun is the last one. -/
def linesOf (bytes : Bytes) : List Bytes :=
  bytes.foldr
    (fun byte lines =>
      match lines with
      | [] => [[byte]]
      | line :: rest => if byte = 10 then [byte] :: lines else (byte :: line) :: rest)
    []

/-- Whether an argument is an option. -/
def isOption (argument : String) : Bool :=
  match argument.toList with
  | '-' :: _ :: _ => true
  | _ => false

/-! ## Programs -/

/-- Write the content of files, or the input. -/
def concatenate (arguments : List String) : ShellM Nat := do
  if arguments.isEmpty then
    emit (← get).input
    pure 0
  else
    let statuses ← arguments.mapM fun path => do
      let (status, content) ← readAll ("cat: " ++ ·) [path]
      emit content
      pure status
    pure (statuses.foldl max 0)

/-- The number of words of bytes. -/
def wordCount (bytes : Bytes) : Nat :=
  (bytes.foldl (fun (count, inside) byte =>
    let blank := byte = 32 || byte = 10 || byte = 9 || byte = 13
    (if !blank && !inside then count + 1 else count, !blank)) (0, false)).1

/-- A number behind blanks that fill a width. -/
def padded (width number : Nat) : String :=
  let digits := toString number
  String.ofList (List.replicate (width - digits.length) ' ') ++ digits

/-- Count lines, words and bytes. Counts of a file are as wide as the number of its bytes,
and a count that stands alone is not filled. -/
def count (arguments : List String) : ShellM Nat := do
  let paths := arguments.filter fun argument => !isOption argument
  let (status, input) ← readAll ("wc: " ++ ·) paths
  let options := (arguments.filter isOption).flatMap fun option => option.toList.drop 1
  let wanted := fun option : Char => options.isEmpty || options.contains option
  let counts :=
    (if wanted 'l' then [(input.filter (· = 10)).length] else [])
      ++ (if wanted 'w' then [wordCount input] else [])
      ++ (if wanted 'c' then [input.length] else [])
  let width :=
    if counts.length = 1 then 0
    else if paths.isEmpty then 7
    else (toString input.length).length
  if status = 0 then
    say (String.intercalate " " (counts.map (padded width) ++ paths) ++ "\n")
  pure status

/-- What a program takes from an end of its input: so many lines or bytes, and the paths
that it reads. -/
structure Portion where
  inBytes : Bool
  amount : Nat
  paths : List String

/-- Read the arguments that choose a portion. -/
def portionOf (portion : Portion) : List String → Portion
  | "-n" :: amount :: rest => portionOf { portion with amount := amount.toNat?.getD 0 } rest
  | "-c" :: amount :: rest =>
      portionOf { portion with inBytes := true, amount := amount.toNat?.getD 0 } rest
  | argument :: rest =>
      match argument.toList with
      | '-' :: 'n' :: digits =>
          portionOf { portion with amount := ofDecimalDigits digits } rest
      | '-' :: 'c' :: digits =>
          portionOf { portion with inBytes := true, amount := ofDecimalDigits digits } rest
      | '-' :: digits => portionOf { portion with amount := ofDecimalDigits digits } rest
      | _ => portionOf { portion with paths := portion.paths ++ [argument] } rest
  | [] => portion

/-- The portion that is taken if nothing else is asked for. -/
def usualPortion : Portion := ⟨false, 10, []⟩

/-- The complaint of a program about a path that it cannot open. -/
def cannotOpen (program path : String) : String :=
  program ++ ": cannot open '" ++ path ++ "' for reading"

/-- Write the beginning of files, or of the input. -/
def head (arguments : List String) : ShellM Nat := do
  let portion := portionOf usualPortion arguments
  if portion.paths = [zerosPath] && portion.inBytes then
    emit (List.replicate portion.amount 0)
    pure 0
  else
    let (status, bytes) ← readAll (cannotOpen "head") portion.paths
    emit (if portion.inBytes then bytes.take portion.amount
      else ((linesOf bytes).take portion.amount).flatten)
    pure status

/-- Write the end of files, or of the input. -/
def tail (arguments : List String) : ShellM Nat := do
  let portion := portionOf usualPortion arguments
  let (status, bytes) ← readAll (cannotOpen "tail") portion.paths
  let lines := linesOf bytes
  emit (if portion.inBytes then bytes.drop (bytes.length - portion.amount)
    else (lines.drop (lines.length - portion.amount)).flatten)
  pure status

/-- Write the lines of the input in another order: sorted, or the last one first. -/
def sortLines (arguments : List String) : ShellM Nat := do
  let (status, bytes) ← readAll ("sort: cannot read: " ++ ·)
    (arguments.filter fun argument => !isOption argument)
  let complete := fun line : Bytes => if line.getLast? = some 10 then line else line ++ [10]
  let text := fun line : Bytes => Utf8.decodeLossy line
  let number := fun line : Bytes =>
    (integer? (String.ofList ((text line).toList.takeWhile (· ≠ '\n')))).getD 0
  let options := (arguments.filter isOption).flatMap String.toList
  let before := fun left right : Bytes =>
    if options.contains 'n' && number left ≠ number right then
      decide (number left < number right)
    else decide (text left ≤ text right)
  let sorted := ((linesOf bytes).map complete).mergeSort before
  let sorted := if options.contains 'u' then sorted.eraseDups else sorted
  emit (if options.contains 'r' then sorted.reverse else sorted).flatten
  pure status

/-- The characters that a set of a replacement names. A range stands for all characters
from its first to its last one. -/
def charactersOf : List Char → List Char
  | '\\' :: 'n' :: rest => '\n' :: charactersOf rest
  | '\\' :: 't' :: rest => '\t' :: charactersOf rest
  | '\\' :: 'r' :: rest => '\r' :: charactersOf rest
  | '\\' :: '0' :: rest => '\x00' :: charactersOf rest
  | '\\' :: '\\' :: rest => '\\' :: charactersOf rest
  | first :: '-' :: last :: rest =>
      let offsets := List.range (last.toNat + 1 - first.toNat)
      offsets.map (fun offset => Char.ofNat (first.toNat + offset)) ++ charactersOf rest
  | char :: rest => char :: charactersOf rest
  | [] => []

/-- Replace or drop bytes of the input. -/
def replaceBytes (arguments : List String) : ShellM Nat := do
  let input := (← get).input
  let bytesOf := fun text : String =>
    (charactersOf text.toList).map fun char => UInt8.ofNat char.toNat
  match arguments with
  | ["-d", dropped] => do
      emit (input.filter fun byte => !(bytesOf dropped).contains byte)
      pure 0
  | [replaced, replacements] => do
      let replacements := bytesOf replacements
      let pairs := (bytesOf replaced).zipIdx.map fun (byte, index) =>
        (byte, (replacements[index]?).getD (replacements.getLast?.getD byte))
      emit (input.map fun byte => (pairs.lookup byte).getD byte)
      pure 0
  | _ => pure 1

/-- Write the integers of a range on lines of their own. -/
def sequenceOf (arguments : List String) : ShellM Nat := do
  let numbers := arguments.map fun argument => (integer? argument).getD 0
  let range? : Option (Int × Int × Int) :=
    match numbers with
    | [last] => some (1, 1, last)
    | [first, last] => some (first, 1, last)
    | [first, step, last] => if step = 0 then none else some (first, step, last)
    | _ => none
  match range? with
  | none => pure 1
  | some (first, step, last) => do
      (List.range ((last - first).fdiv step + 1).toNat).forM fun offset =>
        say (toString (first + step * offset) ++ "\n")
      pure 0

end Shell
end ScriptHost
