import ScriptHost.Shell.Directories
import ScriptHost.Shell.Expansion
import ScriptHost.Shell.Tests

/-!
# Programs

The programs that are installed and the commands that a shell knows itself. Each one reads
its arguments and the state of the shell and answers with a status.
-/

namespace ScriptHost
namespace Shell

/-- The status of a truth value. -/
def statusOf (holds : Bool) : Nat :=
  if holds then 0 else 1

/-! ## Time and signals -/

/-- The nanoseconds of a number of seconds with decimal places. -/
def nanoseconds (text : String) : Nat :=
  let whole := text.toList.takeWhile Char.isDigit
  let places := ((text.toList.dropWhile Char.isDigit).drop 1).takeWhile Char.isDigit
  ofDecimalDigits whole * 1000000000
    + ofDecimalDigits ((places ++ List.replicate 9 '0').take 9)

/-- Let time pass. -/
def sleep (arguments : List String) : ShellM Nat := do
  if arguments.isEmpty then
    warn "sleep: missing operand\nTry 'sleep --help' for more information.\n"
    pure 1
  else
    for argument in arguments do
      modify fun state => { state with elapsed := state.elapsed + nanoseconds argument }
    pure 0

/-- The number of a signal by its name or number. -/
def signalNumber (name : String) : Nat :=
  match name with
  | "HUP" => 1
  | "INT" => 2
  | "QUIT" => 3
  | "ABRT" => 6
  | "KILL" => 9
  | "USR1" => 10
  | "SEGV" => 11
  | "USR2" => 12
  | "PIPE" => 13
  | "ALRM" => 14
  | "TERM" => 15
  | name => name.toNat?.getD 15

/-- What a shell reports about a process that a signal has ended. -/
def signalReport (signal : Nat) : String :=
  match signal with
  | 1 => "Hangup\n"
  | 2 => "\n"
  | 3 => "Quit\n"
  | 6 => "Aborted\n"
  | 9 => "Killed\n"
  | 10 => "User defined signal 1\n"
  | 11 => "Segmentation fault\n"
  | 12 => "User defined signal 2\n"
  | 13 => ""
  | 14 => "Alarm clock\n"
  | 15 => "Terminated\n"
  | _ => "\n"

/-- Send a signal. A shell that sends one to itself is affected, unless nothing but its
presence is asked for. -/
def sendSignal (signal : Nat) (process : String) : ShellM Nat := do
  if process ≠ toString processNumber then
    complain "kill: No such process"
    pure 1
  else if signal = 0 then pure 0
  else throw (.killed signal)

/-- Send a signal as arguments tell. -/
def kill (arguments : List String) : ShellM Nat :=
  match arguments with
  | ["-s", name, process] => sendSignal (signalNumber name) process
  | [option, process] => sendSignal (signalNumber (String.ofList (option.toList.drop 1))) process
  | [process] => sendSignal (signalNumber "TERM") process
  | _ => pure 1

/-! ## The state of the shell -/

/-- Make another directory the current one. -/
def changeDirectory (arguments : List String) : ShellM Nat := do
  let path := arguments.head?.getD ((← get).parameter "HOME")
  match (← get).files.changeDirectory path with
  | .ok files => do
      modify fun state => { state with files := files }
      pure 0
  | .error _ => do
      complain ("cd: can't cd to " ++ path)
      pure 2

/-- The largest number that a shell takes as a code. -/
def largestCode : Int := Int32.maxValue.toInt

/-- Leave the shell with the code that a text writes. -/
def leaveWith (text : String) : ShellM Nat := do
  match integer? text.trimAscii.toString with
  | some code =>
      if 0 ≤ code && code ≤ largestCode then throw (.exited (code.toNat % 256))
  | none => pure ()
  complain ("exit: Illegal number: " ++ text)
  throw (.exited 2)

/-- Leave the shell. -/
def leave (arguments : List String) : ShellM Nat := do
  match arguments with
  | [] => throw (.exited (← get).status)
  | text :: _ => leaveWith text

/-- Give a variable a value if one is written behind an equals sign. The answer is the
name. -/
def assignArgument (argument : String) : ShellM String := do
  let chars := argument.toList
  let name := String.ofList (chars.takeWhile (· ≠ '='))
  match chars.dropWhile (· ≠ '=') with
  | [] => pure ()
  | _ :: value => modify fun state => state.assign name (String.ofList value)
  pure name

/-- Let programs see variables. -/
def exportVariables (arguments : List String) : ShellM Nat := do
  for argument in arguments do
    let name ← assignArgument argument
    modify fun state => { state with exported := name :: state.exported }
  pure 0

/-- Replace the arguments of the shell by those that follow a pair of dashes. -/
def setArguments (arguments : List String) : ShellM Nat := do
  match arguments with
  | "--" :: rest =>
      modify fun state => { state with arguments := state.arguments.take 1 ++ rest }
  | _ => pure ()
  pure 0

/-- Drop the first arguments of the shell. -/
def shiftArguments (arguments : List String) : ShellM Nat := do
  let count := (arguments.head?.bind String.toNat?).getD 1
  modify fun state =>
    { state with arguments := state.arguments.take 1 ++ state.arguments.drop (count + 1) }
  pure 0

/-- Give the fields of a line to variables; the last one takes all that is left. -/
def assignFields : List String → List String → ShellM Unit
  | [], _ => pure ()
  | [name], fields => modify fun state => state.assign name (String.intercalate " " fields)
  | name :: names, fields => do
      modify fun state => state.assign name (fields.head?.getD "")
      assignFields names (fields.drop 1)

/-- Read a line of the input into variables. A line without an end is the last one. -/
def readLine (arguments : List String) : ShellM Nat := do
  let input := (← get).input
  let line := input.takeWhile (· ≠ 10)
  let fields := ((⟨[], none⟩ : Fields).appendCut (Utf8.decodeLossy line).toList).finish.complete
  modify fun state => { state with input := input.drop (line.length + 1) }
  assignFields (operands arguments) fields
  pure (statusOf (line.length < input.length))

/-! ## Tests and output -/

/-- Answer a test; one that cannot be understood has a status of its own. -/
def answerTest
    (name : String)
    (result : Except TestFault Bool) : ShellM Nat := do
  match result with
  | .ok holds => pure (statusOf holds)
  | .error fault => do
      complain (name ++ ": " ++ fault.message)
      pure 2

/-- Answer a test in brackets. -/
def bracketTest (arguments : List String) : ShellM Nat := do
  let files := (← get).files
  answerTest "["
    (if arguments.getLast? = some "]" then testHolds files arguments.dropLast
      else .error .missingBracket)

/-- Write arguments as a format tells. -/
def writeFormatted (arguments : List String) : ShellM Nat := do
  if arguments.isEmpty then
    complain "printf: usage: printf format [arg ...]"
    pure 2
  else emitFor "printf" (printfBytes arguments)

/-- Write the path of the current directory. -/
def writeDirectory : ShellM Nat := do
  emitFor "pwd" (Utf8.encode ((← get).files.currentPath ++ "\n"))

/-! ## Names -/

/-- Where programs are installed. -/
def programDirectories : List String := ["/bin", "/usr/bin"]

/-- The name of an installed program by its path. -/
def installedName? (path : String) : Option String :=
  programDirectories.findSome? fun directory =>
    if (directory ++ "/").toList.isPrefixOf path.toList then
      some (String.ofList (path.toList.drop (directory.length + 1)))
    else none

/-- A program that can be started by its name. -/
def program? (name : String) (arguments : List String) : Option (ShellM Nat) :=
  match name with
  | "echo" => some (emitFor "echo" (echoBytes false arguments))
  | "printf" => some (writeFormatted arguments)
  | "true" => some (pure 0)
  | "false" => some (pure 1)
  | "ls" => some (list arguments)
  | "cat" => some (concatenate arguments)
  | "wc" => some (count arguments)
  | "head" => some (head arguments)
  | "tail" => some (tail arguments)
  | "sort" => some (sortLines arguments)
  | "tr" => some (replaceBytes arguments)
  | "seq" => some (sequenceOf arguments)
  | "touch" => some (touch arguments)
  | "mkdir" => some (makeDirectories arguments)
  | "rm" => some (remove arguments)
  | "rmdir" => some (removeDirectories arguments)
  | "sleep" => some (sleep arguments)
  | "pwd" => some writeDirectory
  | "test" => some do answerTest "test" (testHolds (← get).files arguments)
  | "[" => some (bracketTest arguments)
  | _ => none

/-- A command that the shell knows itself or can start. -/
def command? (name : String) (arguments : List String) : Option (ShellM Nat) :=
  match name with
  | ":" => some (pure 0)
  | "echo" => some (emitFor "echo" (echoBytes true arguments))
  | "exit" => some (leave arguments)
  | "return" => some (leave arguments)
  | "break" => some (throw (.leftLoop false))
  | "continue" => some (throw (.leftLoop true))
  | "kill" => some (kill arguments)
  | "cd" => some (changeDirectory arguments)
  | "export" => some (exportVariables arguments)
  | "unset" => some do
      arguments.forM fun name => modify fun state => state.forget name
      pure 0
  | "set" => some (setArguments arguments)
  | "shift" => some (shiftArguments arguments)
  | "read" => some (readLine arguments)
  | "wait" => some (pure 0)
  | name => program? name arguments

end Shell
end ScriptHost
