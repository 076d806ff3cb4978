import ScriptHost.ChildProcess
import ScriptHost.Shell.Run

/-!
# The machine of the installed programs

A name without a slash is looked up among the installed programs; a name with one is
the path of a file, and of the files only the installed programs can be run. Programs
run as they are written, and time passes by a clock of their own.
-/

namespace ScriptHost
namespace Shell

/-- The nanoseconds that it takes to run a program besides the time it sleeps. -/
def startTime : Nat := 4000000

/-- The nanoseconds that a start takes that fails. -/
def failedStartTime : Nat := 500000

/-- An installed program with its arguments. -/
def installed?
    (name : String)
    (arguments : List String) : Option (ShellM Nat) :=
  if name = "sh" then some (shell arguments) else program? name arguments

/-- Find the program of a name in a file system. -/
def findProgram
    (files : FileSystem)
    (name : String)
    (arguments : List String) : Except SystemError (ShellM Nat) :=
  if name.toList.contains '/' then
    match installedName? name with
    | some installed =>
        match installed? installed arguments with
        | some program => .ok program
        | none => .error .noSuchFile
    | none =>
        match files.status name with
        | .error problem => .error problem
        | .ok _ => .error .accessDenied
  else if FileSystem.longestName < name.utf8ByteSize then .error .nameTooLong
  else if name = "." || name = ".." then .error .accessDenied
  else
    match installed? name arguments with
    | some program => .ok program
    | none => .error .noSuchFile

/-- Whether a text contains the character that no argument may contain. -/
def hasNul (text : String) : Bool :=
  text.toList.contains '\x00'

/-- Prepare a start: check the texts, enter the directory, and find the program. -/
def prepare
    (files : FileSystem)
    (spec : ProcessSpec) : Except SystemError (ShellM Nat × FileSystem) := do
  if hasNul spec.file || spec.arguments.any hasNul || spec.directory?.any hasNul then
    throw .nulInData
  let entered ←
    match spec.directory? with
    | none => pure files
    | some directory => files.changeDirectory directory
  pure (← findProgram entered spec.file spec.arguments, entered)

/-- The state in which a program starts. -/
def initialState
    (files : FileSystem)
    (environment : List (String × String)) : State where
  files := files
  bindings := environment
  exported := environment.map Prod.fst
  arguments := ["sh"]
  status := 0
  input := []
  chunks := []
  elapsed := 0
  output := .stream .output
  errors := .stream .errors

/-- The code of a program that has ended, unless it was killed. -/
def codeOf? : Except Stop Nat → Option Int32
  | .ok code => some (Int32.ofNat code)
  | .error (.exited code) => some (Int32.ofNat code)
  | .error (.leftLoop _) => some 0
  | .error (.killed _) => none

/-- The machine on which the installed programs run. The directory of the host stays as it is. -/
def machine : ChildProcess.Machine :=
  fun _ files environment spec =>
    match prepare files spec with
    | .error source => ⟨.refused source, files, failedStartTime⟩
    | .ok (program, entered) =>
        let (ending, state) := program.run.run (initialState entered environment)
        { ending := .ended (codeOf? ending) (.ofChunks state.written)
          files := { state.files with current := files.current }
          elapsed := startTime + state.elapsed }

end Shell
end ScriptHost
