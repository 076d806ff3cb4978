import ScriptHost.Board
import ScriptHost.ChildProcess.Capture
import ScriptHost.FileSystem
import ScriptHost.SystemError

/-!
# Processes

A process is started from the name of a program and its arguments, in a directory of
its own if one is named. It ends with a code, and what it wrote is kept if asked for.
What becomes of a process, and when, is up to the machine on which it runs.
-/

namespace ScriptHost

/-- What is to be run. -/
structure ProcessSpec where
  file : String
  arguments : List String
  capture : Bool
  directory? : Option String
deriving DecidableEq, Repr

/-- A process could not be started, or it was lost while the host waited for it. -/
inductive ProcessError
  | start (file : String) (source : SystemError)
  | wait (file : String) (source : SystemError)
deriving DecidableEq, Repr

/-- The text of a failure. -/
def ProcessError.message : ProcessError → String
  | .start file source => "failed to start '" ++ file ++ "': " ++ source.message
  | .wait file source => "failed waiting for '" ++ file ++ "': " ++ source.message

/-- How a process ended. The output is there only if it was asked for. -/
structure ProcessOutcome where
  code : Int32
  output? : Option String
deriving DecidableEq, Repr

namespace ChildProcess

/-- The code of a process that was killed by a signal. -/
def killedCode : Int32 := -1

/-- The code reported for a process that could not be run. -/
def failedStartCode : Int32 := 1

/-- How a process ends: it is not started, it is lost, or both of its streams are read out and
it ends with a code, unless it is killed by a signal. -/
inductive Ending
  | refused (source : SystemError)
  | lost (source : SystemError)
  | ended (code? : Option Int32) (transmission : Transmission)

/-- What becomes of a process: how it ends, which files it leaves, and after how many
nanoseconds. -/
structure Fate where
  ending : Ending
  files : FileSystem
  elapsed : Nat

/-- What becomes of the processes on a machine, given the files and the environment that each of
them finds. A process in the background goes by its operation, and may fare otherwise than one
with the same specification. -/
abbrev Machine :=
  Option OperationId → FileSystem → List (String × String) → ProcessSpec → Fate

/-- A process that has ended: how, with which files, and after how many
nanoseconds. -/
structure Finished where
  result : Except ProcessError ProcessOutcome
  files : FileSystem
  elapsed : Nat

/-- What is told of the end of a process. -/
def conclude (spec : ProcessSpec) : Ending → Except ProcessError ProcessOutcome
  | .refused source => .error (.start spec.file source)
  | .lost source => .error (.wait spec.file source)
  | .ended code? transmission =>
      .ok ⟨code?.getD killedCode,
        if spec.capture then some transmission.capture.text else none⟩

/-- Run a process to its end. -/
def run
    (machine : Machine)
    (operation? : Option OperationId)
    (files : FileSystem)
    (environment : List (String × String))
    (spec : ProcessSpec) : Finished :=
  let fate := machine operation? files environment spec
  ⟨conclude spec fate.ending, fate.files, fate.elapsed⟩

/-- How a process ended for those who only want a code: a failed start counts as a
process that wrote nothing. -/
def outcomeOf
    (spec : ProcessSpec) : Except ProcessError ProcessOutcome → ProcessOutcome
  | .ok outcome => outcome
  | .error _ => ⟨failedStartCode, if spec.capture then some "" else none⟩

end ChildProcess
end ScriptHost
