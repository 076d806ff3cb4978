import ScriptHost.ChildProcess.Capture
import ScriptHost.FileSystem.Access

/-!
# The state of a shell

A shell works on files and variables and writes to two targets. What it writes to the
streams of its process is kept as a sequence of chunks, the last one first, and time passes
only when a command sleeps. A shell ends with a code or is killed by a signal.
-/

namespace ScriptHost
namespace Shell

/-- Where a descriptor leads. -/
inductive Target
  | stream (stream : Stream)
  | file (location : Location)
  | nowhere
  | closed
deriving DecidableEq, Repr

/-- Why the commands that follow are not run. A loop can be left for good or for its next
round. -/
inductive Stop
  | exited (code : Nat)
  | killed (signal : Nat)
  | leftLoop (goesOn : Bool)
deriving DecidableEq, Repr

/-- The state of a shell. Time is counted in nanoseconds. Programs that it starts see the
exported variables. -/
structure State where
  files : FileSystem
  bindings : List (String × String)
  exported : List String
  arguments : List String
  status : Nat
  input : Bytes
  chunks : List (Stream × Bytes)
  elapsed : Nat
  output : Target
  errors : Target

/-- A step of a shell. -/
abbrev ShellM := ExceptT Stop (StateM State)

/-- The number of the process that every shell is told. -/
def processNumber : Nat := 4242

/-- The path that swallows what is written to it and from which nothing can be read. -/
def nowherePath : String := "/dev/null"

/-- Put a chunk in front of those that were written after it. Neighbours of one stream
are joined. -/
def joinChunk
    (later : List (Stream × Bytes))
    (chunk : Stream × Bytes) : List (Stream × Bytes) :=
  match later with
  | [] => [chunk]
  | next :: rest =>
      if next.1 = chunk.1 then (chunk.1, chunk.2 ++ next.2) :: rest else chunk :: later

/-- What was written, in order. -/
def State.written (state : State) : List (Stream × Bytes) :=
  state.chunks.foldl joinChunk []

/-! ## Output -/

/-- Write bytes to a target. -/
def writeTo (target : Target) (bytes : Bytes) : ShellM Unit := do
  if !bytes.isEmpty then
    match target with
    | .stream stream =>
        modify fun state => { state with chunks := (stream, bytes) :: state.chunks }
    | .file location =>
        modify fun state =>
          { state with
            files := state.files.put location
              (.file (state.files.contentAt location ++ bytes)) }
    | .nowhere => pure ()
    | .closed => pure ()

/-- Write bytes to the output. -/
def emit (bytes : Bytes) : ShellM Unit := do
  writeTo (← get).output bytes

/-- Write a text to the output. -/
def say (text : String) : ShellM Unit :=
  emit (Utf8.encode text)

/-- Write a text to the errors. -/
def warn (text : String) : ShellM Unit := do
  writeTo (← get).errors (Utf8.encode text)

/-- Report a problem under the name of the shell. -/
def complain (text : String) : ShellM Unit := do
  let name := (← get).arguments.head?.getD "sh"
  warn (name ++ ": 1: " ++ text ++ "\n")

/-- Write bytes for a command of the shell. If there is nowhere to write them, that is
reported. -/
def emitFor
    (command : String)
    (bytes : Bytes) : ShellM Nat := do
  if (← get).output = .closed && !bytes.isEmpty then
    complain (command ++ ": " ++ command ++ ": I/O error")
    pure 1
  else
    emit bytes
    pure 0

end Shell
end ScriptHost
