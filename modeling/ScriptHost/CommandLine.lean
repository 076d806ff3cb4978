import ScriptHost.Session.Program
import ScriptHost.Settings.Discovery

/-!
# The command line

The program runs one script from the directory in which it lies, with the settings found
there, and ends with its code. What the script prints goes to the output; failures go to
the errors, with the reason of a failure below it.
-/

namespace ScriptHost
namespace CommandLine

/-- How the program ends, and what it wrote. -/
structure Ending where
  code : UInt8
  output : String
  errors : String
deriving DecidableEq, Repr

/-- What is around the program when it starts. -/
structure Surroundings where
  files : FileSystem
  environment : List (String × String)
  input : Bytes
  script : Script

/-- Why the program fails before or besides its script: what it was about to do, and the
reason if there is one. -/
structure Failure where
  context : String
  reason? : Option String
deriving DecidableEq, Repr

/-- The words for a failure. -/
def Failure.message (failure : Failure) : String :=
  "Error: " ++ failure.context
    ++ (failure.reason?.map fun reason => "\n\nCaused by:\n    " ++ reason).getD "" ++ "\n"

/-- How the program is called. -/
def usage : String := "usage: tether <entry.js> [args...]\n"

/-- The code of a program that is called in the wrong way. -/
def usageCode : UInt8 := 2

/-- The code of a program that fails. -/
def failureCode : UInt8 := 1

/-- The code of a program that crashes. -/
def crashCode : UInt8 := 101

/-- The absolute path of a location. -/
def absolutePath (location : Location) : String :=
  "/" ++ String.intercalate "/" location

/-- The location of what a path leads to. -/
def locate
    (files : FileSystem)
    (path : String) : Except SystemError Location := do
  let goal ← files.walk .follow path
  let _ ← files.find goal
  pure goal.location

/-- Find the script, and the directory that it lies in. -/
def findEntry
    (files : FileSystem)
    (entry : String) : Except Failure (Location × Location) :=
  match locate files entry with
  | .error source => .error ⟨"script not found: " ++ entry, some source.message⟩
  | .ok [] => .error ⟨"script path has no parent directory", none⟩
  | .ok location => .ok (location, location.dropLast)

/-- The settings for scripts in a directory. -/
def settingsFor
    (surroundings : Surroundings)
    (directory : Location) : Except Failure Settings :=
  let files := { surroundings.files with current := directory }
  match Settings.discover files (surroundings.environment.lookup Settings.variableName)
      (absolutePath directory) with
  | .ok settings => .ok settings
  | .error error =>
      .error ⟨error.message,
        match error with
        | .read _ source => some source.message
        | .parse _ problem => some problem.category⟩

/-- The ending of a program that fails. -/
def failed
    (output : String)
    (failure : Failure) : Ending :=
  ⟨failureCode, output, failure.message⟩

/-- The host of a script in a directory. -/
def hostOf
    (surroundings : Surroundings)
    (settings : Settings)
    (directory : Location)
    (arguments : List String) : Host :=
  { Host.start settings arguments { surroundings.files with current := directory } with
    environment := surroundings.environment
    input := surroundings.input }

/-- The ending of a script that was run. -/
def endingOf
    (output : String) : Except Interruption (Except ProgramError Int32) → Ending
  | .ok (.ok code) => ⟨UInt8.ofInt code.toInt, output, ""⟩
  | .ok (.error (.uncaught message)) => ⟨failureCode, output, "error: " ++ message ++ "\n"⟩
  | .ok (.error (.read path source)) =>
      failed output ⟨(ProgramError.read path source).message, some source.message⟩
  | .error .crashed => ⟨crashCode, output, ""⟩
  | .error _ => ⟨failureCode, output, ""⟩

/-- Run a script with arguments. -/
def runScript
    (surroundings : Surroundings)
    (entry : String)
    (arguments : List String) : Except Failure Ending := do
  let (location, directory) ← findEntry surroundings.files entry
  let settings ← settingsFor surroundings directory
  let host := hostOf surroundings settings directory arguments
  let (result, session) :=
    (Session.executeFile (absolutePath location)).run.run (.start host surroundings.script)
  pure (endingOf (String.join session.host.printed) result)

/-- Run the program with its arguments. -/
def run
    (surroundings : Surroundings)
    (arguments : List String) : Ending :=
  match arguments with
  | [] => ⟨usageCode, "", usage⟩
  | entry :: arguments =>
      match runScript surroundings entry arguments with
      | .ok ending => ending
      | .error failure => failed "" failure

end CommandLine
end ScriptHost
