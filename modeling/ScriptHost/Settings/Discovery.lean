import ScriptHost.FileSystem.Access
import ScriptHost.Settings.Document

/-!
# Finding settings

The settings of a script come from a file. An environment variable can name it, and
then it has to be there; otherwise a file next to the script is used if there is one.
-/

namespace ScriptHost

/-- Why settings could not be loaded. -/
inductive SettingsError
  | read (path : String) (source : SystemError)
  | parse (path : String) (problem : Settings.Problem)
deriving DecidableEq, Repr

/-- The text of a failure to load settings. -/
def SettingsError.message : SettingsError → String
  | .read path source => "failed to read settings from " ++ path ++ ": " ++ source.message
  | .parse path problem => "invalid settings in " ++ path ++ ": " ++ problem.category

namespace Settings

/-- The name of the file next to a script. -/
def fileName : String := "tether.json"

/-- The environment variable that names a file. -/
def variableName : String := "TETHER_CONFIG"

/-- The settings in a file. -/
def load
    (system : FileSystem)
    (path : String) : Except SettingsError Settings :=
  match system.readFile path with
  | .error source => .error (.read path source)
  | .ok content =>
      match Utf8.decode? content with
      | none => .error (.read path .invalidText)
      | some text =>
          match parse text.toList with
          | .ok settings => .ok settings
          | .error problem => .error (.parse path problem)

/-- The settings of a script in a directory, with the file that the environment names. -/
def discover
    (system : FileSystem)
    (named? : Option String)
    (directory : String) : Except SettingsError Settings :=
  match named? with
  | some path => load system path
  | none =>
      let path := Path.join directory fileName
      if system.isFile path then load system path else .ok default

end Settings
end ScriptHost
