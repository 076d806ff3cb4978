import ScriptHost.Natives.Connections
import ScriptHost.Natives.Processes
import ScriptHost.Natives.Storage
import ScriptHost.Natives.Surroundings
import ScriptHost.Natives.Tasks
import ScriptHost.Natives.Web

/-!
# The functions of the host

Every function that a script can call on its host, by name, and the other properties that
the host shows to scripts.
-/

namespace ScriptHost
namespace Natives

/-- Every function of the host by its name. -/
def all : List (String × Native) :=
  tasks ++ processes ++ connections ++ web ++ surroundings ++ storage

/-- Call a function of the host. -/
def call
    (invoke : Invoke)
    (name : String)
    (arguments : List Value) : SessionM Value :=
  match all.lookup name with
  | some native => native.call invoke arguments
  | none => Session.raiseType "not a function"

/-- The host as scripts see it: its constants and its functions. -/
def asValue (host : Host) : Value :=
  .record (constants host ++ all.map fun entry => (entry.1, .function (.host entry.1)))

/-- The global values that a script finds before it defines any. -/
def globals (host : Host) : List (String × Value) := [
  ("host", asValue host),
  ("print", .function (.host "print"))]

end Natives
end ScriptHost
