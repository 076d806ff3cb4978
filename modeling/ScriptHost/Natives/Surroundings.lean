import ScriptHost.Natives.Connections
import ScriptHost.Value.Json

/-!
# Surroundings

What a script learns of where it runs, the lines that it reads and prints, and the request
to end. A request to end is remembered by the host and thrown at the script at once.
-/

namespace ScriptHost
namespace Natives

open Session

/-- The version of the host. -/
def version : String := "0.1.0"

/-- The name of the system that scripts are told. -/
def systemName : String := "Linux"

/-- The value of a text that may be missing. -/
def nullable : Option String → Value
  | some text => .string text
  | none => .null

/-- What stands behind a text at the front of another one. -/
def textBehind? (front text : String) : Option String :=
  if front.toList.isPrefixOf text.toList then
    some (String.ofList (text.toList.drop front.length))
  else none

/-- The value of a variable: what stands behind its name and an equals sign in the
environment, where each entry has its own name in front. -/
def variableValue?
    (host : Host)
    (name : String) : Option String :=
  if name = "" then none
  else host.environment.findSome? fun entry =>
    textBehind? (name ++ "=") (entry.1 ++ "=" ++ entry.2)

/-- Every variable as a property of an object. -/
def variablesValue (host : Host) : Value :=
  .record (host.environment.map fun (name, value) => (name, .string value))

/-- The first line of bytes with its line feed, and what follows it. -/
def cutLine (bytes : Bytes) : Bytes × Bytes :=
  let line := bytes.takeWhile (· ≠ lineFeed)
  match bytes.dropWhile (· ≠ lineFeed) with
  | [] => (line, [])
  | feed :: rest => (line ++ [feed], rest)

/-- Read a line without the characters that end it. At the end of the input there is
none. -/
def readLine : SessionM Value := do
  let (line, rest) := cutLine (← theHost).input
  changeHost fun host => { host with input := rest }
  if line.isEmpty then pure .null
  else
    match Utf8.decode? line with
    | some text => pure (.string (Capture.dropLineEnd text))
    | none => raise SystemError.invalidText.message

/-- Print values with blanks between them, on a line of their own. -/
def print (values : List Value) : SessionM Value := do
  let texts ← values.mapM fun value =>
    match value.text? with
    | some text => pure text
    | none => raiseType "cannot convert symbol to string"
  changeHost fun host =>
    { host with printed := host.printed ++ [String.intercalate " " texts ++ "\n"] }
  pure .undefined

/-- Ask the host to end with a code. -/
def exit (code? : Option Int32) : SessionM Value := do
  let code := code?.getD 0
  changeHost fun host => host.askExit code
  raise (exitMessage code)

open Parameters in
/-- The functions for the surroundings. -/
def surroundings : List (String × Native) := [
  ("osType", .plain 0 (pure ()) fun _ => pure (.string systemName)),
  ("commandLineArgs", .plain 0 (pure ()) fun _ => do
    return .array ((← theHost).arguments.map Value.string)),
  ("env", .plain 1 (next Conversion.string) fun name => do
    return nullable (variableValue? (← theHost) name)),
  ("envAll", .plain 0 (pure ()) fun _ => do return variablesValue (← theHost)),
  ("exit", .plain 0 (next? Conversion.int) exit),
  ("readLine", .plain 0 (pure ()) fun _ => readLine),
  ("print", ⟨0, fun _ values => print values⟩)]

/-- The properties of the host that are no functions. -/
def constants (host : Host) : List (String × Value) := [
  ("TCP_BYTES", .int (Int32.ofNat (Payload.bytes []).tag.toNat)),
  ("TCP_TEXT", .int (Int32.ofNat (Payload.text "").tag.toNat)),
  ("version", .string version),
  ("settings", .ofJson host.settings.toJson)]

end Natives
end ScriptHost
