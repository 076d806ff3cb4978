import ScriptHost.Http.Exchange
import ScriptHost.Session

/-!
# Requests of scripts

A script downloads a file in the background, or makes a request and waits for its
response. Whatever the status of a response is, the script gets its body.
-/

namespace ScriptHost
namespace Natives

open Session

/-- Download a file in the background. -/
def httpDownload (url path : String) : SessionM Value := do
  let operation ← askHost fun host =>
    host.begin Host.downloadTime fun operation => .download operation url path
  return .ofHandle (← askHost fun host => host.holdOperation operation .void)

/-- The headers that the properties of a value name. -/
def headersOf (value : Value) : SessionM (List (String × String)) :=
  value.properties.mapM fun (name, value) => do
    match value.text? with
    | some text => pure (name, text)
    | none => raiseType "cannot convert symbol to string"

/-- The content of a request that a value stands for. -/
def bodyOf (value : Value) : Except ConversionError Http.Body :=
  match value with
  | .string text => .ok (.text text)
  | value => (Conversion.packet value).map Http.Body.bytes

/-- What a script says of a request. -/
structure WebRequest where
  url : String
  method : String
  body? : Option Value
  headers? : Option Value
  binary? : Option Bool

/-- The value of the body of a response. -/
def responseValue
    (binary : Bool)
    (body : Bytes) : Value :=
  if binary then .bytes body else .string (Utf8.decodeLossy body)

/-- Make a request and wait for its response. -/
def httpRequest (request : WebRequest) : SessionM Value := do
  let headers ←
    match request.headers? with
    | none => pure []
    | some value => headersOf value
  let body? ←
    match request.body? with
    | none => pure none
    | some value => do
        let body ← converted (bodyOf value)
        pure (some body)
  let result ← askHost fun host =>
    let (result, web) := Http.send host.web ⟨request.method, request.url, headers, body?⟩
    (result, { host with web := web })
  match result with
  | .error failure => raise failure.message
  | .ok response => pure (responseValue (request.binary?.getD false) response.body)

open Parameters in
/-- The functions for the web. -/
def web : List (String × Native) := [
  ("httpDownload", .plain 2
    (do return (← next Conversion.string, ← next Conversion.string))
    fun (url, path) => httpDownload url path),
  ("httpRequest", .plain 2
    (do return (⟨← next Conversion.string, ← next Conversion.string, ← next? Conversion.any,
      ← next? Conversion.object, ← next? Conversion.bool⟩ : WebRequest))
    httpRequest)]

end Natives
end ScriptHost
