import ScriptHost.Http.Url
import ScriptHost.SystemError
import ScriptHost.Text.Quoted

/-!
# Requests

A request has a method, an address, headers and perhaps a body. It can be sent only if
each of them is well formed. A text as the body tells its type, unless the request names
one itself.
-/

namespace ScriptHost
namespace Http

/-- The content of a request. -/
inductive Body
  | text (content : String)
  | bytes (content : Bytes)
deriving DecidableEq, Repr

/-- The bytes of a body. -/
def Body.content : Body → Bytes
  | .text content => Utf8.encode content
  | .bytes content => content

/-- What is to be asked. -/
structure Request where
  method : String
  url : String
  headers : List (String × String)
  body? : Option Body
deriving DecidableEq, Repr

/-- A request as it goes out. Names of headers are in small letters. -/
structure Message where
  method : String
  url : Url
  headers : List (String × String)
  body : Bytes
deriving DecidableEq, Repr

/-- Why a request has no response. -/
inductive Fault
  | malformed (url? : Option Url)
  | noResponse (url : Url)
  | cutShort
deriving DecidableEq, Repr

/-- Why a request or a download fails. -/
inductive Failure
  | request (url : String) (fault : Fault)
  | status (url : String) (code : Nat)
  | write (path : String) (source : SystemError)
  | method (name : String)
deriving DecidableEq, Repr

/-- The words for a fault. -/
def Fault.message : Fault → String
  | .malformed none => "builder error"
  | .malformed (some url) => "builder error for url (" ++ url.text ++ ")"
  | .noResponse url => "error sending request for url (" ++ url.text ++ ")"
  | .cutShort => "error decoding response body"

/-- The standard reason of a status code. -/
def reason? : Nat → Option String
  | 100 => some "Continue"
  | 101 => some "Switching Protocols"
  | 102 => some "Processing"
  | 200 => some "OK"
  | 201 => some "Created"
  | 202 => some "Accepted"
  | 203 => some "Non Authoritative Information"
  | 204 => some "No Content"
  | 205 => some "Reset Content"
  | 206 => some "Partial Content"
  | 207 => some "Multi-Status"
  | 208 => some "Already Reported"
  | 226 => some "IM Used"
  | 300 => some "Multiple Choices"
  | 301 => some "Moved Permanently"
  | 302 => some "Found"
  | 303 => some "See Other"
  | 304 => some "Not Modified"
  | 305 => some "Use Proxy"
  | 307 => some "Temporary Redirect"
  | 308 => some "Permanent Redirect"
  | 400 => some "Bad Request"
  | 401 => some "Unauthorized"
  | 402 => some "Payment Required"
  | 403 => some "Forbidden"
  | 404 => some "Not Found"
  | 405 => some "Method Not Allowed"
  | 406 => some "Not Acceptable"
  | 407 => some "Proxy Authentication Required"
  | 408 => some "Request Timeout"
  | 409 => some "Conflict"
  | 410 => some "Gone"
  | 411 => some "Length Required"
  | 412 => some "Precondition Failed"
  | 413 => some "Payload Too Large"
  | 414 => some "URI Too Long"
  | 415 => some "Unsupported Media Type"
  | 416 => some "Range Not Satisfiable"
  | 417 => some "Expectation Failed"
  | 418 => some "I'm a teapot"
  | 421 => some "Misdirected Request"
  | 422 => some "Unprocessable Entity"
  | 423 => some "Locked"
  | 424 => some "Failed Dependency"
  | 425 => some "Too Early"
  | 426 => some "Upgrade Required"
  | 428 => some "Precondition Required"
  | 429 => some "Too Many Requests"
  | 431 => some "Request Header Fields Too Large"
  | 451 => some "Unavailable For Legal Reasons"
  | 500 => some "Internal Server Error"
  | 501 => some "Not Implemented"
  | 502 => some "Bad Gateway"
  | 503 => some "Service Unavailable"
  | 504 => some "Gateway Timeout"
  | 505 => some "HTTP Version Not Supported"
  | 506 => some "Variant Also Negotiates"
  | 507 => some "Insufficient Storage"
  | 508 => some "Loop Detected"
  | 510 => some "Not Extended"
  | 511 => some "Network Authentication Required"
  | _ => none

/-- The number of a status and its reason. -/
def statusText (code : Nat) : String :=
  toString code ++ " " ++ (reason? code).getD "<unknown status code>"

/-- The words for a failure. -/
def Failure.message : Failure → String
  | .request url fault => "request to " ++ url ++ " failed: " ++ fault.message
  | .status url code => url ++ " answered with status " ++ statusText code
  | .write path source => "failed to write " ++ path ++ ": " ++ source.message
  | .method name => "invalid HTTP method " ++ Text.quoted name

namespace Request

/-- Whether a character may stand in a method or in the name of a header. -/
def isNameChar (char : Char) : Bool :=
  char.isAlphanum
    || ['!', '#', '$', '%', '&', '\'', '*', '+', '-', '.', '^', '_', '\x60', '|', '~'].contains char

/-- Whether a text is a method or the name of a header. -/
def isName (text : String) : Bool :=
  text ≠ "" && text.toList.all isNameChar

/-- Whether a text is the value of a header. -/
def isHeaderValue (text : String) : Bool :=
  text.toList.all fun char => char = '\t' || (0x20 ≤ char.toNat && char.toNat ≠ 0x7F)

/-- A text in small letters of the first table. -/
def lower (text : String) : String :=
  String.ofList (text.toList.map Char.toLower)

/-- The name of the header that tells the type of a body. -/
def typeHeader : String := "content-type"

/-- Whether a request names the type of its body. -/
def namesType (request : Request) : Bool :=
  request.headers.any fun (name, _) => lower name = typeHeader

/-- The headers of a request with the type of a text. -/
def outgoingHeaders (request : Request) : List (String × String) :=
  match request.body? with
  | some (.text _) =>
      if request.namesType then request.headers
      else (typeHeader, "text/plain; charset=utf-8") :: request.headers
  | _ => request.headers

/-- The message that a request goes out as, or why it cannot. -/
def prepare (request : Request) : Except Failure Message := do
  if !isName request.method then throw (.method request.method)
  let malformed := fun url? => Failure.request request.url (.malformed url?)
  let url ←
    match Url.ofText? request.url with
    | none => throw (malformed none)
    | some url => pure url
  if url.host?.isNone then throw (malformed (some url))
  let headers := request.outgoingHeaders
  if !headers.all fun (name, value) => isName name && isHeaderValue value then
    throw (malformed none)
  if url.scheme ∉ ["http", "https"] then throw (malformed (some url))
  pure {
    method := request.method
    url := url
    headers := headers.map fun (name, value) => (lower name, value)
    body := (request.body?.map Body.content).getD [] }

end Request
end Http
end ScriptHost
