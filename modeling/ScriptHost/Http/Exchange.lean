import ScriptHost.FileSystem.Access
import ScriptHost.Http.Request

/-!
# Exchanges and downloads

A server answers each message by hanging up, or with a status and a body that comes in
chunks and may break off. A request wants the whole body whatever the status is. A
download wants a success: it makes its file when the status has come and writes each
chunk as it comes, so that a body that breaks off leaves what came before.
-/

namespace ScriptHost
namespace Http

/-- What comes back for a message. -/
inductive Reply
  | nothing
  | response (status : Nat) (chunks : List Bytes) (isWhole : Bool)
deriving DecidableEq, Repr

/-- The status and the body of a response. -/
structure Response where
  status : Nat
  body : Bytes
deriving DecidableEq, Repr

/-- Whether a status stands for success. -/
def isSuccess (status : Nat) : Bool :=
  200 ≤ status && status < 300

/-- Read the whole response to a request. -/
def readResponse
    (request : Request)
    (message : Message) : Reply → Except Failure Response
  | .nothing => .error (.request request.url (.noResponse message.url))
  | .response status chunks isWhole =>
      if isWhole then .ok ⟨status, chunks.flatten⟩
      else .error (.request request.url .cutShort)

/-- Append chunks to a file one after the other. -/
def writeChunks
    (path : String)
    (files : FileSystem) : List Bytes → Except Failure Unit × FileSystem
  | [] => (.ok (), files)
  | chunk :: chunks =>
      match files.appendFile path chunk with
      | .ok files => writeChunks path files chunks
      | .error source => (.error (.write path source), files)

/-- Store the body of a reply in a file. The answer is the number of bytes written. -/
def store
    (url : String)
    (target : Url)
    (path : String)
    (files : FileSystem) : Reply → Except Failure Nat × FileSystem
  | .nothing => (.error (.request url (.noResponse target)), files)
  | .response status chunks isWhole =>
      if !isSuccess status then (.error (.status url status), files)
      else
        match files.writeFile path [] with
        | .error source => (.error (.write path source), files)
        | .ok files =>
            match writeChunks path files chunks with
            | (.error failure, files) => (.error failure, files)
            | (.ok (), files) =>
                if isWhole then (.ok chunks.flatten.length, files)
                else (.error (.request url .cutShort), files)

/-! ## Servers -/

/-- A response that a server has ready. A length other than that of the body breaks it
off, or leaves its end out. -/
structure Canned where
  status : Nat
  body : Bytes
  length? : Option Nat
  hangsUp : Bool
deriving DecidableEq, Repr

/-- A server that answers its callers one after the other, and what they said. -/
structure Server where
  authority : String
  ready : List Canned
  received : List Message
deriving DecidableEq, Repr

namespace Server

/-- A server that answers nobody. -/
def silent : Server :=
  ⟨"", [], []⟩

/-- Whether a response to a method has no body whatever it says. -/
def hasNoBody (method : String) (status : Nat) : Bool :=
  method = "HEAD" || status = 204 || status = 304 || (100 ≤ status && status < 200)

/-- What a caller gets of a response. -/
def reply (method : String) (canned : Canned) : Reply :=
  if canned.hangsUp then .nothing
  else if hasNoBody method canned.status then .response canned.status [] true
  else
    let length := canned.length?.getD canned.body.length
    .response canned.status [canned.body.take length] (length ≤ canned.body.length)

/-- Send a message. Whoever calls another place, or after the last response, gets
nothing. -/
def ask
    (server : Server)
    (message : Message) : Reply × Server :=
  if message.url.scheme = "http" && message.url.authority = server.authority then
    match server.ready with
    | [] => (.nothing, server)
    | canned :: ready =>
        (reply message.method canned,
          { server with ready := ready, received := server.received ++ [message] })
  else (.nothing, server)

end Server

/-- Make a request to its end. -/
def send
    (server : Server)
    (request : Request) : Except Failure Response × Server :=
  match request.prepare with
  | .error failure => (.error failure, server)
  | .ok message =>
      let (reply, server) := server.ask message
      (readResponse request message reply, server)

/-- Download a file. -/
def download
    (server : Server)
    (url path : String)
    (files : FileSystem) : Except Failure Nat × FileSystem × Server :=
  let request : Request := ⟨"GET", url, [], none⟩
  match request.prepare with
  | .error failure => (.error failure, files, server)
  | .ok message =>
      let (reply, server) := server.ask message
      let (result, files) := store url message.url path files reply
      (result, files, server)

end Http
end ScriptHost
