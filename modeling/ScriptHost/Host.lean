import ScriptHost.Agenda
import ScriptHost.Delay
import ScriptHost.HandleTable
import ScriptHost.Http.Exchange
import ScriptHost.Network
import ScriptHost.Registry
import ScriptHost.Scheduler
import ScriptHost.Settings
import ScriptHost.Shell.Machine
import ScriptHost.Value

/-!
# The host of a script

The host keeps what a script holds by number: operations, batches of processes and
connections. Functions of the script that the host may call later are parked in its
registry, each owned by the entry that will call it. Work in the background is on the
agenda; it is done when its time has come, and its outcome settles an operation on the
board.
-/

namespace ScriptHost

/-- An operation that a script holds, with the type of result that it yields by itself. -/
structure HeldOperation where
  operation : OperationId
  natural : ResultType
deriving DecidableEq

/-- A process of a batch, and who is told when it ends. -/
structure BatchEntry where
  spec : ProcessSpec
  onExit? : Option HandleKey
deriving DecidableEq

/-- Processes that are run together, and who is told of each. -/
structure Batch where
  callback : HandleKey
  entries : List BatchEntry
deriving DecidableEq

/-- The keys that a batch owns. -/
def Batch.keys (batch : Batch) : List HandleKey :=
  batch.callback :: batch.entries.filterMap BatchEntry.onExit?

/-- What a script wants to hear of a connection, and what it is told along. -/
structure Connection where
  transport : TransportId
  isServer : Bool
  onConnect? : Option HandleKey
  onDisconnect? : Option HandleKey
  onReceived? : Option HandleKey
  context : Value

/-- The keys that a connection owns. -/
def Connection.keys (connection : Connection) : List HandleKey :=
  [connection.onConnect?, connection.onDisconnect?, connection.onReceived?].filterMap id

/-- The number of a place where captured output is left. -/
abbrev OutputCell := Nat

/-- Work that is done in the background. -/
inductive Work
  | delay (operation : OperationId)
  | process
      (operation : OperationId)
      (spec : ProcessSpec)
      (directory : Location)
      (cell? : Option OutputCell)
  | download (operation : OperationId) (url path : String)

/-- The operation that work settles. -/
def Work.operation : Work → OperationId
  | .delay operation => operation
  | .process operation _ _ _ => operation
  | .download operation _ _ => operation

/-- What a process in the background came to. -/
structure EndedProcess where
  operation : OperationId
  spec : ProcessSpec
  result : Except ProcessError ProcessOutcome

/-- What befalls a connection: it is given to the script, pumping its events begins, a function
is told of one of them, the pumping is over, and the script disposes of it. -/
inductive Occasion
  | held
  | pumps
  | tells (function : Function)
  | pumped
  | disposed
deriving DecidableEq

/-- What befell the connections under their handles, in this order. -/
abbrev Occasions := List (ScriptHandle × Occasion)

/-- What befalls the requests of a script to end: the script asks to end with a code, a pump of
events tells it of its request, and a program takes the code for its own. -/
inductive ExitOccasion
  | asked (code : Int32)
  | recalled (code : Int32)
  | taken
deriving DecidableEq

/-- What befell the requests of a script to end, in this order. -/
abbrev Exits := List ExitOccasion

/-- Who is told what came of an operation: a script that waits for it, or a function. -/
inductive Recipient
  | waiter
  | callback (function : Function)
deriving DecidableEq

/-- What befalls the operations that a script holds: one is given to the script, or its outcome is
there; the script asks for its status; it is claimed, and its recipient is handed what came of it;
or the script asks for one that it does not hold. -/
inductive Dealing
  | held (handle : ScriptHandle) (operation : OperationId)
  | settled (operation : OperationId) (outcome : Outcome)
  | shown (handle : ScriptHandle) (status : OperationStatus)
  | claimed (handle : ScriptHandle)
  | handed (handle : ScriptHandle) (recipient : Recipient) (delivery : Scheduler.Delivery)
  | missed (handle : ScriptHandle)

/-- What befell operations, in this order. -/
abbrev Dealings := List Dealing

/-- The state of a host. `parkings` tells how often a function was parked, without a limit,
`ended` tells of the processes in the background that have ended, in this order, `dealings` tells
what befell the operations, `occasions` what befell the connections, and `exits` what befell the
requests to end. -/
structure Host where
  settings : Settings
  machine : ChildProcess.Machine
  arguments : List String
  environment : List (String × String)
  input : Bytes
  printed : List String
  files : FileSystem
  network : Network
  web : Http.Server
  board : Board
  agenda : Agenda Work
  ended : List EndedProcess
  outputs : Array (Option String)
  callables : Registry Function
  parkings : Nat
  operations : HandleTable HeldOperation
  dealings : Dealings
  batches : HandleTable Batch
  connections : HandleTable Connection
  occasions : Occasions
  exitRequest? : Option Int32
  exits : Exits

namespace Host

/-- A host that nobody has called, on the machine of the installed programs. -/
def start
    (settings : Settings)
    (arguments : List String)
    (files : FileSystem) : Host where
  settings := settings
  machine := Shell.machine
  arguments := arguments
  environment := []
  input := []
  printed := []
  files := files
  network := .new true
  web := .silent
  board := .empty
  agenda := .empty
  ended := []
  outputs := #[]
  callables := .empty
  parkings := 0
  operations := .empty
  dealings := []
  batches := .empty
  connections := .empty
  occasions := []
  exitRequest? := none
  exits := []

/-! ## Tables -/

/-- The number of functions that are parked. -/
def liveCallables (host : Host) : Nat :=
  host.callables.size

/-- The number of operations that the script holds. -/
def pendingOperations (host : Host) : Nat :=
  host.operations.size

/-- The number of connections that the script holds. -/
def openConnections (host : Host) : Nat :=
  host.connections.size

/-- Park a function. -/
def park
    (host : Host)
    (function : Function) : HandleKey × Host :=
  let (callables, key) := host.callables.register function
  (key, { host with callables := callables, parkings := host.parkings + 1 })

/-- Park a function if there is one. -/
def park?
    (host : Host)
    (function? : Option Function) : Option HandleKey × Host :=
  match function? with
  | none => (none, host)
  | some function =>
      let (key, host) := host.park function
      (some key, host)

/-- End the registration of a function. -/
def release
    (host : Host)
    (key : HandleKey) : Host :=
  { host with callables := host.callables.release key }

/-- End the registration of a function if there is one. -/
def release?
    (host : Host)
    (key? : Option HandleKey) : Host :=
  match key? with
  | none => host
  | some key => host.release key

/-- End registrations, one after the other. -/
def releaseEach
    (host : Host)
    (keys : List HandleKey) : Host :=
  keys.foldl release host

/-- The function that is parked under a key. -/
def parked?
    (host : Host)
    (key? : Option HandleKey) : Option Function :=
  key?.bind host.callables.get?

/-- Give a batch to the script. A batch that still stood under its handle is let go. -/
def holdBatch
    (host : Host)
    (batch : Batch) : ScriptHandle × Host :=
  let (batches, handle) := host.batches.insert batch
  (handle,
    { host with batches := batches }.releaseEach (host.batches.occupant?.elim [] Batch.keys))

/-- Note what befalls a connection. -/
def note
    (host : Host)
    (handle : ScriptHandle)
    (occasion : Occasion) : Host :=
  { host with occasions := host.occasions ++ [(handle, occasion)] }

/-- Let go of a connection that the script does not hold any more. -/
def letGo
    (host : Host)
    (connection : Connection) : Host :=
  { host with network := host.network.dispose connection.transport }.releaseEach connection.keys

/-- Give a connection to the script. A connection that still stood under its handle is let
go. -/
def holdConnection
    (host : Host)
    (connection : Connection) : ScriptHandle × Host :=
  let (connections, handle) := host.connections.insert connection
  let holding := { host with connections := connections }.note handle .held
  (handle, host.connections.occupant?.elim holding holding.letGo)

/-- Note what befalls an operation. -/
def deal
    (host : Host)
    (dealing : Dealing) : Host :=
  { host with dealings := host.dealings ++ [dealing] }

/-- Give an operation to the script. -/
def holdOperation
    (host : Host)
    (operation : OperationId)
    (natural : ResultType) : ScriptHandle × Host :=
  let (operations, handle) := host.operations.insert ⟨operation, natural⟩
  (handle, { host with operations := operations }.deal (.held handle operation))

/-- Take an operation back from the script. -/
def takeOperation
    (host : Host)
    (handle : ScriptHandle) : Option (HeldOperation × Host) :=
  match host.operations.remove handle with
  | (some held, operations) =>
      some (held, { host with operations := operations }.deal (.claimed handle))
  | (none, _) => none

/-! ## Work -/

/-- Record the outcome of an operation. -/
def settle
    (host : Host)
    (operation : OperationId)
    (outcome : Outcome) : Host :=
  { host with board := host.board.settle operation outcome }.deal (.settled operation outcome)

/-- Leave captured output in its place. -/
def leaveOutput
    (host : Host)
    (cell? : Option OutputCell)
    (output? : Option String) : Host :=
  match cell?, output? with
  | some cell, some output => { host with outputs := host.outputs.set! cell (some output) }
  | _, _ => host

/-- Make a place for captured output. -/
def makeCell (host : Host) : OutputCell × Host :=
  (host.outputs.size, { host with outputs := host.outputs.push none })

/-- Take captured output from its place. -/
def takeOutput
    (host : Host)
    (cell : OutputCell) : Option String × Host :=
  (host.outputs[cell]?.join, { host with outputs := host.outputs.set! cell none })

/-- Run a process to its end in a directory. -/
def runProcess
    (host : Host)
    (operation? : Option OperationId)
    (spec : ProcessSpec)
    (directory : Location) : ChildProcess.Finished :=
  let finished := ChildProcess.run host.machine operation?
    { host.files with current := directory } host.environment spec
  { finished with files := { finished.files with current := host.files.current } }

/-- The outcome of an operation that runs a process. -/
def processOutcome : Except ProcessError ProcessOutcome → Outcome
  | .ok outcome => .ok (.int outcome.code)
  | .error error => .error (.failed error.message)

/-- The outcome of an operation that downloads a file. -/
def downloadOutcome : Except Http.Failure Nat → Outcome
  | .ok _ => .ok .void
  | .error failure => .error (.failed failure.message)

/-- Do work whose time has come. -/
def perform
    (host : Host) : Work → Host
  | .delay operation => host.settle operation Delay.outcome
  | .process operation spec directory cell? =>
      let finished := host.runProcess operation spec directory
      let process : EndedProcess := ⟨operation, spec, finished.result⟩
      let host := { host with files := finished.files, ended := host.ended ++ [process] }
      let host :=
        match finished.result with
        | .ok outcome => host.leaveOutput cell? outcome.output?
        | .error _ => host
      host.settle operation (processOutcome finished.result)
  | .download operation url path =>
      let (result, files, web) := Http.download host.web url path host.files
      { host with files := files, web := web }.settle operation (downloadOutcome result)

/-- Start work in the background that takes some time. -/
def begin
    (host : Host)
    (time : Nat)
    (work : OperationId → Work) : OperationId × Host :=
  let (board, operation) := host.board.create
  (operation, { host with board := board, agenda := host.agenda.add time (work operation) })

/-- Start a process in the background. -/
def beginProcess
    (host : Host)
    (spec : ProcessSpec)
    (cell? : Option OutputCell) : OperationId × Host :=
  let directory := host.files.current
  let elapsed := (host.runProcess host.board.create.2 spec directory).elapsed
  host.begin elapsed fun operation => .process operation spec directory cell?

/-- The nanoseconds that a download takes. -/
def downloadTime : Nat := 1000000

/-- Wait for the work that is done next. -/
def await? (host : Host) : Option Host :=
  match host.agenda.next? with
  | none => none
  | some (work, agenda) => some ({ host with agenda := agenda }.perform work)

/-- Do the work that is due up to a time. `fuel` bounds how much there is. -/
def passUntil (time : Nat) : Nat → Host → Host
  | 0, host => { host with agenda := host.agenda.advanceTo time }
  | fuel + 1, host =>
      match host.agenda.nextUntil? time with
      | none => { host with agenda := host.agenda.advanceTo time }
      | some (work, agenda) => passUntil time fuel ({ host with agenda := agenda }.perform work)

/-- Let some time pass. -/
def pass
    (host : Host)
    (time : Nat) : Host :=
  passUntil (host.agenda.now + time) host.agenda.appointments.length host

/-! ## The end -/

/-- Note that the script asks to end with a code. The last one counts. -/
def askExit
    (host : Host)
    (code : Int32) : Host :=
  { host with exitRequest? := some code, exits := host.exits ++ [.asked code] }

/-- Note that the script is told of its request to end. -/
def recallExit
    (host : Host)
    (code : Int32) : Host :=
  { host with exits := host.exits ++ [.recalled code] }

/-- Take the code with which the script asked to end. -/
def takeExit (host : Host) : Option Int32 × Host :=
  (host.exitRequest?, { host with exitRequest? := none, exits := host.exits ++ [.taken] })

/-- Let go of everything that the script holds. Connections go first. -/
def shutdown (host : Host) : Host :=
  { host with
    network := host.connections.entries.foldl
      (fun network entry => network.dispose entry.2.transport) host.network
    connections := host.connections.clear.2
    operations := host.operations.clear.2
    batches := host.batches.clear.2
    callables := host.callables.releaseAll.2 }

end Host
end ScriptHost
