import ScriptHost.Session.Steps

/-!
# Programs

A session runs programs. A program performs an act, and its code is the integer that the
act returns, or the one with which the script asked to end. What is thrown and not caught
is reported. Deferred calls are made when a program has ended, and after a function was
called from outside.
-/

namespace ScriptHost

/-- Why a program has no code. -/
inductive ProgramError
  | read (path : String) (source : SystemError)
  | uncaught (message : String)
deriving DecidableEq, Repr

/-- The words for a program without a code. -/
def ProgramError.message : ProgramError → String
  | .read path source => "failed to read " ++ path ++ ": " ++ source.message
  | .uncaught message => "uncaught exception: " ++ message

namespace Session

/-- The code of a program that returns a value. What is no integer of thirty-two bits
counts as zero. -/
def codeOf : Value → Int32
  | .int value => value
  | .float number =>
      match number.toInt? with
      | some value => if Value.fitsInt value then Int32.ofInt value else 0
      | none => 0
  | _ => 0

/-- Make the deferred calls in order, also those that are deferred meanwhile. What they
throw is dropped. `fuel` bounds their number. -/
def runJobs : Nat → SessionM Unit
  | 0 => throw .stuck
  | fuel + 1 => do
      match (← get).jobs with
      | [] => pure ()
      | job :: jobs => do
          modify fun session => { session with jobs := jobs }
          let _ ← caught (invoke (.script job) [.undefined])
          runJobs fuel

/-- Enough fuel for jobs that come to an end. -/
def jobFuel : Nat := 100000

/-- Take the code with which the script asked to end. -/
def takeExit : SessionM (Option Int32) :=
  askHost Host.takeExit

/-- Run a program. A request to end decides its code, whatever else came of it. -/
def execute (program : Act) : SessionM (Except ProgramError Int32) := do
  let evaluated ← reported (performAct invoke [] program)
  if evaluated.isOk then runJobs jobFuel
  match ← takeExit with
  | some code => pure (.ok code)
  | none => pure ((evaluated.map codeOf).mapError ProgramError.uncaught)

/-- Run a program and give back what it returns as JSON text, if it has that form. -/
def evaluateJson (program : Act) : SessionM (Except ProgramError (Option String)) := do
  match ← reported (performAct invoke [] program) with
  | .error message => pure (.error (.uncaught message))
  | .ok value => pure (value.jsonText?.mapError ProgramError.uncaught)

/-- The value of a global name. -/
def global
    (session : Session)
    (name : String) : Value :=
  ((session.globals ++ Natives.globals session.host).lookup name).getD .undefined

/-- Call a function by its name. -/
def callFunction (name : String) : SessionM (Except ProgramError Unit) := do
  let called ← reported do
    let function ← converted (Conversion.function (global (← get) name))
    let _ ← invoke function []
  match called with
  | .error message => pure (.error (.uncaught message))
  | .ok () => do
      runJobs jobFuel
      pure (.ok ())

/-- Run the program that the text of a file stands for. -/
def executeFile (path : String) : SessionM (Except ProgramError Int32) := do
  match ((Files.readText path).run.run (← theHost).files).1 with
  | .error error => pure (.error (.read path error.source))
  | .ok text => execute ((← get).script.program text)

/-! ## Requests -/

/-- What is asked of a session from outside. -/
inductive Request
  | step (step : Step)
  | execute (program : Act)
  | evaluateJson (program : Act)
  | callFunction (name : String)
  | executeFile (path : String) (program? : Option Act)
  | settings

/-- The answer of a request. -/
inductive Answer
  | result (result : Except Value Value)
  | code (code : Int32)
  | json (text? : Option String)
  | nothing
  | settings (settings : Settings)
  | failed (error : ProgramError)
  | crashed
  | stuck

/-- The answer of a program. -/
def programAnswer
    {α : Type}
    (answer : α → Answer) : Except ProgramError α → Answer
  | .ok value => answer value
  | .error error => .failed error

/-- Write a program to a file. -/
def writeProgram
    (path : String)
    (program : Act) : SessionM Unit := do
  let (text, script) := (← get).script.addProgram program
  modify fun session => { session with script := script }
  changeHost fun host =>
    { host with files := Files.place path (.file (Utf8.encode text)) host.files }

/-- Answer a request. -/
def answer : Request → SessionM Answer
  | .step step => do
      let result ← perform invoke [] step
      noteEndpoints [resultValue result]
      pure (.result result)
  | .execute program => do return programAnswer .code (← execute program)
  | .evaluateJson program => do return programAnswer .json (← evaluateJson program)
  | .callFunction name => do return programAnswer (fun _ => .nothing) (← callFunction name)
  | .executeFile path program? => do
      match program? with
      | some program => writeProgram path program
      | none => pure ()
      return programAnswer .code (← executeFile path)
  | .settings => do return .settings (← theHost).settings

/-- The answer of an interrupted request. -/
def interruptedAnswer : Interruption → Answer
  | .thrown value => .result (.error value)
  | .crashed => .crashed
  | .stuck => .stuck

/-- What a request came to: the answer, what was logged and printed meanwhile, and how
many functions, operations and connections are live afterwards. -/
structure Response where
  answer : Answer
  log : List LogEntry
  printed : String
  live : List Nat

/-- Answer a request with everything that can be seen of it. -/
def respond
    (session : Session)
    (request : Request) : Response × Session :=
  let session :=
    { session with log := [], host := { session.host with printed := [] } }
  let (result, session) := (answer request).run.run session
  let answer :=
    match result with
    | .ok answer => answer
    | .error interruption => interruptedAnswer interruption
  let host := session.host
  (⟨answer, session.log, String.join host.printed,
    [host.liveCallables, host.pendingOperations, host.openConnections]⟩, session)

/-- Answer requests one after the other. -/
def respondAll
    (session : Session) : List Request → List Response × Session
  | [] => ([], session)
  | request :: requests =>
      let (response, session) := session.respond request
      let (responses, session) := session.respondAll requests
      (response :: responses, session)

end Session
end ScriptHost
