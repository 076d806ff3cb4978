import ScriptHost.Arguments
import ScriptHost.Natives.Tasks

/-!
# Processes and batches

A script runs a process and waits for it, runs one in the background, or collects
processes in a batch and runs them together. Of each process of a batch its own function
is told first, and then the function of the batch. A batch is run once: it is gone as soon
as it begins.
-/

namespace ScriptHost
namespace Natives

open Session

/-- What a script says of a process. -/
structure ProcessRequest where
  file : String
  line? : Option String
  capture? : Option Bool
  directory? : Option String

/-- The process that is asked for. A directory without a name is none. -/
def ProcessRequest.spec (request : ProcessRequest) : ProcessSpec where
  file := request.file
  arguments := Arguments.split (request.line?.getD "")
  capture := request.capture?.getD false
  directory? := request.directory?.filter (· ≠ "")

/-- Run a process and wait until it has ended. -/
def startProcess (request : ProcessRequest) : SessionM Value := do
  let spec := request.spec
  let host ← theHost
  let finished := host.runProcess none spec host.files.current
  changeHost fun host => { host with files := finished.files }.pass finished.elapsed
  let outcome := ChildProcess.outcomeOf spec finished.result
  let output :=
    match outcome.output? with
    | some output => [("output", Value.string output)]
    | none => []
  pure (.record (("exitCode", .int outcome.code) :: output))

/-- Run a process in the background. Nobody asks for its output. -/
def startProcessAsync (request : ProcessRequest) : SessionM Value := do
  let operation ← askHost fun host => host.beginProcess request.spec none
  return .ofHandle (← askHost fun host => host.holdOperation operation .int)

/-! ## Batches -/

/-- Make a batch, unless there is no function to tell of its processes. -/
def createBatchProcess (callback : Value) : SessionM Value := do
  match callback with
  | .function function => do
      let key ← askHost fun host => host.park function
      return .ofHandle (← askHost fun host => host.holdBatch ⟨key, []⟩)
  | _ => pure .null

/-- Add a process to a batch. The answer is its place in the batch, from one on, or false
if there is no such batch. -/
def addBatchProcess
    (handle : ScriptHandle)
    (request : ProcessRequest)
    (onExit? : Option Function) : SessionM Value := do
  match (← theHost).batches.get? handle with
  | none => pure (.bool false)
  | some batch => do
      let key? ← askHost fun host => host.park? onExit?
      let entry : BatchEntry := ⟨request.spec, key?⟩
      changeHost fun host =>
        { host with
          batches := host.batches.modify handle fun batch =>
            { batch with entries := batch.entries ++ [entry] } }
      pure (.ofCount (batch.entries.length + 1))

/-- A process of a batch that is run. -/
structure BatchSlot where
  index : Nat
  capture : Bool
  cell : OutputCell
  onExit? : Option HandleKey

/-- The code that a process of a batch is reported with. -/
def exitCodeOf : Scheduler.Delivery → Int32
  | .ok (some (.int code)) => code
  | _ => ChildProcess.failedStartCode

/-- The output that a process is reported with. -/
def outputValue
    (capture : Bool)
    (output? : Option String) : Value :=
  if capture then .string (output?.getD "") else .undefined

/-- Tell of a process that has ended. -/
def batchExited
    (invoke : Invoke)
    (handle : ScriptHandle)
    (callback : HandleKey)
    (completion : Scheduler.Completion BatchSlot) : SessionM Unit := do
  let slot := completion.callback
  let code := Value.int (exitCodeOf completion.result)
  let output := outputValue slot.capture (← askHost fun host => host.takeOutput slot.cell)
  let onExit? := (← theHost).parked? slot.onExit?
  changeHost fun host => host.release? slot.onExit?
  match onExit? with
  | some function => do
      let _ ← invoke function [code, output]
  | none => pure ()
  match (← theHost).callables.get? callback with
  | some function => do
      let _ ← invoke function [.ofHandle handle, .ofCount slot.index, code, output]
  | none => pure ()

/-- The job of an entry of a batch. -/
def batchJob
    (entry : BatchEntry)
    (index : Nat) : SessionM (Scheduler.Job SessionM BatchSlot) := do
  let cell ← askHost Host.makeCell
  pure {
    launch := askHost fun host => host.beginProcess entry.spec (some cell)
    type := .int
    callback := ⟨index + 1, entry.spec.capture, cell, entry.onExit?⟩ }

/-- Take a batch from the script. -/
def claimBatch (handle : ScriptHandle) : SessionM (Option Batch) := do
  askHost fun host =>
    let (batch?, batches) := host.batches.remove handle
    (batch?, { host with batches := batches })

/-- Run the processes of a batch, so many at a time. The answer is false if there is no such
batch. -/
def runBatch
    (invoke : Invoke)
    (handle : ScriptHandle)
    (limit fuel : Nat) : SessionM Value := do
  match ← claimBatch handle with
  | none => pure (.bool false)
  | some batch => do
      let jobs ← batch.entries.zipIdx.mapM fun (entry, index) => batchJob entry index
      let environment := environment
        (fun completion => reported (batchExited invoke handle batch.callback completion))
        fun slot => changeHost fun host => host.release? slot.onExit?
      let result? ← Scheduler.runFanOut environment limit jobs fuel
      changeHost fun host => host.release batch.callback
      let _ ← runResult result?
      pure (.bool true)

/-- Run the processes of a batch with the limit that the script names. -/
def runBatchProcess
    (invoke : Invoke)
    (handle : ScriptHandle)
    (limit? : Option Binary64) : SessionM Value := do
  let limit ← countOf "limit" limit? (← theHost).settings.scheduler.batchConcurrency
  runBatch invoke handle limit runFuel

open Parameters in
/-- Read what a script says of a process. -/
def processParameters : Parameters ProcessRequest := do
  return ⟨← next Conversion.string, ← next? Conversion.string, ← next? Conversion.bool,
    ← next? Conversion.string⟩

open Parameters in
/-- The functions for processes. -/
def processes : List (String × Native) := [
  ("startProcess", .plain 1 processParameters startProcess),
  ("startProcessAsync", .plain 1 processParameters startProcessAsync),
  ("createBatchProcess", .plain 1 (next Conversion.any) createBatchProcess),
  ("addBatchProcess", .plain 2
    (do return (← next Conversion.handle, ← processParameters, ← next? Conversion.function))
    fun (handle, request, onExit?) => addBatchProcess handle request onExit?),
  ("runBatchProcess", .reading 1
    (do return (← next Conversion.handle, ← next? Conversion.number))
    fun invoke (handle, limit?) => runBatchProcess invoke handle limit?)]

end Natives
end ScriptHost
