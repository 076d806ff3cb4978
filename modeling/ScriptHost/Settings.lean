import ScriptHost.Frame
import ScriptHost.Json
import ScriptHost.Scheduler

/-!
# Settings

The settings of a host: how many operations run at once, how connections are framed
and buffered, and how many threads do the work.
-/

namespace ScriptHost

/-- How many operations run at once, in a task run and in a batch. -/
structure SchedulerSettings where
  defaultConcurrency : UInt64
  batchConcurrency : UInt64
deriving DecidableEq, Repr

/-- How connections are framed and buffered. -/
structure NetworkSettings where
  maxFrameLength : UInt64
  defaultBufferSize : UInt64
  noDelay : Bool
deriving DecidableEq, Repr

/-- How many threads do the work; without a number the machine decides. -/
structure RuntimeSettings where
  workerThreads? : Option UInt64
deriving DecidableEq, Repr

/-- The settings of a host. -/
structure Settings where
  scheduler : SchedulerSettings
  network : NetworkSettings
  runtime : RuntimeSettings
deriving DecidableEq, Repr

namespace SchedulerSettings

/-- The settings that hold if nothing is said. -/
def default : SchedulerSettings where
  defaultConcurrency := UInt64.ofNat Scheduler.defaultConcurrency
  batchConcurrency := UInt64.ofNat Scheduler.defaultBatchConcurrency

end SchedulerSettings

namespace NetworkSettings

/-- The settings that hold if nothing is said. -/
def default : NetworkSettings where
  maxFrameLength := UInt64.ofNat Frame.defaultLimit
  defaultBufferSize := 64 * 1024
  noDelay := false

end NetworkSettings

namespace RuntimeSettings

/-- The settings that hold if nothing is said. -/
def default : RuntimeSettings where
  workerThreads? := none

end RuntimeSettings

namespace Settings

/-- The settings that hold if nothing is said. -/
def default : Settings where
  scheduler := .default
  network := .default
  runtime := .default

/-- A word as JSON. -/
def wordJson (value : UInt64) : Json :=
  .nat value.toNat

/-- The settings as a JSON value that names every field. -/
def toJson (settings : Settings) : Json :=
  .record [
    ("scheduler", .record [
      ("default_concurrency", wordJson settings.scheduler.defaultConcurrency),
      ("batch_concurrency", wordJson settings.scheduler.batchConcurrency)]),
    ("network", .record [
      ("max_frame_len", wordJson settings.network.maxFrameLength),
      ("default_buffer_size", wordJson settings.network.defaultBufferSize),
      ("no_delay", .bool settings.network.noDelay)]),
    ("runtime", .record [
      ("worker_threads", .optional wordJson settings.runtime.workerThreads?)])]

end Settings
end ScriptHost
