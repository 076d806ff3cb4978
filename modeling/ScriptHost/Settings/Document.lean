import ScriptHost.Json.Reading
import ScriptHost.Settings

/-!
# Settings documents

A settings document is a JSON object whose members override the settings that hold if
nothing is said. Members of other names are skipped. An array stands for the object
that gives its items to the fields in their order. The first problem from left to
right decides how a document is refused.
-/

namespace ScriptHost
namespace Settings

/-- Why a document is refused: it is no JSON, it ends too early, or a value is of
the wrong kind, out of range or given twice. -/
inductive Problem
  | malformed
  | truncated
  | mismatched
deriving DecidableEq, Repr

namespace Problem

/-- A fault of the text. -/
def ofFault : Json.Fault → Problem
  | .malformed => .malformed
  | .truncated => .truncated

/-- The name of a kind of problem. -/
def category : Problem → String
  | .malformed => "syntax"
  | .truncated => "eof"
  | .mismatched => "data"

end Problem

namespace Document

open Json (Reading Quoted Fault)

/-- Reads a value of a type from a tree. -/
abbrev Decoder (α : Type) := Reading → Except Problem α

/-- Go on only if there is no fault. -/
def check : Option Fault → Except Problem Unit
  | none => .ok ()
  | some fault => .error (.ofFault fault)

/-- The characters of a string. -/
def characters (body : Quoted) : Except Problem (List Char) :=
  match body.decode with
  | .ok chars => .ok chars
  | .error fault => .error (.ofFault fault)

/-- The problem of a value of another kind than the expected one. Numbers and strings
are read before their kind is looked at, arrays and objects are not. -/
def mismatch : Reading → Problem
  | .number numeral => if numeral.overflows then .malformed else .mismatched
  | .string body =>
      match characters body with
      | .ok _ => .mismatched
      | .error problem => problem
  | .brokenNumber fault => .ofFault fault
  | .broken fault => .ofFault fault
  | _ => .mismatched

/-- Read an unsigned 64-bit number. -/
def word : Decoder UInt64
  | .number numeral =>
      match numeral.toWord? with
      | some value => .ok value
      | none => .error (mismatch (.number numeral))
  | other => .error (mismatch other)

/-- Read a truth value. -/
def flag : Decoder Bool
  | .bool value => .ok value
  | other => .error (mismatch other)

/-- Read a number that may be null. -/
def optionalWord : Decoder (Option UInt64)
  | .null => .ok none
  | other => some <$> word other

/-- A named part of a record and how reading it changes the record. -/
structure Field (σ : Type) where
  name : String
  read : Reading → σ → Except Problem σ

/-- The field that a decoder reads and a function puts into its place. -/
def field
    {α σ : Type}
    (name : String)
    (decode : Decoder α)
    (put : α → σ → σ) : Field σ where
  name := name
  read := fun reading record => (put · record) <$> decode reading

/-- Give the items of an array to the fields in their order. -/
def readItems {σ : Type} :
    List (Field σ) → List Reading → Option Fault → σ → Except Problem σ
  | _, [], fault?, record => do
      check fault?
      pure record
  | [], _ :: _, _, _ => .error .malformed
  | field :: fields, item :: items, fault?, record => do
      readItems fields items fault? (← field.read item record)

/-- Give the members of an object to the fields of their names. `seen` holds the names
that have been given a value. -/
def readMembers {σ : Type} (fields : List (Field σ)) :
    List String → List (Quoted × Reading) → Option Fault → σ → Except Problem σ
  | _, [], fault?, record => do
      check fault?
      pure record
  | seen, (name, value) :: rest, fault?, record => do
      let name := String.ofList (← characters name)
      match fields.find? fun field => field.name = name with
      | none => do
          check value.skipFault?
          readMembers fields seen rest fault? record
      | some field =>
          if seen.contains name then .error .mismatched
          else do
            let record ← field.read value record
            readMembers fields (name :: seen) rest fault? record

/-- Read a record over the values that its fields have if they are not mentioned. -/
def readRecord
    {σ : Type}
    (fields : List (Field σ))
    (record : σ) : Decoder σ
  | .array items fault? => readItems fields items fault? record
  | .object members fault? => readMembers fields [] members fault? record
  | other => .error (mismatch other)

/-- The fields of the scheduler settings. -/
def schedulerFields : List (Field SchedulerSettings) := [
  field "default_concurrency" word fun value settings =>
    { settings with defaultConcurrency := value },
  field "batch_concurrency" word fun value settings =>
    { settings with batchConcurrency := value }]

/-- The fields of the network settings. -/
def networkFields : List (Field NetworkSettings) := [
  field "max_frame_len" word fun value settings =>
    { settings with maxFrameLength := value },
  field "default_buffer_size" word fun value settings =>
    { settings with defaultBufferSize := value },
  field "no_delay" flag fun value settings =>
    { settings with noDelay := value }]

/-- The fields of the runtime settings. -/
def runtimeFields : List (Field RuntimeSettings) := [
  field "worker_threads" optionalWord fun value settings =>
    { settings with workerThreads? := value }]

/-- The sections of the settings. -/
def sections : List (Field Settings) := [
  field "scheduler" (readRecord schedulerFields .default) fun value settings =>
    { settings with scheduler := value },
  field "network" (readRecord networkFields .default) fun value settings =>
    { settings with network := value },
  field "runtime" (readRecord runtimeFields .default) fun value settings =>
    { settings with runtime := value }]

end Document

/-- The settings of a tree. -/
def ofReading (reading : Json.Reading) : Except Problem Settings :=
  Document.readRecord Document.sections .default reading

/-- The settings of a text. -/
def parse (chars : List Char) : Except Problem Settings := do
  let document := Json.Document.read chars
  let settings ← ofReading document.root
  Document.check document.trailing?
  pure settings

end Settings
end ScriptHost
