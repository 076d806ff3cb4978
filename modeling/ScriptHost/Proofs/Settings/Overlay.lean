import ScriptHost.Settings.Document

/-!
# Settings as an overlay

What a document says about the settings, field by field: a field has the value that is given to
its name, or the one that holds if nothing is said. The order of the members does not enter, nor
do members of other names. Reading a document comes to the same: the members are read one after
the other, and each changes one field only.
-/

namespace ScriptHost
namespace Settings

open Json (Reading Quoted Fault)
open Document

/-! ## What is given to a name -/

/-- The name of a member. -/
def nameOf (body : Quoted) : String :=
  match body.decode with
  | .ok chars => String.ofList chars
  | .error _ => ""

/-- A name is text unless it holds half of a surrogate pair. -/
def isText (body : Quoted) : Bool :=
  body.decode.isOk

/-- A member with its name as text. -/
def entryOf (member : Quoted × Reading) : String × Reading :=
  (nameOf member.1, member.2)

/-- What a value gives to the fields of a record: the members of an object, or the items of an
array under the first of the names. -/
def entries? (names : List String) : Reading → Option (List (String × Reading))
  | .object members _ =>
      if members.all fun member => isText member.1 then some (members.map entryOf) else none
  | .array items _ => if items.length ≤ names.length then some (names.zip items) else none
  | _ => none

/-- The values that are given to a name. -/
def valuesOf
    (name : String)
    (entries : List (String × Reading)) : List Reading :=
  (entries.filter fun entry => entry.1 = name).map Prod.snd

/-- The only one of some values, or a default if there is none. -/
def only?
    {α : Type}
    (default : α) : List (Option α) → Option α
  | [] => some default
  | [value?] => value?
  | _ => none

/-- The value of a field: the one that is given to its name, or the default. -/
def overlaid?
    {α : Type}
    (denotes? : Reading → Option α)
    (entries : List (String × Reading))
    (name : String)
    (default : α) : Option α :=
  only? default ((valuesOf name entries).map denotes?)

/-! ## What a document says -/

/-- The number of 64 bits that decimal digits write. -/
def word? : Reading → Option UInt64
  | .number ⟨false, digits, none, none⟩ =>
      let value := Json.Numeral.ofDigits digits
      if value < UInt64.size then some (UInt64.ofNat value) else none
  | _ => none

/-- A truth value. -/
def flag? : Reading → Option Bool
  | .bool value => some value
  | _ => none

/-- A number, or null for none. -/
def optionalWord? : Reading → Option (Option UInt64)
  | .null => some none
  | other => (word? other).map some

/-- The names of the fields of the scheduler settings. -/
def schedulerNames : List String := ["default_concurrency", "batch_concurrency"]

/-- The names of the fields of the network settings. -/
def networkNames : List String := ["max_frame_len", "default_buffer_size", "no_delay"]

/-- The names of the fields of the runtime settings. -/
def runtimeNames : List String := ["worker_threads"]

/-- The names of the sections. -/
def sectionNames : List String := ["scheduler", "network", "runtime"]

/-- The scheduler settings that a value says. -/
def scheduler? (reading : Reading) : Option SchedulerSettings := do
  let entries ← entries? schedulerNames reading
  let defaultConcurrency ← overlaid? word? entries "default_concurrency"
    SchedulerSettings.default.defaultConcurrency
  let batchConcurrency ← overlaid? word? entries "batch_concurrency"
    SchedulerSettings.default.batchConcurrency
  return { defaultConcurrency, batchConcurrency }

/-- The network settings that a value says. -/
def network? (reading : Reading) : Option NetworkSettings := do
  let entries ← entries? networkNames reading
  let maxFrameLength ← overlaid? word? entries "max_frame_len"
    NetworkSettings.default.maxFrameLength
  let defaultBufferSize ← overlaid? word? entries "default_buffer_size"
    NetworkSettings.default.defaultBufferSize
  let noDelay ← overlaid? flag? entries "no_delay" NetworkSettings.default.noDelay
  return { maxFrameLength, defaultBufferSize, noDelay }

/-- The runtime settings that a value says. -/
def runtime? (reading : Reading) : Option RuntimeSettings := do
  let entries ← entries? runtimeNames reading
  let workerThreads? ← overlaid? optionalWord? entries "worker_threads"
    RuntimeSettings.default.workerThreads?
  return { workerThreads? }

/-- The settings that a document says. -/
def settings? (reading : Reading) : Option Settings := do
  let entries ← entries? sectionNames reading
  let scheduler ← overlaid? scheduler? entries "scheduler" SchedulerSettings.default
  let network ← overlaid? network? entries "network" NetworkSettings.default
  let runtime ← overlaid? runtime? entries "runtime" RuntimeSettings.default
  return { scheduler, network, runtime }

/-! ## Documents that say something -/

/-- A name is given one value at most, and it is of the right kind. -/
def IsGiven
    (isValue : Reading → Prop)
    (name : String)
    (entries : List (String × Reading)) : Prop :=
  (valuesOf name entries).length ≤ 1 ∧ ∀ value ∈ valuesOf name entries, isValue value

/-- A record gives each of some names one value at most, which is of the kind of this name. -/
def IsWellTyped
    (names : List String)
    (isValue : String → Reading → Prop)
    (reading : Reading) : Prop :=
  ∃ entries, entries? names reading = some entries ∧
    ∀ name ∈ names, IsGiven (isValue name) name entries

/-- The kinds of the fields of sections: all but two are numbers. -/
def IsFieldValue
    (name : String)
    (value : Reading) : Prop :=
  if name = "no_delay" then (flag? value).isSome
  else if name = "worker_threads" then (optionalWord? value).isSome
  else (word? value).isSome

/-- The names of the fields of a section. -/
def fieldNames (name : String) : List String :=
  if name = "scheduler" then schedulerNames
  else if name = "network" then networkNames
  else if name = "runtime" then runtimeNames
  else []

/-- The kinds of the sections. -/
def IsSection (name : String) : Reading → Prop :=
  IsWellTyped (fieldNames name) IsFieldValue

theorem isSome_only?_iff
    {α : Type}
    (default : α)
    (values : List (Option α)) :
    (only? default values).isSome ↔ values.length ≤ 1 ∧ ∀ value? ∈ values, value?.isSome := by
  match values with
  | [] => simp [only?]
  | [value?] => simp [only?]
  | _ :: _ :: _ => simp [only?]

theorem isSome_overlaid?_iff
    {α : Type}
    {denotes? : Reading → Option α}
    {entries : List (String × Reading)}
    {name : String}
    {default : α} :
    (overlaid? denotes? entries name default).isSome ↔
      IsGiven (fun value => (denotes? value).isSome) name entries := by
  rw [overlaid?, isSome_only?_iff, IsGiven, List.length_map, List.forall_mem_map]

theorem isSome_bind_iff
    {α β : Type}
    {first : Option α}
    {next : α → Option β}
    {isNext : Prop}
    (isSome_next : ∀ result, (next result).isSome ↔ isNext) :
    (first.bind next).isSome ↔ first.isSome ∧ isNext := by
  cases first <;> simp [isSome_next]

/-- A record is read if and only if its entries are. -/
theorem isSome_bind_entries?_iff
    {α : Type}
    {names : List String}
    {reading : Reading}
    {isValue : String → Reading → Prop}
    {next : List (String × Reading) → Option α}
    (isSome_next : ∀ entries, (next entries).isSome ↔
      ∀ name ∈ names, IsGiven (isValue name) name entries) :
    ((entries? names reading).bind next).isSome ↔ IsWellTyped names isValue reading := by
  rw [IsWellTyped]
  cases entries? names reading <;> simp [isSome_next]

theorem isSome_scheduler?_iff (reading : Reading) :
    (scheduler? reading).isSome ↔ IsWellTyped schedulerNames IsFieldValue reading := by
  refine isSome_bind_entries?_iff fun entries => ?_
  refine (isSome_bind_iff fun _ => isSome_bind_iff fun _ => iff_true_intro rfl).trans ?_
  simp [isSome_overlaid?_iff, schedulerNames, IsGiven, IsFieldValue]

theorem isSome_network?_iff (reading : Reading) :
    (network? reading).isSome ↔ IsWellTyped networkNames IsFieldValue reading := by
  refine isSome_bind_entries?_iff fun entries => ?_
  refine (isSome_bind_iff fun _ => isSome_bind_iff fun _ => isSome_bind_iff fun _ =>
    iff_true_intro rfl).trans ?_
  simp [isSome_overlaid?_iff, networkNames, IsGiven, IsFieldValue]

theorem isSome_runtime?_iff (reading : Reading) :
    (runtime? reading).isSome ↔ IsWellTyped runtimeNames IsFieldValue reading := by
  refine isSome_bind_entries?_iff fun entries => ?_
  refine (isSome_bind_iff fun _ => iff_true_intro rfl).trans ?_
  simp [isSome_overlaid?_iff, runtimeNames, IsGiven, IsFieldValue]

/-- A document says something if its sections are well-typed and none of them is repeated. -/
theorem isSome_settings?_iff (reading : Reading) :
    (settings? reading).isSome ↔ IsWellTyped sectionNames IsSection reading := by
  refine isSome_bind_entries?_iff fun entries => ?_
  refine (isSome_bind_iff fun _ => isSome_bind_iff fun _ => isSome_bind_iff fun _ =>
    iff_true_intro rfl).trans ?_
  simp [isSome_overlaid?_iff, sectionNames, IsGiven, IsSection, fieldNames, isSome_scheduler?_iff,
    isSome_network?_iff, isSome_runtime?_iff]

end Settings
end ScriptHost
