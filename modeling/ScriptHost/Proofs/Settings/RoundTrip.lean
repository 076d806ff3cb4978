import ScriptHost.Proofs.FileSystem.Writing
import ScriptHost.Proofs.Settings.Loading

/-!
# Settings as a file

The text of the settings says the settings: every number and every flag is read back from what is
written for it, and every section from its fields. So settings that are written to a file are
loaded as they were.
-/

namespace ScriptHost
namespace Settings

open Json (Reading Quoted Spells)

/-! ## Fields -/

/-- A word that is written is spelled, and reads as itself. -/
theorem exists_spells_word (value : UInt64) :
    ∃ tree, Spells tree (wordJson value).written ∧ word? tree = some value := by
  obtain ⟨digits, spells, isValue⟩ := Json.exists_spells_nat value.toNat
  refine ⟨_, spells, ?_⟩
  have isLess : Json.Numeral.ofDigits digits < UInt64.size := isValue ▸ value.toNat_lt
  rw [word?, if_pos isLess, isValue, UInt64.ofNat_toNat]

/-- A flag that is written is spelled, and reads as itself. -/
theorem exists_spells_flag (value : Bool) :
    ∃ tree, Spells tree (Json.bool value).written ∧ flag? tree = some value := by
  cases value
  · exact ⟨_, .false, rfl⟩
  · exact ⟨_, .true, rfl⟩

/-- A word that may be missing is spelled, and reads as itself. -/
theorem exists_spells_optionalWord (value? : Option UInt64) :
    ∃ tree, Spells tree (Json.optional wordJson value?).written ∧
      optionalWord? tree = some value? := by
  cases value? with
  | none => exact ⟨_, .null, rfl⟩
  | some value =>
      obtain ⟨tree, spells, isValue⟩ := exists_spells_word value
      have noNull : tree = .null → False := by
        rintro rfl
        cases isValue
      exact ⟨tree, spells, by rw [optionalWord?, isValue, Option.map_some]; exact noNull⟩

/-! ## Sections -/

/-- An entry that is spelled by a written member of its name. -/
structure SpellsField (member : String × Json) (entry : String × Reading) : Prop where
  name : entry.1 = member.1
  spells : Spells entry.2 member.2.written

/-- The member of an object that gives a value to a name. -/
def memberOf (entry : String × Reading) : Quoted × Reading :=
  (.ofChars entry.1.toList, entry.2)

theorem isText_ofChars (value : List Char) : isText (.ofChars value) = true := by
  rw [isText, Json.decode_ofChars]
  rfl

theorem entryOf_memberOf (entry : String × Reading) : entryOf (memberOf entry) = entry := by
  rw [entryOf, memberOf, nameOf, Json.decode_ofChars]
  simp only [String.ofList_toList]

theorem SpellsField.spellsEntry
    {member : String × Json}
    {entry : String × Reading}
    (spellsField : SpellsField member entry) :
    Json.SpellsEntry (member.1.toList, member.2) (memberOf entry) where
  name := by rw [memberOf, spellsField.name]
  spells := spellsField.spells

/-- A written record gives what its members spell to their names. -/
theorem exists_spells_record
    {members : List (String × Json)}
    {entries : List (String × Reading)}
    (spellsFields : List.Forall₂ SpellsField members entries) :
    ∃ tree, Spells tree (Json.record members).written ∧
      ∀ names, entries? names tree = some entries := by
  refine ⟨.object (entries.map memberOf) none, Json.spells_object ?_, fun names => ?_⟩
  · rw [List.forall₂_map_left_iff, List.forall₂_map_right_iff]
    exact spellsFields.imp fun _ _ spellsField => spellsField.spellsEntry
  · have areTexts : (entries.map memberOf).all (fun member => isText member.1) = true := by
      rw [List.all_map, List.all_eq_true]
      exact fun entry _ => isText_ofChars entry.1.toList
    have areEntries : (entries.map memberOf).map entryOf = entries := by
      rw [List.map_map]
      exact (List.map_congr_left fun entry _ => entryOf_memberOf entry).trans (List.map_id entries)
    rw [entries?, if_pos areTexts, areEntries]

/-- The scheduler settings that are written are spelled, and read as themselves. -/
theorem exists_spells_scheduler (settings : SchedulerSettings) :
    ∃ tree, Spells tree (Json.record [
        ("default_concurrency", wordJson settings.defaultConcurrency),
        ("batch_concurrency", wordJson settings.batchConcurrency)]).written ∧
      scheduler? tree = some settings := by
  obtain ⟨first, spellsFirst, isFirst⟩ := exists_spells_word settings.defaultConcurrency
  obtain ⟨second, spellsSecond, isSecond⟩ := exists_spells_word settings.batchConcurrency
  have spellsFields : List.Forall₂ SpellsField
      [("default_concurrency", _), ("batch_concurrency", _)]
      [("default_concurrency", first), ("batch_concurrency", second)] :=
    .cons ⟨rfl, spellsFirst⟩ (.cons ⟨rfl, spellsSecond⟩ .nil)
  obtain ⟨tree, spells, areEntries⟩ := exists_spells_record spellsFields
  refine ⟨tree, spells, ?_⟩
  simp [scheduler?, areEntries, overlaid?, valuesOf, only?, isFirst, isSecond]

/-- The network settings that are written are spelled, and read as themselves. -/
theorem exists_spells_network (settings : NetworkSettings) :
    ∃ tree, Spells tree (Json.record [
        ("max_frame_len", wordJson settings.maxFrameLength),
        ("default_buffer_size", wordJson settings.defaultBufferSize),
        ("no_delay", .bool settings.noDelay)]).written ∧
      network? tree = some settings := by
  obtain ⟨first, spellsFirst, isFirst⟩ := exists_spells_word settings.maxFrameLength
  obtain ⟨second, spellsSecond, isSecond⟩ := exists_spells_word settings.defaultBufferSize
  obtain ⟨third, spellsThird, isThird⟩ := exists_spells_flag settings.noDelay
  have spellsFields : List.Forall₂ SpellsField
      [("max_frame_len", _), ("default_buffer_size", _), ("no_delay", _)]
      [("max_frame_len", first), ("default_buffer_size", second), ("no_delay", third)] :=
    .cons ⟨rfl, spellsFirst⟩ (.cons ⟨rfl, spellsSecond⟩ (.cons ⟨rfl, spellsThird⟩ .nil))
  obtain ⟨tree, spells, areEntries⟩ := exists_spells_record spellsFields
  refine ⟨tree, spells, ?_⟩
  simp [network?, areEntries, overlaid?, valuesOf, only?, isFirst, isSecond, isThird]

/-- The runtime settings that are written are spelled, and read as themselves. -/
theorem exists_spells_runtime (settings : RuntimeSettings) :
    ∃ tree, Spells tree (Json.record [
        ("worker_threads", .optional wordJson settings.workerThreads?)]).written ∧
      runtime? tree = some settings := by
  obtain ⟨first, spellsFirst, isFirst⟩ := exists_spells_optionalWord settings.workerThreads?
  have spellsFields : List.Forall₂ SpellsField [("worker_threads", _)]
      [("worker_threads", first)] :=
    .cons ⟨rfl, spellsFirst⟩ .nil
  obtain ⟨tree, spells, areEntries⟩ := exists_spells_record spellsFields
  refine ⟨tree, spells, ?_⟩
  simp [runtime?, areEntries, overlaid?, valuesOf, only?, isFirst]

/-! ## Settings -/

/-- The text of the settings says the settings. -/
theorem exists_spells_toJson (settings : Settings) :
    ∃ tree, Spells tree settings.toJson.written ∧ settings? tree = some settings := by
  obtain ⟨first, spellsFirst, isFirst⟩ := exists_spells_scheduler settings.scheduler
  obtain ⟨second, spellsSecond, isSecond⟩ := exists_spells_network settings.network
  obtain ⟨third, spellsThird, isThird⟩ := exists_spells_runtime settings.runtime
  have spellsFields : List.Forall₂ SpellsField [("scheduler", _), ("network", _), ("runtime", _)]
      [("scheduler", first), ("network", second), ("runtime", third)] :=
    .cons ⟨rfl, spellsFirst⟩ (.cons ⟨rfl, spellsSecond⟩ (.cons ⟨rfl, spellsThird⟩ .nil))
  obtain ⟨tree, spells, areEntries⟩ := exists_spells_record spellsFields
  refine ⟨tree, spells, ?_⟩
  simp [settings?, areEntries, overlaid?, valuesOf, only?, isFirst, isSecond, isThird]

/-- A file that holds written settings loads them. -/
theorem load_of_readFile
    {system : FileSystem}
    {path : String}
    {settings : Settings}
    (isFile : system.readFile path = .ok (Utf8.encode settings.toJson.render)) :
    load system path = .ok settings := by
  obtain ⟨tree, spells, isSettings⟩ := exists_spells_toJson settings
  have spellsText : Json.SpellsPadded tree settings.toJson.render.toList := by
    rw [Json.render, String.toList_ofList]
    exact spells.padded
  exact (load_eq_ok_iff isFile spellsText).mpr isSettings

/-- Settings that are written to a file are loaded as they were. -/
theorem load_of_writeFile
    {settings : Settings}
    {system after : FileSystem}
    {path : String}
    (writes : system.writeFile path (Utf8.encode settings.toJson.render) = .ok after) :
    load after path = .ok settings :=
  load_of_readFile (FileSystem.readFile_of_writeFile writes)

/-- Settings with the largest counts there are. -/
def largest : Settings where
  scheduler := ⟨18446744073709551615, 18446744073709551615⟩
  network := ⟨18446744073709551615, 18446744073709551615, true⟩
  runtime := ⟨some 18446744073709551615⟩

/-- The largest settings can be written and loaded. -/
theorem load_largest :
    ∃ after, (FileSystem.ofWorkspace "work").writeFile fileName
        (Utf8.encode largest.toJson.render) = .ok after ∧
      load after fileName = .ok largest := by
  have isWritable : (FileSystem.ofWorkspace "work").writable fileName =
      .ok ["work", fileName] := rfl
  have writes (content : Bytes) : (FileSystem.ofWorkspace "work").writeFile fileName content =
      .ok ((FileSystem.ofWorkspace "work").put ["work", fileName] (.file content)) := by
    rw [FileSystem.writeFile, isWritable]
    rfl
  exact ⟨_, writes _, load_of_writeFile (writes _)⟩

end Settings
end ScriptHost
