import ScriptHost.Proofs.Settings.Fields

/-!
# What a document says is read

Numbers, truth values and sections are read as what they say, so a whole document is: each of its
sections is read over the settings that hold if nothing is said, and none touches another one.
-/

namespace ScriptHost
namespace Settings

open Json (Reading Quoted)
open Document

variable {reading : Reading} {entries : List (String × Reading)}

/-! ## Values -/

/-- A numeral is read as a word if it stands for one. -/
theorem toWord?_eq (numeral : Json.Numeral) : numeral.toWord? = word? (.number numeral) := by
  obtain ⟨negative, whole, fraction?, exponent?⟩ := numeral
  cases negative <;> cases fraction? <;> cases exponent?
  case false.none.none =>
    simp [Json.Numeral.toWord?, Json.Numeral.isInteger, word?]
  all_goals rfl

theorem toOption_word (reading : Reading) : (word reading).toOption = word? reading := by
  cases reading
  case number numeral =>
    rw [word, ← toWord?_eq]
    cases numeral.toWord? <;> rfl
  all_goals rfl

theorem toOption_flag (reading : Reading) : (flag reading).toOption = flag? reading := by
  cases reading <;> rfl

theorem toOption_optionalWord (reading : Reading) :
    (optionalWord reading).toOption = optionalWord? reading := by
  cases reading
  case null => rfl
  all_goals exact (toOption_map _ _).trans (congrArg _ (toOption_word _))

/-! ## Sections -/

theorem areFields_schedulerFields : AreFields schedulerFields where
  nodup := by decide
  commute := by simp [schedulerFields, commute_field]

theorem areFields_networkFields : AreFields networkFields where
  nodup := by decide
  commute := by simp [networkFields, commute_field]

theorem areFields_runtimeFields : AreFields runtimeFields where
  nodup := by decide
  commute := by simp [runtimeFields]

theorem areFields_sections : AreFields sections where
  nodup := by decide
  commute := by simp [sections, commute_field]

/-- The scheduler section of a document without faults is read as what it denotes. -/
theorem toOption_scheduler (noFault : reading.skipFault? = none) :
    (readRecord schedulerFields .default reading).toOption = scheduler? reading := by
  rw [toOption_readRecord areFields_schedulerFields noFault]
  refine Option.bind_congr fun entries _ => ?_
  have areWords (entry : String × Reading) (_ : entry ∈ entries) := toOption_word entry.2
  rw [schedulerFields, overlayAll_cons_field SchedulerSettings.defaultConcurrency rfl areWords]
  refine Option.bind_congr fun defaultConcurrency _ => ?_
  rw [overlayAll_cons_field SchedulerSettings.batchConcurrency rfl areWords]
  rfl

/-- The network section of a document without faults is read as what it denotes. -/
theorem toOption_network (noFault : reading.skipFault? = none) :
    (readRecord networkFields .default reading).toOption = network? reading := by
  rw [toOption_readRecord areFields_networkFields noFault]
  refine Option.bind_congr fun entries _ => ?_
  have areWords (entry : String × Reading) (_ : entry ∈ entries) := toOption_word entry.2
  have areFlags (entry : String × Reading) (_ : entry ∈ entries) := toOption_flag entry.2
  rw [networkFields, overlayAll_cons_field NetworkSettings.maxFrameLength rfl areWords]
  refine Option.bind_congr fun maxFrameLength _ => ?_
  rw [overlayAll_cons_field NetworkSettings.defaultBufferSize rfl areWords]
  refine Option.bind_congr fun defaultBufferSize _ => ?_
  rw [overlayAll_cons_field NetworkSettings.noDelay rfl areFlags]
  rfl

/-- The runtime section of a document without faults is read as what it denotes. -/
theorem toOption_runtime (noFault : reading.skipFault? = none) :
    (readRecord runtimeFields .default reading).toOption = runtime? reading := by
  rw [toOption_readRecord areFields_runtimeFields noFault]
  refine Option.bind_congr fun entries _ => ?_
  have areWords (entry : String × Reading) (_ : entry ∈ entries) :=
    toOption_optionalWord entry.2
  rw [runtimeFields, overlayAll_cons_field RuntimeSettings.workerThreads? rfl areWords]
  rfl

/-! ## Documents -/

/-- Items that can be skipped have no fault. -/
theorem skipFault?_of_skipItems
    {items : List Reading}
    (noFault : Reading.skipItems items = none) :
    ∀ item ∈ items, item.skipFault? = none := by
  induction items with
  | nil => exact fun item member => absurd member List.not_mem_nil
  | cons item items inductionHypothesis =>
      obtain ⟨noItemFault, noFault⟩ := Option.or_eq_none_iff.mp noFault
      exact List.forall_mem_cons.mpr ⟨noItemFault, inductionHypothesis noFault⟩

/-- Members that can be skipped have no fault. -/
theorem skipFault?_of_skipMembers
    {members : List (Quoted × Reading)}
    (noFault : Reading.skipMembers members = none) :
    ∀ member ∈ members, member.2.skipFault? = none := by
  induction members with
  | nil => exact fun member isMember => absurd isMember List.not_mem_nil
  | cons member members inductionHypothesis =>
      obtain ⟨-, noValueFault, noFault⟩ := skipMembers_cons_eq_none_iff.mp noFault
      exact List.forall_mem_cons.mpr ⟨noValueFault, inductionHypothesis noFault⟩

/-- Without a fault in a record there is none in the values that it gives. -/
theorem skipFault?_of_entries?
    {names : List String}
    (noFault : reading.skipFault? = none)
    (areEntries : entries? names reading = some entries) :
    ∀ entry ∈ entries, entry.2.skipFault? = none := by
  cases reading
  case array items fault? =>
    simp only [entries?] at areEntries
    split_ifs at areEntries
    cases areEntries
    rintro entry member
    exact skipFault?_of_skipItems (Option.or_eq_none_iff.mp noFault).1 _ (List.of_mem_zip member).2
  case object members fault? =>
    simp only [entries?] at areEntries
    split_ifs at areEntries
    cases areEntries
    rintro entry isEntry
    obtain ⟨member, isMember, rfl⟩ := List.mem_map.mp isEntry
    exact skipFault?_of_skipMembers (Option.or_eq_none_iff.mp noFault).1 member isMember
  all_goals cases areEntries

/-- A document without a fault is read as what it says. -/
theorem toOption_ofReading (noFault : reading.skipFault? = none) :
    (ofReading reading).toOption = settings? reading := by
  rw [ofReading, toOption_readRecord areFields_sections noFault]
  refine Option.bind_congr fun entries areEntries => ?_
  have noFaults := skipFault?_of_entries? noFault areEntries
  rw [sections, overlayAll_cons_field Settings.scheduler rfl fun entry member =>
    toOption_scheduler (noFaults entry member)]
  refine Option.bind_congr fun scheduler _ => ?_
  rw [overlayAll_cons_field Settings.network rfl fun entry member =>
    toOption_network (noFaults entry member)]
  refine Option.bind_congr fun network _ => ?_
  rw [overlayAll_cons_field Settings.runtime rfl fun entry member =>
    toOption_runtime (noFaults entry member)]
  rfl

end Settings
end ScriptHost
