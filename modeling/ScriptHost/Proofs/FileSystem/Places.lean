import ScriptHost.Proofs.FileSystem.Growth
import Mathlib.Data.List.Nodup

/-!
# Files and directories that paths lead to

What stands at the end of a path is a file or a directory at a location. Where directories are
made and files are written, a path that leads to one of them leads to it ever after, and the
names in a directory stay.
-/

namespace ScriptHost
namespace FileSystem

variable {before after system : FileSystem} {goal : Goal} {path : String} {location : Location}
  {name : String}

/-- The location of the file that a path leads to. -/
def fileAt
    (system : FileSystem)
    (path : String) : Except SystemError Location := do
  let goal ← system.walk .follow path
  match ← system.find goal with
  | .file _ => pure goal.location
  | _ => throw .notRegular

/-! ## What is found -/

/-- At the end of a path, the last name is looked up in its directory. -/
theorem find_entry
    (system : FileSystem)
    (directory : Location)
    (name : String)
    (slash : Bool) :
    system.find (.entry directory name slash) =
      match system.node? (directory ++ [name]) with
      | none => .error .noSuchFile
      | some .directory => .ok .directory
      | some node => if slash then .error .notDirectory else .ok node :=
  rfl

/-- The end of a path is a directory if it needs no name, or its name leads to one. -/
theorem find_eq_directory_iff :
    system.find goal = .ok .directory ↔
      ∀ directory name slash, goal = .entry directory name slash →
        system.node? (directory ++ [name]) = some .directory := by
  cases goal with
  | entry directory name slash =>
      have isNamed : (∀ place last isSlashed,
          Goal.entry directory name slash = .entry place last isSlashed →
            system.node? (place ++ [last]) = some .directory) ↔
          system.node? (directory ++ [name]) = some .directory := by
        constructor
        · exact fun holds => holds _ _ _ rfl
        · rintro isDirectory _ _ _ ⟨⟩
          exact isDirectory
      rw [isNamed, find_entry]
      rcases system.node? (directory ++ [name]) with _ | _ | _ | _ <;> cases slash <;> simp
  | _ => exact ⟨fun _ _ _ _ isEntry => (nomatch isEntry), fun _ => rfl⟩

/-- The end of a path is a file if its name leads to one and no slash follows. -/
theorem find_eq_file_iff {content : Bytes} :
    system.find goal = .ok (.file content) ↔
      ∃ directory name, goal = .entry directory name false ∧
        system.node? (directory ++ [name]) = some (.file content) := by
  constructor
  · intro finds
    cases goal with
    | entry directory name slash =>
        rw [find_entry] at finds
        split at finds
        next => cases finds
        next => cases finds
        next node _ isNode =>
          split_ifs at finds with isSlashed
          cases finds
          exact ⟨directory, name, by simp [isSlashed], isNode⟩
    | _ => cases finds
  · rintro ⟨directory, name, rfl, isFile⟩
    rw [find_entry, isFile]
    rfl

/-- A path leads to a directory if its walk ends at one. -/
theorem directoryAt_eq_ok_iff :
    system.directoryAt path = .ok location ↔
      ∃ goal, system.walk .follow path = .ok goal ∧ system.find goal = .ok .directory ∧
        goal.location = location := by
  rw [directoryAt, bind_eq_ok_iff]
  refine exists_congr fun goal => and_congr_right fun _ => ?_
  rw [bind_eq_ok_iff]
  constructor
  · rintro ⟨node, finds, isLocation⟩
    cases node with
    | directory => exact ⟨finds, Except.ok.inj isLocation⟩
    | _ => cases isLocation
  · rintro ⟨finds, rfl⟩
    exact ⟨.directory, finds, rfl⟩

/-- A path leads to a file if its walk ends at one. -/
theorem fileAt_eq_ok_iff :
    system.fileAt path = .ok location ↔
      ∃ directory name content, system.walk .follow path = .ok (.entry directory name false) ∧
        system.node? (directory ++ [name]) = some (.file content) ∧
        directory ++ [name] = location := by
  rw [fileAt, bind_eq_ok_iff]
  constructor
  · rintro ⟨goal, walks, isLocation⟩
    obtain ⟨node, finds, isLocation⟩ := bind_eq_ok_iff.mp isLocation
    cases node with
    | file content =>
        obtain ⟨directory, name, rfl, isFile⟩ := find_eq_file_iff.mp finds
        exact ⟨directory, name, content, walks, isFile, Except.ok.inj isLocation⟩
    | _ => cases isLocation
  · rintro ⟨directory, name, content, walks, isFile, rfl⟩
    refine ⟨_, walks, bind_eq_ok_iff.mpr ⟨.file content, ?_, rfl⟩⟩
    exact find_eq_file_iff.mpr ⟨directory, name, rfl, isFile⟩

/-- The bytes that are read are those of the file that the path leads to. -/
theorem readFile_eq_ok_iff {content : Bytes} :
    system.readFile path = .ok content ↔
      ∃ location, system.fileAt path = .ok location ∧
        system.node? location = some (.file content) := by
  simp only [readFile, status, bind_assoc, bind_eq_ok_iff, fileAt_eq_ok_iff]
  constructor
  · rintro ⟨goal, walks, node, finds, isContent⟩
    cases node with
    | file read =>
        cases isContent
        obtain ⟨directory, name, rfl, isFile⟩ := find_eq_file_iff.mp finds
        exact ⟨_, ⟨directory, name, content, walks, isFile, rfl⟩, isFile⟩
    | _ => cases isContent
  · rintro ⟨_, ⟨directory, name, _, walks, _, rfl⟩, isFile⟩
    exact ⟨_, walks, .file content, find_eq_file_iff.mpr ⟨directory, name, rfl, isFile⟩, rfl⟩

/-- A path is that of a directory if it leads to one. -/
theorem isDirectory_iff :
    system.isDirectory path = true ↔ ∃ location, system.directoryAt path = .ok location := by
  simp only [directoryAt_eq_ok_iff]
  have isFound : system.status path = .ok .directory ↔
      ∃ goal, system.walk .follow path = .ok goal ∧ system.find goal = .ok .directory := by
    rw [status, bind_eq_ok_iff]
  rw [isDirectory]
  constructor
  · intro leads
    split at leads
    next finds =>
      obtain ⟨goal, walks, finds⟩ := isFound.mp finds
      exact ⟨_, goal, walks, finds, rfl⟩
    next => cases leads
  · rintro ⟨_, goal, walks, finds, rfl⟩
    rw [isFound.mpr ⟨goal, walks, finds⟩]

/-- A path is that of a file if it leads to one. -/
theorem isFile_iff :
    system.isFile path = true ↔ ∃ location, system.fileAt path = .ok location := by
  simp only [fileAt_eq_ok_iff]
  have isFound (content : Bytes) : system.status path = .ok (.file content) ↔
      ∃ goal, system.walk .follow path = .ok goal ∧ system.find goal = .ok (.file content) := by
    rw [status, bind_eq_ok_iff]
  rw [isFile]
  constructor
  · intro leads
    split at leads
    next content finds =>
      obtain ⟨goal, walks, finds⟩ := (isFound content).mp finds
      obtain ⟨directory, name, rfl, isFile⟩ := find_eq_file_iff.mp finds
      exact ⟨_, directory, name, content, walks, isFile, rfl⟩
    next => cases leads
  · rintro ⟨_, directory, name, content, walks, isFile, rfl⟩
    rw [(isFound content).mpr ⟨_, walks, find_eq_file_iff.mpr ⟨directory, name, rfl, isFile⟩⟩]

/-- No path leads to a file and to a directory. -/
theorem isDirectory_of_fileAt (leads : system.fileAt path = .ok location) :
    system.isDirectory path = false := by
  rw [Bool.eq_false_iff, ne_eq, isDirectory_iff]
  rintro ⟨other, leadsElse⟩
  obtain ⟨directory, name, content, walks, isFile, -⟩ := fileAt_eq_ok_iff.mp leads
  obtain ⟨goal, walksElse, finds, -⟩ := directoryAt_eq_ok_iff.mp leadsElse
  rw [walks] at walksElse
  cases walksElse
  rw [find_eq_file_iff.mpr ⟨directory, name, rfl, isFile⟩] at finds
  cases finds

/-- No path leads to a directory and to a file. -/
theorem isFile_of_isDirectory (leads : system.isDirectory path = true) :
    system.isFile path = false := by
  rw [Bool.eq_false_iff, ne_eq, isFile_iff]
  rintro ⟨location, isFile⟩
  rw [isDirectory_of_fileAt isFile] at leads
  cases leads

/-! ## Names -/

/-- A location is a child if it has one name more. -/
theorem childName?_eq_some_iff {parent : Location} :
    childName? parent location = some name ↔ location = parent ++ [name] := by
  rw [childName?]
  cases isLast : location.getLast? with
  | none =>
      rw [List.getLast?_eq_none_iff.mp isLast]
      simp
  | some last =>
      dsimp only
      split_ifs with isBelow
      · rw [isBelow, Option.some_inj, List.append_right_inj, List.singleton_inj]
      · simp only [false_iff]
        rintro rfl
        rw [List.getLast?_concat, Option.some_inj] at isLast
        exact isBelow (by rw [isLast])

/-- What stands under a name is what the entries say. -/
theorem node?_concat
    (system : FileSystem)
    (directory : Location)
    (name : String) :
    system.node? (directory ++ [name]) = system.entries.lookup (directory ++ [name]) := by
  unfold node?
  split
  next isRoot => simp at isRoot
  next => rfl

/-- A name is in a directory if something stands under it. -/
theorem mem_names_iff :
    name ∈ system.names location ↔ (system.node? (location ++ [name])).isSome := by
  simp only [names, List.mem_mergeSort, List.mem_filterMap, childName?_eq_some_iff, node?_concat,
    List.lookup_isSome_iff, beq_iff_eq]
  exact exists_congr fun entry => and_congr_right fun _ => eq_comm

/-- Nothing stands twice at one location. -/
def Distinct (system : FileSystem) : Prop :=
  (system.entries.map Prod.fst).Nodup

/-- No name is in a directory twice. -/
theorem Distinct.nodup_names
    (distinct : system.Distinct)
    (location : Location) :
    (system.names location).Nodup := by
  rw [names, (List.mergeSort_perm ..).nodup_iff]
  have isMapped : (system.entries.filterMap fun entry => childName? location entry.1) =
      (system.entries.map Prod.fst).filterMap (childName? location) := by
    rw [List.filterMap_map]
    rfl
  rw [isMapped]
  refine distinct.filterMap fun first second name isFirst isSecond => ?_
  rw [Option.mem_def, childName?_eq_some_iff] at isFirst isSecond
  rw [isFirst, isSecond]

/-- What stands in a file system stays distinct when something is put there. -/
theorem Distinct.put
    (distinct : system.Distinct)
    (location : Location)
    (node : Node) :
    (system.put location node).Distinct := by
  rw [Distinct, FileSystem.put, List.map_cons, List.nodup_cons]
  constructor
  · simp
  · exact (List.filter_sublist.map Prod.fst).nodup distinct

/-! ## What a path leads to ever after -/

namespace Grows

/-- What was the end of a path at a directory still is. -/
theorem find_directory
    (grows : Grows before after)
    (finds : before.find goal = .ok .directory) :
    after.find goal = .ok .directory := by
  rw [find_eq_directory_iff] at finds ⊢
  exact fun directory name slash isEntry => grows.directory (finds directory name slash isEntry)

/-- A path still leads to the directory that it led to. -/
theorem directoryAt
    (grows : Grows before after)
    (leads : before.directoryAt path = .ok location) :
    after.directoryAt path = .ok location := by
  rw [directoryAt_eq_ok_iff] at leads ⊢
  obtain ⟨goal, walks, finds, isLocation⟩ := leads
  exact ⟨goal, grows.walk walks, grows.find_directory finds, isLocation⟩

/-- A path still leads to the file that it led to. -/
theorem fileAt
    (grows : Grows before after)
    (leads : before.fileAt path = .ok location) :
    after.fileAt path = .ok location := by
  rw [fileAt_eq_ok_iff] at leads ⊢
  obtain ⟨directory, name, content, walks, isFile, isLocation⟩ := leads
  obtain ⟨newContent, isFileAfter⟩ := grows.file isFile
  exact ⟨directory, name, newContent, grows.walk walks, isFileAfter, isLocation⟩

theorem isDirectory
    (grows : Grows before after)
    (leads : before.isDirectory path = true) :
    after.isDirectory path = true := by
  rw [isDirectory_iff] at leads ⊢
  exact leads.imp fun _ => grows.directoryAt

/-- What leads to a directory in the end led there before, unless something was missing. -/
theorem directoryAt_of_grown
    (grows : Grows before after)
    (notMissing : before.status path ≠ .error .noSuchFile)
    (leads : after.directoryAt path = .ok location) :
    before.directoryAt path = .ok location := by
  obtain ⟨goal, walks, finds, isLocation⟩ := directoryAt_eq_ok_iff.mp leads
  have isFound : before.walk .follow path ≠ .error .noSuchFile := fun isMissing =>
    notMissing (by rw [status, isMissing, error_bind])
  rw [grows.walk_eq isFound] at walks
  rw [status, walks, ok_bind] at notMissing
  refine directoryAt_eq_ok_iff.mpr ⟨goal, walks, ?_, isLocation⟩
  rw [find_eq_directory_iff] at finds ⊢
  rintro directory name slash rfl
  have nodeGrows := grows.node (directory ++ [name])
  rw [finds _ _ _ rfl] at nodeGrows
  rw [find_entry] at notMissing
  generalize before.node? (directory ++ [name]) = node? at nodeGrows notMissing
  cases nodeGrows with
  | same => rfl
  | made => exact (notMissing rfl).elim

/-- A name that was in a directory still is. -/
theorem mem_names
    (grows : Grows before after)
    (isName : name ∈ before.names location) :
    name ∈ after.names location := by
  rw [mem_names_iff] at isName ⊢
  exact grows.isSome isName

end Grows

end FileSystem
end ScriptHost
