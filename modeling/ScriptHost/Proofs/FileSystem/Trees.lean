import ScriptHost.Proofs.FileSystem.Ways
import ScriptHost.Proofs.Path
import Mathlib.Data.List.Induction
import Mathlib.Data.List.Perm.Subperm

/-!
# Trees

In a tree everything has a name of its own in a directory. What a path leads to in it is a
directory or stands in one.
-/

namespace ScriptHost
namespace FileSystem

variable {system : FileSystem} {path base name : String} {location : Location}
  {names : List String}

/-- Everything stands once, under a name, in a directory. -/
structure IsTree (system : FileSystem) : Prop where
  distinct : system.Distinct
  isName : ∀ location name, (system.node? (location ++ [name])).isSome → Path.IsName name
  isBelow : ∀ location name, (system.node? (location ++ [name])).isSome →
    system.node? location = some .directory
  isCurrent : system.node? system.current = some .directory

/-- What stands in a file system makes it a tree. -/
theorem isTree_of_entries
    (distinct : (system.entries.map Prod.fst).Nodup)
    (each : ∀ entry ∈ system.entries, (∃ name ∈ entry.1.getLast?, Path.IsName name) ∧
      system.node? entry.1.dropLast = some .directory)
    (isCurrent : system.node? system.current = some .directory) :
    system.IsTree := by
  have find {location : Location} {name : String}
      (stands : (system.node? (location ++ [name])).isSome) :
      Path.IsName name ∧ system.node? location = some .directory := by
    rw [node?_concat, List.lookup_isSome_iff] at stands
    obtain ⟨entry, isEntry, isHere⟩ := stands
    rw [beq_iff_eq] at isHere
    simpa [← isHere] using each entry isEntry
  exact ⟨distinct, fun _ _ stands => (find stands).1, fun _ _ stands => (find stands).2, isCurrent⟩

/-- Where no entry is a link, none stands anywhere. -/
theorem node?_ne_link
    {target : String}
    (each : ∀ entry ∈ system.entries, ∀ target, entry.2 ≠ .link target) :
    system.node? location ≠ some (.link target) := by
  intro isLink
  rcases List.eq_nil_or_concat' location with rfl | ⟨front, name, rfl⟩
  · cases isLink
  · rw [node?_concat, List.lookup_eq_some_iff] at isLink
    obtain ⟨before, after, areEntries, -⟩ := isLink
    exact each (front ++ [name], .link target) (by simp [areEntries]) target rfl

namespace IsTree

/-- What stands in a directory of a tree has a name. -/
theorem isName_of_holds
    (isTree : system.IsTree)
    (holds : system.Holds path name) :
    Path.IsName name := by
  obtain ⟨location, -, isName⟩ := holds
  exact isTree.isName location name (mem_names_iff.mp isName)

/-- All steps of a way in a tree are names. -/
theorem isName_of_isWay
    (isTree : system.IsTree)
    (isWay : system.IsWay path names)
    (isIn : name ∈ names) :
    Path.IsName name := by
  induction names generalizing path with
  | nil => cases isIn
  | cons next rest inductionHypothesis =>
      rcases List.mem_cons.mp isIn with rfl | isIn
      · exact isTree.isName_of_holds isWay.1
      · exact inductionHypothesis isWay.2 isIn

end IsTree

/-- A path that leads to a directory is not too long. -/
theorem isShort_of_isDirectory (isDirectory : system.isDirectory path = true) :
    path.utf8ByteSize < pathLimit := by
  obtain ⟨location, isAt⟩ := isDirectory_iff.mp isDirectory
  obtain ⟨goal, walks, -⟩ := directoryAt_eq_ok_iff.mp isAt
  rw [walk, bind_eq_ok_iff] at walks
  obtain ⟨_, isChecked, -⟩ := walks
  unfold checkPath at isChecked
  split_ifs at isChecked with hasNul isEmpty isLong
  exact Nat.not_le.mp isLong

/-- Each name makes a path longer. -/
theorem length_le_utf8ByteSize_descend (areNames : ∀ name ∈ names, Path.IsName name) :
    names.length ≤ (Path.descend base names).utf8ByteSize := by
  induction names using List.reverseRecOn with
  | nil => exact Nat.zero_le _
  | append_singleton front last inductionHypothesis =>
      have isLonger := @Path.utf8ByteSize_join (Path.descend base front) last
        (areNames last (by simp))
      have isLong := inductionHypothesis fun name isIn => areNames name (by simp [isIn])
      rw [List.length_append, List.length_singleton, Path.descend_concat]
      omega

/-! ## Where walks end -/

/-- A goal in a tree: it lies in a directory, under a name that an entry can have. -/
def Goal.IsProper (system : FileSystem) : Goal → Prop
  | .root => True
  | .here location => system.node? location = some .directory
  | .above location => system.node? location = some .directory
  | .entry directory name _ => system.node? directory = some .directory ∧ Path.IsName name

/-- A walk on from a directory along names between slashes ends properly. -/
def EndsProperly
    (system : FileSystem)
    (continue? : Continue) : Prop :=
  ∀ start names slash goal, system.node? start = some .directory →
    (∀ name ∈ names, name ≠ "" ∧ '/' ∉ name.toList) →
    continue? start names slash = .ok goal → goal.IsProper system

section Proper

variable {purpose : Purpose} {continue? : Continue} {directory : Location} {slash : Bool}
  {goal : Goal}

/-- Above each directory of a tree stands a directory. -/
theorem IsTree.node?_dropLast
    (isTree : system.IsTree)
    (isDirectory : system.node? directory = some .directory) :
    system.node? directory.dropLast = some .directory := by
  rcases List.eq_nil_or_concat directory with rfl | ⟨front, name, rfl⟩
  · rfl
  · rw [List.concat_eq_append] at isDirectory ⊢
    rw [List.dropLast_concat]
    exact isTree.isBelow front name (by rw [isDirectory]; rfl)

/-- A link in a directory starts at a directory. -/
theorem node?_linkStart
    (target : String)
    (isDirectory : system.node? directory = some .directory) :
    system.node? (linkStart directory target) = some .directory := by
  rw [linkStart]
  split_ifs
  · rfl
  · exact isDirectory

/-- A walk over a last name ends properly if the walk behind a link does. -/
theorem isProper_of_walkLast
    (isTree : system.IsTree)
    (endsProperly : EndsProperly system continue?)
    (isDirectory : system.node? directory = some .directory)
    (isPiece : name ≠ "" ∧ '/' ∉ name.toList)
    (walks : walkLast system purpose continue? directory name slash = .ok goal) :
    goal.IsProper system := by
  rw [walkLast_eq_ok_iff] at walks
  cases walks with
  | here _ isGoal =>
      rw [isGoal]
      exact isDirectory
  | above _ isGoal =>
      rw [isGoal]
      exact isTree.node?_dropLast isDirectory
  | placed notHere notAbove _ isGoal =>
      rw [isGoal]
      exact ⟨isDirectory, isPiece.1, isPiece.2, notHere, notAbove⟩
  | follows target _ _ _ _ walks =>
      exact endsProperly _ _ _ _ (node?_linkStart target isDirectory)
        (fun _ => Path.name_of_mem_names) walks
  | ends isPlain _ _ _ isGoal =>
      rw [isGoal]
      exact ⟨isDirectory, isPiece.1, isPiece.2, isPlain.notHere, isPlain.notAbove⟩

/-- A walk over names ends properly if the walk behind a link does. -/
theorem endsProperly_walkNames
    (isTree : system.IsTree)
    (endsProperly : EndsProperly system continue?) :
    EndsProperly system (walkNames system purpose continue?) := by
  intro directory names slash goal isDirectory arePieces walks
  induction names generalizing directory with
  | nil =>
      rw [walkNames] at walks
      split_ifs at walks <;> cases walks
      · trivial
      · exact isDirectory
  | cons name names inductionHypothesis =>
      have arePiecesOn : ∀ name ∈ names, name ≠ "" ∧ '/' ∉ name.toList :=
        fun name isIn => arePieces name (List.mem_cons_of_mem _ isIn)
      cases names with
      | nil =>
          exact isProper_of_walkLast isTree endsProperly isDirectory
            (arePieces name (by simp)) walks
      | cons next rest =>
          rw [walkNames] at walks
          split_ifs at walks with isHere isAbove isLong
          · exact inductionHypothesis _ isDirectory arePiecesOn walks
          · exact inductionHypothesis _ (isTree.node?_dropLast isDirectory) arePiecesOn walks
          · split at walks
            next => cases walks
            next => cases walks
            next isDirectoryToo => exact inductionHypothesis _ isDirectoryToo arePiecesOn walks
            next target isLink =>
              refine endsProperly _ _ _ _ (node?_linkStart target isDirectory) ?_ walks
              intro name isIn
              rcases List.mem_append.mp isIn with isIn | isIn
              · exact Path.name_of_mem_names isIn
              · exact arePiecesOn name isIn

/-- A walk that follows links ends properly. -/
theorem endsProperly_walkLinks
    (isTree : system.IsTree)
    (links : Nat) :
    EndsProperly system (walkLinks system purpose links) := by
  induction links with
  | zero =>
      refine endsProperly_walkNames isTree fun _ _ _ _ _ _ walks => ?_
      cases walks
  | succ links inductionHypothesis => exact endsProperly_walkNames isTree inductionHypothesis

/-- In a tree every walk ends properly. -/
theorem IsTree.isProper_of_walk
    (isTree : system.IsTree)
    (walks : system.walk purpose path = .ok goal) :
    goal.IsProper system := by
  rw [walk, bind_eq_ok_iff] at walks
  obtain ⟨_, -, walks⟩ := walks
  refine endsProperly_walkLinks isTree _ _ _ _ _ ?_ (fun _ => Path.name_of_mem_names) walks
  split_ifs
  · rfl
  · exact isTree.isCurrent

/-- A path that leads to a directory leads to where one stands. -/
theorem IsTree.node?_of_directoryAt
    (isTree : system.IsTree)
    (isAt : system.directoryAt path = .ok location) :
    system.node? location = some .directory := by
  obtain ⟨goal, walks, finds, rfl⟩ := directoryAt_eq_ok_iff.mp isAt
  have isProper := isTree.isProper_of_walk walks
  cases goal with
  | root => rfl
  | here location => exact isProper
  | above location => exact isProper
  | entry directory name slash => exact find_eq_directory_iff.mp finds _ _ _ rfl

end Proper

/-- What is put under a name in a directory leaves a tree, if the file system grows by it. -/
theorem IsTree.put
    {directory : Location}
    {node : Node}
    (isTree : system.IsTree)
    (grows : Grows system (system.put (directory ++ [name]) node))
    (isDirectory : system.node? directory = some .directory)
    (isName : Path.IsName name) :
    (system.put (directory ++ [name]) node).IsTree := by
  have find {location : Location} {last : String}
      (stands : ((system.put (directory ++ [name]) node).node? (location ++ [last])).isSome) :
      Path.IsName last ∧ system.node? location = some .directory := by
    by_cases isHere : location ++ [last] = directory ++ [name]
    · obtain ⟨rfl, isLast⟩ := List.append_inj' isHere rfl
      obtain rfl := List.singleton_inj.mp isLast
      exact ⟨isName, isDirectory⟩
    · rw [node?_put_of_ne isHere] at stands
      exact ⟨isTree.isName _ _ stands, isTree.isBelow _ _ stands⟩
  exact ⟨isTree.distinct.put _ _, fun _ _ stands => (find stands).1,
    fun _ _ stands => grows.directory (find stands).2, grows.directory isTree.isCurrent⟩

/-! ## Directories -/

/-- Where directories stand. -/
def directories (system : FileSystem) : List Location :=
  [] :: (system.entries.filter fun entry => entry.2 = .directory).map Prod.fst

/-- A directory is one of the directories. -/
theorem mem_directories_of_node?
    (isDirectory : system.node? location = some .directory) :
    location ∈ system.directories := by
  rcases List.eq_nil_or_concat location with rfl | ⟨front, name, rfl⟩
  · exact List.mem_cons_self
  · rw [List.concat_eq_append] at isDirectory ⊢
    rw [node?_concat, List.lookup_eq_some_iff] at isDirectory
    obtain ⟨before, after, areEntries, -⟩ := isDirectory
    simp [directories, areEntries]

/-- Directories that differ are not more than there are. -/
theorem length_le_of_directories
    {locations : List Location}
    (nodup : locations.Nodup)
    (areDirectories : ∀ location ∈ locations, system.node? location = some .directory) :
    locations.length ≤ system.directories.length :=
  nodup.length_le_of_subset fun location isIn =>
    mem_directories_of_node? (areDirectories location isIn)

/-! ## Parts of the paths of ways -/

/-- The parts of a path below another one are those of the other one and the names between. -/
theorem parts_descend (areNames : ∀ name ∈ names, Path.IsName name) :
    Path.parts (Path.descend base names) = Path.parts base ++ names.map .name := by
  induction names generalizing base with
  | nil => simp
  | cons name names inductionHypothesis =>
      have areNamesOn : ∀ name ∈ names, Path.IsName name :=
        fun name isIn => areNames name (List.mem_cons_of_mem _ isIn)
      rw [Path.descend_cons, inductionHypothesis areNamesOn,
        Path.parts_join (areNames name (by simp))]
      simp

/-- Different ways have different paths. -/
theorem IsTree.eq_of_parts_eq
    {way other : List String}
    (isTree : system.IsTree)
    (isWay : system.IsWay path way)
    (isWayToo : system.IsWay path other)
    (isSame : Path.parts (Path.descend path way) = Path.parts (Path.descend path other)) :
    way = other := by
  rw [parts_descend fun name => isTree.isName_of_isWay isWay,
    parts_descend fun name => isTree.isName_of_isWay isWayToo, List.append_right_inj]
    at isSame
  exact List.map_injective_iff.mpr (fun _ _ => Path.Part.name.inj) isSame

end FileSystem
end ScriptHost
