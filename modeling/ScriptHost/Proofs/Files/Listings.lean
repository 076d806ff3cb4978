import ScriptHost.Proofs.Files.Surveys
import ScriptHost.Proofs.Path.Order

/-!
# Listings

A listing shows every entry that a way leads to, once, as a directory or else as a file, in the
order of the paths. It makes no difference in which order the names are read.
-/

namespace ScriptHost
namespace Files

open FileSystem ScriptHost.Path

variable {system : FileSystem} {kind : EntryKind} {recursive : Bool} {path name : String}
  {names way : List String} {location : Location} {visited more : List Location}
  {found rest : List String} {covers : List String → Prop} {ways others : List (List String)}

/-- The ways to all that a listing goes through, with what it shows of them and, if it goes on
below, which directories it reads. -/
structure IsListing
    (system : FileSystem)
    (kind : EntryKind)
    (recursive : Bool)
    (path : String)
    (covers : List String → Prop)
    (ways : List (List String))
    (visited : List Location)
    (found : List String) : Prop where
  nodup : ways.Nodup
  mem_iff : ∀ way, way ∈ ways ↔
    covers way ∧ system.IsWay path way ∧ (recursive = true ∨ way.length = 1)
  isFound : found =
    (ways.map (descend path)).filter fun entry => kind.shows (system.isDirectory entry)
  isVisited : recursive = true → visited.map Except.ok =
    (ways.filter fun way => system.isDirectory (descend path way)).map fun way =>
      system.directoryAt (descend path way)

/-- The ways through one of some names. -/
def StartsIn
    (names : List String)
    (way : List String) : Prop :=
  ∃ name ∈ names, way.head? = some name

theorem isListing_nil : IsListing system kind recursive path (StartsIn []) [] [] [] where
  nodup := .nil
  mem_iff := by simp [StartsIn]
  isFound := rfl
  isVisited _ := rfl

theorem filter_shownEntry :
    [path].filter (fun entry => kind.shows (system.isDirectory entry)) =
      shownEntry system kind path := by
  rw [shownEntry, List.filter_singleton, Bool.cond_eq_ite]

/-- Listings of different names can be put together. -/
theorem IsListing.append
    (first : IsListing system kind recursive path (StartsIn [name]) ways visited found)
    (second : IsListing system kind recursive path (StartsIn names) others more rest)
    (isNew : name ∉ names) :
    IsListing system kind recursive path (StartsIn (name :: names)) (ways ++ others)
      (visited ++ more) (found ++ rest) where
  nodup := by
    refine first.nodup.append second.nodup fun way isFirst isSecond => ?_
    obtain ⟨⟨head, isHead, isFirst⟩, -⟩ := (first.mem_iff way).mp isFirst
    obtain ⟨⟨other, isOther, isSecond⟩, -⟩ := (second.mem_iff way).mp isSecond
    rw [List.mem_singleton.mp isHead, isSecond, Option.some_inj] at isFirst
    exact isNew (isFirst ▸ isOther)
  mem_iff way := by
    rw [List.mem_append, first.mem_iff, second.mem_iff]
    simp only [StartsIn, List.mem_cons, List.not_mem_nil, or_false, or_and_right, exists_or]
  isFound := by rw [List.map_append, List.filter_append, ← first.isFound, ← second.isFound]
  isVisited isRecursive := by
    rw [List.map_append, List.filter_append, List.map_append, first.isVisited isRecursive,
      second.isVisited isRecursive]

/-- A way through one name is the name and a way on from there. -/
theorem startsIn_singleton_iff :
    StartsIn [name] way ↔ ∃ onward, way = name :: onward := by
  cases way with
  | nil => simp [StartsIn]
  | cons head onward => simp [StartsIn]

/-- An entry that is not entered. -/
theorem isListing_passed
    (holds : system.Holds path name)
    (notEntered : (recursive && system.isDirectory (join path name)) = false) :
    IsListing system kind recursive path (StartsIn [name]) [[name]] []
      (shownEntry system kind (join path name)) where
  nodup := List.nodup_singleton _
  mem_iff way := by
    rw [List.mem_singleton, startsIn_singleton_iff]
    constructor
    · rintro rfl
      exact ⟨⟨[], rfl⟩, ⟨holds, trivial⟩, .inr rfl⟩
    · rintro ⟨⟨onward, rfl⟩, isWay, isNear⟩
      cases onward with
      | nil => rfl
      | cons next onward =>
          have isRecursive : recursive = true := isNear.resolve_right (by simp)
          have isDirectory := @isDirectory_of_isWay system path next [name] onward isWay
          rw [isRecursive, Bool.true_and] at notEntered
          rw [descend_cons, descend_nil, notEntered] at isDirectory
          cases isDirectory
  isFound := filter_shownEntry.symm
  isVisited isRecursive := by
    rw [isRecursive, Bool.true_and] at notEntered
    simp [notEntered]

/-- An entry that is entered, and what lies below it. -/
theorem IsListing.entered
    (listing : IsListing system kind recursive (join path name) (· ≠ []) ways visited found)
    (holds : system.Holds path name)
    (isAt : system.directoryAt (join path name) = .ok location)
    (isRecursive : recursive = true) :
    IsListing system kind recursive path (StartsIn [name]) ([name] :: ways.map (name :: ·))
      (location :: visited) (shownEntry system kind (join path name) ++ found) where
  nodup := by
    refine List.nodup_cons.mpr ⟨fun isBelow => ?_, listing.nodup.map List.cons_injective⟩
    obtain ⟨onward, isIn, isHere⟩ := List.mem_map.mp isBelow
    exact ((listing.mem_iff onward).mp isIn).1 (List.cons_injective isHere)
  mem_iff way := by
    rw [startsIn_singleton_iff, List.mem_cons, List.mem_map]
    constructor
    · rintro (rfl | ⟨onward, isIn, rfl⟩)
      · exact ⟨⟨[], rfl⟩, ⟨holds, trivial⟩, .inl isRecursive⟩
      · exact ⟨⟨onward, rfl⟩, ⟨holds, ((listing.mem_iff onward).mp isIn).2.1⟩, .inl isRecursive⟩
    · rintro ⟨⟨onward, rfl⟩, isWay, -⟩
      by_cases isHere : onward = []
      · exact .inl (by rw [isHere])
      · exact .inr ⟨onward, (listing.mem_iff onward).mpr ⟨isHere, isWay.2, .inl isRecursive⟩, rfl⟩
  isFound := by
    rw [List.map_cons, ← List.singleton_append, List.filter_append, listing.isFound,
      ← filter_shownEntry, List.map_map]
    rfl
  isVisited _ := by
    have isHere : system.isDirectory (descend path [name]) = true :=
      isDirectory_iff.mpr ⟨location, isAt⟩
    rw [List.map_cons, List.filter_cons_of_pos (by exact isHere), List.map_cons,
      listing.isVisited isRecursive, List.filter_map, List.map_map, ← isAt]
    rfl

/-- What a survey comes to. -/
def Search.ComesTo
    (system : FileSystem)
    (kind : EntryKind)
    (recursive : Bool)
    (visited : List Location)
    (found : List String) : Search → Prop
  | .tree path => ∃ location ways below, system.directoryAt path = .ok location ∧
      visited = location :: below ∧
      IsListing system kind recursive path (· ≠ []) ways below found
  | .entries path names => names.Nodup → (∀ name ∈ names, system.Holds path name) →
      ∃ ways, IsListing system kind recursive path (StartsIn names) ways visited found

/-- A survey finds what is to be listed. -/
theorem Survey.comesTo
    {search : Search}
    (survey : Survey system kind recursive search visited found)
    (isTree : system.IsTree) :
    search.ComesTo system kind recursive visited found := by
  induction survey with
  | @reads path location names visited found isAt perm _ inductionHypothesis =>
      obtain ⟨ways, listing⟩ := inductionHypothesis
        (perm.nodup_iff.mpr (isTree.distinct.nodup_names _))
        fun name isIn => ⟨location, isAt, perm.mem_iff.mp isIn⟩
      refine ⟨location, ways, visited, isAt, rfl, listing.nodup, fun way => ?_, listing.isFound,
        listing.isVisited⟩
      rw [listing.mem_iff]
      refine and_congr_left fun ⟨isWay, _⟩ => ?_
      cases way with
      | nil => simp [StartsIn]
      | cons name onward =>
          obtain ⟨place, isPlace, isName⟩ := isWay.1
          obtain rfl := Except.ok.inj (isAt.symm.trans isPlace)
          simpa [StartsIn] using perm.mem_iff.mpr isName
  | done => exact fun _ _ => ⟨[], isListing_nil⟩
  | enters isEntered _ _ inHypothesis onHypothesis =>
      intro nodup holds
      obtain ⟨location, ways, below, isAt, rfl, listing⟩ := inHypothesis
      obtain ⟨others, listingOn⟩ := onHypothesis nodup.of_cons
        fun name isIn => holds name (List.mem_cons_of_mem _ isIn)
      have isRecursive := (Bool.and_eq_true_iff.mp isEntered).1
      exact ⟨_, (listing.entered (holds _ (by simp)) isAt isRecursive).append listingOn
        (List.nodup_cons.mp nodup).1⟩
  | passes notEntered _ onHypothesis =>
      intro nodup holds
      obtain ⟨others, listingOn⟩ := onHypothesis nodup.of_cons
        fun name isIn => holds name (List.mem_cons_of_mem _ isIn)
      exact ⟨_, (isListing_passed (holds _ (by simp)) notEntered).append listingOn
        (List.nodup_cons.mp nodup).1⟩

/-! ## Sorted listings -/

/-- What a listing goes through below a directory. -/
structure IsEntry
    (system : FileSystem)
    (recursive : Bool)
    (directory : String)
    (way : List String) : Prop where
  notEmpty : way ≠ []
  isWay : system.IsWay directory way
  isNear : recursive = true ∨ way.length = 1

/-- The paths of a kind of entries, each once, and each before those that come after it. -/
structure IsSorted
    (system : FileSystem)
    (kind : EntryKind)
    (recursive : Bool)
    (directory : String)
    (paths : List String) : Prop where
  mem_iff : ∀ path, path ∈ paths ↔ kind.shows (system.isDirectory path) = true ∧
    ∃ way, IsEntry system recursive directory way ∧ path = descend directory way
  isOrdered : paths.Pairwise Precedes

/-- A listing in order is sorted. -/
theorem IsListing.isSorted
    (listing : IsListing system kind recursive path (· ≠ []) ways visited found)
    (isTree : system.IsTree) :
    IsSorted system kind recursive path (sort found) where
  mem_iff entry := by
    rw [sort, List.mem_mergeSort, listing.isFound, List.mem_filter, List.mem_map, and_comm]
    refine and_congr_right fun _ => exists_congr fun way => ?_
    rw [listing.mem_iff]
    constructor
    · rintro ⟨⟨notEmpty, isWay, isNear⟩, rfl⟩
      exact ⟨⟨notEmpty, isWay, isNear⟩, rfl⟩
    · rintro ⟨⟨notEmpty, isWay, isNear⟩, rfl⟩
      exact ⟨⟨notEmpty, isWay, isNear⟩, rfl⟩
  isOrdered := by
    have areApart : found.Pairwise fun left right => parts left ≠ parts right := by
      rw [listing.isFound]
      refine (List.pairwise_map.mpr ?_).filter _
      refine listing.nodup.imp_of_mem fun {left right} isIn isInToo isOther isSame => isOther ?_
      exact isTree.eq_of_parts_eq ((listing.mem_iff left).mp isIn).2.1
        ((listing.mem_iff right).mp isInToo).2.1 isSame
    exact pairwise_precedes_sort areApart

/-- There is only one list of the sorted paths of a kind of entries. -/
theorem IsSorted.unique
    {paths others : List String}
    (isSorted : IsSorted system kind recursive path paths)
    (isSortedToo : IsSorted system kind recursive path others) :
    paths = others :=
  eq_of_pairwise_precedes isSorted.isOrdered isSortedToo.isOrdered fun entry => by
    rw [isSorted.mem_iff, isSortedToo.mem_iff]

/-- Every listing of a directory in a tree is sorted. -/
theorem exists_isSorted
    {reading : Reading}
    (isReading : IsReading reading)
    (isTree : system.IsTree)
    (isDirectory : system.isDirectory path = true)
    (kind : EntryKind)
    (recursive : Bool) :
    ∃ paths, (listWith (namesIn reading) path kind recursive).run.run system =
        (.ok paths, system) ∧
      IsSorted system kind recursive path paths := by
  obtain ⟨visited, found, survey, answers⟩ := exists_survey_collect isReading isTree kind recursive
    pathLimit isDirectory (Nat.le_add_left ..)
  obtain ⟨location, ways, below, -, -, listing⟩ := survey.comesTo isTree
  refine ⟨sort found, ?_, listing.isSorted isTree⟩
  rw [listWith, run_bind, answers.ran]
  rfl

/-- A listing of a directory tells every entry, whose path no other one has, once, under the
directories if it leads to one and else under the files. The paths of each kind stand one before the
other, in whatever order the names are read. -/
theorem list_tells_each_entry
    (isTree : system.IsTree)
    (directory : String)
    (isDirectory : system.isDirectory directory = true)
    (recursive : Bool) :
    ∃ files directories,
      (∀ reading, IsReading reading →
        (listWith (namesIn reading) directory .file recursive).run.run system =
          (.ok files, system) ∧
        (listWith (namesIn reading) directory .directory recursive).run.run system =
          (.ok directories, system)) ∧
      (∀ path, path ∈ files ++ directories ↔
        ∃ way, IsEntry system recursive directory way ∧ path = descend directory way) ∧
      (∀ way other, IsEntry system recursive directory way →
        IsEntry system recursive directory other →
        descend directory way = descend directory other → way = other) ∧
      (files ++ directories).Nodup ∧
      (∀ path ∈ files ++ directories,
        path ∈ directories ↔ system.isDirectory path = true) ∧
      files.Pairwise Precedes ∧ directories.Pairwise Precedes := by
  obtain ⟨files, ranFiles, areFiles⟩ :=
    exists_isSorted isReading_listDirectory isTree isDirectory .file recursive
  obtain ⟨directories, ranDirectories, areDirectories⟩ :=
    exists_isSorted isReading_listDirectory isTree isDirectory .directory recursive
  refine ⟨files, directories, ?_, ?_, ?_, ?_, ?_, areFiles.isOrdered, areDirectories.isOrdered⟩
  · intro reading isReading
    obtain ⟨paths, ran, arePaths⟩ := exists_isSorted isReading isTree isDirectory .file recursive
    obtain ⟨others, ranToo, areOthers⟩ :=
      exists_isSorted isReading isTree isDirectory .directory recursive
    rw [ran, ranToo, arePaths.unique areFiles, areOthers.unique areDirectories]
    exact ⟨rfl, rfl⟩
  · intro path
    rw [List.mem_append, areFiles.mem_iff, areDirectories.mem_iff, ← or_and_right]
    exact and_iff_right (by cases system.isDirectory path <;> simp [EntryKind.shows])
  · intro way other isEntry isEntryToo isSame
    exact isTree.eq_of_parts_eq isEntry.isWay isEntryToo.isWay (congrArg parts isSame)
  · refine List.nodup_append.mpr ⟨nodup_of_pairwise_precedes areFiles.isOrdered,
      nodup_of_pairwise_precedes areDirectories.isOrdered, ?_⟩
    rintro path isFile _ isDirectory rfl
    have isShown := ((areFiles.mem_iff path).mp isFile).1
    have isShownToo := ((areDirectories.mem_iff path).mp isDirectory).1
    cases leads : system.isDirectory path <;> simp [EntryKind.shows, leads] at isShown isShownToo
  · intro path isIn
    rw [List.mem_append, areFiles.mem_iff, areDirectories.mem_iff, ← or_and_right] at isIn
    rw [areDirectories.mem_iff]
    exact and_iff_left isIn.2

/-- A directory with a file and with a link to another directory, in which is a file, too. -/
def linkedDirectory : FileSystem where
  entries := [(["d"], .directory), (["d", "f"], .file []), (["d", "l"], .link "../e"),
    (["e"], .directory), (["e", "f"], .file [])]
  current := []

theorem isTree_linkedDirectory : linkedDirectory.IsTree :=
  isTree_of_entries (by decide) (by decide) rfl

/-- The listing of a directory with a link tells what lies in the directory behind it. -/
theorem linkedDirectory_tells_each_entry :
    ∃ files directories,
      (list "d" .file true).run.run linkedDirectory = (.ok files, linkedDirectory) ∧
      (list "d" .directory true).run.run linkedDirectory = (.ok directories, linkedDirectory) ∧
      "d/l/f" ∈ files ∧ "d/l" ∈ directories := by
  obtain ⟨files, directories, ran, tells, -, -, isDirectory, -⟩ :=
    list_tells_each_entry isTree_linkedDirectory "d" rfl true
  have isLink : linkedDirectory.Holds "d" "l" := ⟨["d"], rfl, mem_names_iff.mpr rfl⟩
  have isFile : linkedDirectory.Holds "d/l" "f" := ⟨["e"], rfl, mem_names_iff.mpr rfl⟩
  have isBelow := (tells "d/l/f").mpr
    ⟨["l", "f"], ⟨by simp, ⟨isLink, isFile, trivial⟩, .inl rfl⟩, rfl⟩
  have isHere := (tells "d/l").mpr ⟨["l"], ⟨by simp, ⟨isLink, trivial⟩, .inl rfl⟩, rfl⟩
  obtain ⟨ranFiles, ranDirectories⟩ := ran _ isReading_listDirectory
  refine ⟨files, directories, ranFiles, ranDirectories, ?_, (isDirectory _ isHere).mpr rfl⟩
  refine (List.mem_append.mp isBelow).resolve_right fun isDirectoryToo => ?_
  cases (isDirectory _ isBelow).mp isDirectoryToo

end Files
end ScriptHost
