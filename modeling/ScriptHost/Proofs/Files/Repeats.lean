import ScriptHost.Proofs.Files.Listings
import ScriptHost.Proofs.Files.Reach

/-!
# Repeated visits

A listing or a copy reads a directory as often as ways lead to it, and a copy comes to directories
that it has made itself if its target lies below what it copies. Where no two ways lead to one
directory, and none to where the copy is made, each is read once, and not more are read than there
are.
-/

namespace ScriptHost
namespace Files

open FileSystem ScriptHost.Path

variable {source target path name : String} {system after final : FileSystem}
  {kind : EntryKind} {location : Location} {visited : List Location} {found : List String}
  {covers : List String → Prop} {isDone : Prop} {ways : List (List String)}

/-- No two ways lead to one directory. -/
def LeadsApart
    (system : FileSystem)
    (source : String) : Prop :=
  ∀ way other location, system.IsWay source way → system.IsWay source other →
    system.directoryAt (descend source way) = .ok location →
    system.directoryAt (descend source other) = .ok location → way = other

theorem ok_injective :
    Function.Injective (Except.ok : Location → Except SystemError Location) :=
  fun _ _ => Except.ok.inj

namespace IsTour

theorem mem_visited_iff (tour : IsTour source system final covers isDone ways visited) :
    location ∈ visited ↔ ∃ way ∈ ways, final.directoryAt (descend source way) = .ok location := by
  rw [← List.mem_map_of_injective ok_injective, ← tour.isAt, List.mem_map]

/-- Where no two ways lead to one directory, none is read twice. -/
theorem nodup_visited
    (tour : IsTour source system final covers isDone ways visited)
    (leadsApart : LeadsApart final source) :
    visited.Nodup := by
  rw [← List.nodup_map_iff ok_injective, ← tour.isAt]
  refine List.Nodup.map_on (fun way isIn other isInToo isSame => ?_) tour.nodup
  have isRead : final.directoryAt (descend source way) ∈ visited.map Except.ok :=
    tour.isAt ▸ List.mem_map_of_mem isIn
  obtain ⟨location, -, isAt⟩ := List.mem_map.mp isRead
  exact leadsApart way other location (tour.isWay way isIn).2 (tour.isWay other isInToo).2
    isAt.symm (isSame ▸ isAt.symm)

/-- Where no directory is read twice, no two ways that were there led to one. -/
theorem leadsApart_of_nodup
    (tour : IsTour source system final (fun _ => True) isDone ways visited)
    (grows : Grows system final)
    (done : isDone)
    (nodup : visited.Nodup) :
    LeadsApart system source := by
  intro way other location isWay isWayToo isAt isAtToo
  have isInjective := List.inj_on_of_nodup_map
    (tour.isAt ▸ (List.nodup_map_iff ok_injective).mpr nodup)
  refine isInjective (tour.isWhole done way trivial isWay (isDirectory_iff.mpr ⟨_, isAt⟩))
    (tour.isWhole done other trivial isWayToo (isDirectory_iff.mpr ⟨_, isAtToo⟩)) ?_
  rw [grows.directoryAt isAt, grows.directoryAt isAtToo]

end IsTour

/-- A listing of all that lies below a directory is a tour through the directories there. -/
theorem IsListing.isTour
    (listing : IsListing system kind true path (· ≠ []) ways visited found)
    (isAt : system.directoryAt path = .ok location) :
    IsTour path system system (fun _ => True) True
      ([] :: ways.filter fun way => system.isDirectory (descend path way))
      (location :: visited) where
  nodup := by
    refine List.nodup_cons.mpr ⟨fun isIn => ?_, listing.nodup.filter _⟩
    exact ((listing.mem_iff []).mp (List.mem_filter.mp isIn).1).1 rfl
  isWay way isIn := by
    refine ⟨trivial, ?_⟩
    rcases List.mem_cons.mp isIn with rfl | isIn
    · trivial
    · exact ((listing.mem_iff way).mp (List.mem_filter.mp isIn).1).2.1
  isAt := by
    rw [List.map_cons, List.map_cons, listing.isVisited rfl, descend_nil, isAt]
  isWhole _ way _ isWay isDirectory := by
    by_cases isHere : way = []
    · simp [isHere]
    · refine List.mem_cons_of_mem _ (List.mem_filter.mpr ⟨?_, isDirectory⟩)
      exact (listing.mem_iff way).mpr ⟨isHere, isWay, .inl rfl⟩

/-- A recursive listing of a directory with a record of what it reads. -/
theorem exists_tour_list
    {reading : Reading}
    (isReading : IsReading reading)
    (isTree : system.IsTree)
    (isDirectory : system.isDirectory path = true)
    (kind : EntryKind) :
    ∃ paths ways visited, IsTour path system system (fun _ => True) True ways visited ∧
      Answers system (listWith (namesVisiting reading) path kind true)
        (listWith (namesIn reading) path kind true) paths visited := by
  obtain ⟨visited, found, survey, answers⟩ := exists_survey_collect isReading isTree kind true
    pathLimit isDirectory (Nat.le_add_left ..)
  obtain ⟨location, ways, below, isAt, rfl, listing⟩ := survey.comesTo isTree
  exact ⟨sort found, _, _, listing.isTour isAt,
    List.append_nil (location :: below) ▸ answers.bind (answers_pure (sort found))⟩

/-- What a copy of a directory reads where its target lies, with a record of it. -/
structure IsCopyTour
    (source : String)
    (system after : FileSystem)
    (result : Except FileError Unit)
    (target : String)
    (visited : List Location) : Prop where
  course : Course (.tree source target) system visited result after
  exists_tour : ∃ ways,
    IsTour source system after (fun _ => True) (result = .ok ()) ways visited

/-- A copy of a directory with a record of what it reads. -/
theorem exists_tour_copy
    {reading : Reading}
    {result : Except FileError Unit}
    (isReading : IsReading reading)
    (isTree : system.IsTree)
    (isName : fileName? source = some name)
    (ran : (copyDirectoryWith (namesIn reading) source target).run.run system = (result, after)) :
    ∃ visited, IsCopyTour source system after result (join target name) visited ∧
      (copyDirectoryWith (namesVisiting reading) source target).run.run ⟨system, []⟩ =
        (result, ⟨after, visited⟩) := by
  obtain ⟨visited, course, records⟩ :=
    @takesCourse_copyDirectoryWith source target system reading name isReading isTree isName
  rw [ran] at course
  have liesAt : (Task.tree source (join target name)).LiesAt source (join target name)
      after [] := ⟨rfl, rfl, trivial⟩
  obtain ⟨ways, tour⟩ := course.exists_tour liesAt (.refl _) isTree
  refine ⟨visited, ⟨course, ways, by simpa [Task.Covers] using tour⟩, ?_⟩
  rw [records [], ran]
  rfl

/-- What is said of a copy whose target lies at names below a base: if no two ways lead from its
source to one directory, none to what is missing and none along the names, each directory is read
once and was there before; and if a way leads to the base, the copy is not done. -/
structure VisitsOnce
    (system : FileSystem)
    (source : String)
    (base : Location)
    (names : List String)
    (result : Except FileError Unit)
    (visited : List Location) : Prop where
  readsOnce : LeadsApart system source → system.MissesNothing source →
    system.StaysApart source base names →
      visited.Nodup ∧ (∀ location ∈ visited, system.node? location = some .directory) ∧
      visited.length ≤ system.directories.length
  notDone : ∀ way, system.IsWay source way → system.directoryAt (descend source way) = .ok base →
    names ++ way ≠ [] → result ≠ .ok ()

theorem IsCopyTour.visitsOnce
    {result : Except FileError Unit}
    {parent : String}
    {base : Location}
    {names : List String}
    (copyTour : IsCopyTour source system after result (descend parent names) visited)
    (isTree : system.IsTree)
    (isPlaced : system.IsPlaced parent base names) :
    VisitsOnce system source base names result visited := by
  obtain ⟨course, ways, tour⟩ := copyTour
  refine ⟨fun leadsApart missesNothing staysApart => ?_, fun way isWay isAt isBelow =>
    course.not_done isTree isPlaced isWay isAt isBelow⟩
  have grows := course.growsAsTree.grows
  have isWayBefore {way : List String} (isWay : after.IsWay source way) :
      system.IsWay source way :=
    staysApart.isWay_of_grown missesNothing (course.newAlong isPlaced isTree) grows
      (isPlaced.standsFor.node? isTree) isWay
  have isAtBefore {way : List String} {location : Location} (isWay : after.IsWay source way)
      (isAt : after.directoryAt (descend source way) = .ok location) :
      system.directoryAt (descend source way) = .ok location :=
    grows.directoryAt_of_grown (missesNothing way (isWayBefore isWay)) isAt
  have nodup := tour.nodup_visited fun way other location isWay isWayToo isAt isAtToo =>
    leadsApart way other location (isWayBefore isWay) (isWayBefore isWayToo)
      (isAtBefore isWay isAt) (isAtBefore isWayToo isAtToo)
  have areOld : ∀ location ∈ visited, system.node? location = some .directory := by
    intro location isRead
    obtain ⟨way, isIn, isAt⟩ := tour.mem_visited_iff.mp isRead
    exact isTree.node?_of_directoryAt (isAtBefore (tour.isWay way isIn).2 isAt)
  exact ⟨nodup, areOld, length_le_of_directories nodup areOld⟩

/-- A listing of all that lies below a directory reads each directory once if and only if no two
ways lead to one, and then not more than there are. A copy of a directory reads each once, and none
that it makes, if no two ways lead to one and none to where its target lies. If a way leads to the
directory below which the target lies, the copy goes on into what it makes and is not done; and if
it is done and has read each once, no two ways led to one. -/
theorem visits_once_iff
    (isTree : system.IsTree)
    (reading : Reading)
    (isReading : IsReading reading) :
    (∀ directory kind, system.isDirectory directory = true →
      ∃ paths visited,
        (listWith (namesIn reading) directory kind true).run.run system = (.ok paths, system) ∧
        (listWith (namesVisiting reading) directory kind true).run.run ⟨system, []⟩ =
          (.ok paths, ⟨system, visited⟩) ∧
        (visited.Nodup ↔ LeadsApart system directory) ∧
        (visited.Nodup → visited.length ≤ system.directories.length)) ∧
    ∀ source target result after,
      (copyDirectoryWith (namesIn reading) source target).run.run system = (result, after) →
      ∃ visited,
        (copyDirectoryWith (namesVisiting reading) source target).run.run ⟨system, []⟩ =
          (result, ⟨after, visited⟩) ∧
        (∀ name parent base names, fileName? source = some name →
          join target name = descend parent names → system.IsPlaced parent base names →
          VisitsOnce system source base names result visited) ∧
        (result = .ok () → visited.Nodup → LeadsApart system source) := by
  constructor
  · intro directory kind isDirectory
    obtain ⟨paths, ways, visited, tour, answers⟩ :=
      exists_tour_list isReading isTree isDirectory kind
    refine ⟨paths, visited, answers.ran, ?_, ⟨tour.leadsApart_of_nodup (.refl _) trivial,
      tour.nodup_visited⟩, fun nodup => length_le_of_directories nodup fun location isRead => ?_⟩
    · rw [answers.records [], answers.ran]
      rfl
    · obtain ⟨way, -, isAt⟩ := tour.mem_visited_iff.mp isRead
      exact isTree.node?_of_directoryAt isAt
  · intro source target result after ran
    cases isName : fileName? source with
    | none =>
        rw [copyDirectoryWith, isName] at ran ⊢
        have refused : (.error ⟨"failed to copy", source, .sourceWithoutName⟩, system) =
            (result, after) := ran
        obtain ⟨rfl, rfl⟩ := Prod.mk.inj refused
        refine ⟨[], rfl, fun other parent base names isOther => ?_, fun isDone => ?_⟩
        · cases isOther
        · cases isDone
    | some name =>
        obtain ⟨visited, copyTour, ranVisiting⟩ :=
          @exists_tour_copy source target name system after reading result isReading
            isTree isName ran
        refine ⟨visited, ranVisiting, fun other parent base names isOther isTarget isPlaced => ?_,
          ?_⟩
        · obtain rfl := Option.some.inj isOther
          exact (isTarget ▸ copyTour).visitsOnce isTree isPlaced
        · obtain ⟨course, ways, tour⟩ := copyTour
          exact tour.leadsApart_of_nodup course.growsAsTree.grows

/-- A directory in another one. -/
def nestedDirectory : FileSystem where
  entries := [(["d"], .directory), (["d", "e"], .directory)]
  current := []

theorem isWay_nestedDirectory
    {way : List String}
    (isWay : nestedDirectory.IsWay "d" way) :
    way = [] ∨ way = ["e"] := by
  have isOnly : nestedDirectory.names ["d"] = ["e"] := by decide +kernel
  have isEmpty : nestedDirectory.names ["d", "e"] = [] := by decide +kernel
  cases way with
  | nil => exact .inl rfl
  | cons name rest =>
      obtain ⟨⟨location, isAt, isName⟩, isWay⟩ := isWay
      obtain rfl : ["d"] = location := Except.ok.inj isAt
      rw [isOnly, List.mem_singleton] at isName
      subst isName
      cases rest with
      | nil => exact .inr rfl
      | cons next rest =>
          obtain ⟨⟨location, isAt, isName⟩, -⟩ := isWay
          obtain rfl : ["d", "e"] = location := Except.ok.inj isAt
          rw [isEmpty] at isName
          cases isName

theorem leadsApart_nestedDirectory : LeadsApart nestedDirectory "d" := by
  intro way other location isWay isWayToo isAt isAtToo
  rcases isWay_nestedDirectory isWay with rfl | rfl <;>
    rcases isWay_nestedDirectory isWayToo with rfl | rfl
  · rfl
  · cases Except.ok.inj (isAt.trans isAtToo.symm)
  · cases Except.ok.inj (isAt.trans isAtToo.symm)
  · rfl

theorem isPlaced_nestedDirectory : nestedDirectory.IsPlaced "" [] ["x", "d"] where
  standsFor := .inl ⟨rfl, rfl⟩
  isPlain := by decide
  areNames := by decide
  noLink _ _ _ := node?_ne_link (by simp [nestedDirectory])

/-- The listing of a directory with another one in it reads each of them once. -/
theorem nestedDirectory_visits_once :
    (visits (listWith (namesVisiting listDirectory) "d" .file true) nestedDirectory).Nodup ∧
      (visits (copyDirectoryWith (namesVisiting listDirectory) "d" "x") nestedDirectory).Nodup := by
  have isTree : nestedDirectory.IsTree := isTree_of_entries (by decide) (by decide) rfl
  obtain ⟨lists, copies⟩ := visits_once_iff isTree listDirectory isReading_listDirectory
  constructor
  · obtain ⟨paths, visited, -, ran, nodup_iff, -⟩ := lists "d" .file rfl
    rw [visits, ran]
    exact nodup_iff.mpr leadsApart_nestedDirectory
  · obtain ⟨visited, ran, visitsOnce, -⟩ := copies "d" "x" _ _ rfl
    have once := visitsOnce "d" "" [] ["x", "d"] rfl rfl isPlaced_nestedDirectory
    rw [visits, ran]
    refine (once.readsOnce leadsApart_nestedDirectory ?_ ?_).1
    · intro way isWay
      rcases isWay_nestedDirectory isWay with rfl | rfl <;> decide
    · rintro way location isWay isAt ⟨rest, goesAlong, isAlong⟩
      rcases isWay_nestedDirectory isWay with rfl | rfl
      · obtain rfl : ["d"] = location := Except.ok.inj isAt
        exact absurd (isAlong ▸ goesAlong : GoesAlong ["x", "d"] ["d"]) (by decide)
      · obtain rfl : ["d", "e"] = location := Except.ok.inj isAt
        exact absurd (isAlong ▸ goesAlong : GoesAlong ["x", "d"] ["d", "e"]) (by decide)

/-- A directory in which a link leads back to it. -/
def loopedDirectory : FileSystem where
  entries := [(["d"], .directory), (["d", "l"], .link ".")]
  current := []

/-- A directory to which its own name and a link lead. -/
def twofoldDirectory : FileSystem where
  entries := [(["d"], .directory), (["d", "e"], .directory), (["d", "l"], .link "e")]
  current := []

/-- A directory alone. -/
def loneDirectory : FileSystem where
  entries := [(["d"], .directory)]
  current := []

/-- The same directory when it has been made in itself. -/
def loneDirectoryCopied : FileSystem where
  entries := [(["d", "d"], .directory), (["d"], .directory)]
  current := []

theorem isTree_loneDirectory : loneDirectory.IsTree :=
  isTree_of_entries (by decide) (by decide) rfl

/-- A copy of a directory into itself comes to the directory that it has made. -/
theorem mem_visited_loneDirectory
    {result : Except FileError Unit}
    (course : Course (.tree "d" "d/d") loneDirectory visited result after) :
    ["d", "d"] ∈ visited := by
  have makes : loneDirectory.makeDirectories pathLimit "d/d" = (.ok (), loneDirectoryCopied) :=
    Prod.ext (by decide +kernel) (by decide +kernel)
  obtain ⟨names, more, perm, rfl, goesOn⟩ :=
    course.exists_entries makes (rfl : _ = Except.ok ["d"])
  have isOnly : loneDirectoryCopied.names ["d"] = ["d"] := by decide +kernel
  obtain rfl := List.perm_singleton.mp (isOnly ▸ perm)
  obtain ⟨below, _, _, isPart, goesIn⟩ := goesOn.exists_entry rfl
  have makesMore : (loneDirectoryCopied.makeDirectories pathLimit (join "d/d" "d")).1 = .ok () := by
    decide +kernel
  have isAt : loneDirectoryCopied.directoryAt (join "d" "d") = .ok ["d", "d"] := rfl
  have madeMore := Prod.ext_iff.mpr ⟨makesMore, rfl⟩
  obtain ⟨_, _, -, rfl, -⟩ := goesIn.exists_entries madeMore
    ((growsAsTree_of_makeDirectories madeMore).grows.directoryAt isAt)
  exact List.mem_cons_of_mem _ (isPart (List.mem_cons_self))

/-- The names in a directory in the order in which they are stored. -/
def storedNames : Reading := fun system path => do
  let location ← system.directoryAt path
  pure (system.entries.filterMap fun entry => childName? location entry.1)

theorem isReading_storedNames : IsReading storedNames := by
  intro system path
  rw [storedNames, FileSystem.listDirectory]
  cases system.directoryAt path with
  | error problem => exact .inr ⟨problem, rfl, rfl⟩
  | ok location => exact .inl ⟨_, _, rfl, rfl, (List.mergeSort_perm _ _).symm⟩

/-- A directory is listed again and again through a link that leads back to it, a copy reads a
directory twice if a link leads to it, too, and a copy of a directory into itself reads what it has
made and is not done. -/
theorem not_visits_once :
    (loopedDirectory.isDirectory "d" = true ∧
      ¬(visits (listWith (namesVisiting listDirectory) "d" .directory true)
        loopedDirectory).Nodup) ∧
      (IsReading storedNames ∧
        visits (copyDirectoryWith (namesVisiting storedNames) "d" "x") twofoldDirectory =
          [["d"], ["d", "e"], ["d", "e"]]) ∧
      loneDirectory.node? ["d", "d"] = none ∧
      ["d", "d"] ∈ visits (copyDirectoryWith (namesVisiting listDirectory) "d" "d")
        loneDirectory ∧
      ((copyDirectory "d" "d").run.run loneDirectory).1 ≠ .ok () := by
  have isTree : loopedDirectory.IsTree := isTree_of_entries (by decide) (by decide) rfl
  obtain ⟨paths, ways, visited, tour, answers⟩ :=
    @exists_tour_list "d" loopedDirectory _ isReading_listDirectory isTree rfl .directory
  have isLoop : loopedDirectory.Holds "d" "l" := ⟨["d"], rfl, mem_names_iff.mpr rfl⟩
  obtain ⟨visitedToo, ⟨course, -⟩, ran⟩ :=
    exists_tour_copy isReading_listDirectory isTree_loneDirectory (rfl : fileName? "d" = some "d")
      (Prod.mk.eta (p := (copyDirectory "d" "d").run.run loneDirectory)).symm
  have isPlaced : loneDirectory.IsPlaced "d" ["d"] ["d"] :=
    ⟨.inr rfl, by decide, by decide, fun _ _ _ => node?_ne_link (by simp [loneDirectory])⟩
  refine ⟨⟨rfl, fun nodup => ?_⟩, ⟨isReading_storedNames, by decide +kernel⟩, rfl, ?_, ?_⟩
  · rw [answers.records.visits_eq] at nodup
    cases tour.leadsApart_of_nodup (.refl _) trivial nodup [] ["l"] ["d"] trivial
      ⟨isLoop, trivial⟩ rfl rfl
  · rw [visits, ran]
    exact mem_visited_loneDirectory course
  · have isWay : loneDirectory.IsWay "d" [] := trivial
    exact course.not_done isTree_loneDirectory isPlaced isWay rfl (by decide)

end Files
end ScriptHost
