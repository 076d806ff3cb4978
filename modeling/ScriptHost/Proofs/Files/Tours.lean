import ScriptHost.Proofs.Files.Courses

/-!
# Tours through directories

The directories that are read on the way of a copy are those that ways lead to from its source, each
way taken once. Several ways may lead to one directory, which is then read as often.
-/

namespace ScriptHost
namespace Files

open FileSystem ScriptHost.Path

variable {source target : String} {system after final : FileSystem} {names way : List String}
  {visited : List Location} {result : Except FileError Unit} {task : Task}

/-- The directories that have been read, as ways lead to them: each way is taken once, and when
all is done, none into a directory is left out. -/
structure IsTour
    (source : String)
    (system final : FileSystem)
    (covers : List String → Prop)
    (isDone : Prop)
    (ways : List (List String))
    (visited : List Location) : Prop where
  nodup : ways.Nodup
  isWay : ∀ way ∈ ways, covers way ∧ final.IsWay source way
  isAt : (ways.map fun way => final.directoryAt (descend source way)) = visited.map .ok
  isWhole : isDone → ∀ way, covers way → system.IsWay source way →
    system.isDirectory (descend source way) = true → way ∈ ways

section Parts

variable {between : FileSystem} {covers coversMore coversAll : List String → Prop}
  {isDone isDoneToo isAllDone : Prop} {ways more : List (List String)}
  {visitedMore : List Location}

theorem isTour_nil
    (isWhole : isDone → ∀ way, covers way → system.IsWay source way →
      system.isDirectory (descend source way) = false) :
    IsTour source system final covers isDone [] [] where
  nodup := .nil
  isWay := by simp
  isAt := rfl
  isWhole done way isCovered isWay isDirectory := by
    rw [isWhole done way isCovered isWay] at isDirectory
    cases isDirectory

/-- A tour that goes on elsewhere. -/
theorem IsTour.append
    (first : IsTour source system final covers isDone ways visited)
    (second : IsTour source between final coversMore isDoneToo more visitedMore)
    (grows : Grows system between)
    (apart : ∀ way, covers way → ¬coversMore way)
    (coversAll_iff : ∀ way, coversAll way ↔ covers way ∨ coversMore way)
    (isDone_of_isAllDone : isAllDone → isDone ∧ isDoneToo) :
    IsTour source system final coversAll isAllDone (ways ++ more) (visited ++ visitedMore) where
  nodup := by
    refine first.nodup.append second.nodup fun way isFirst isSecond => ?_
    exact apart way (first.isWay way isFirst).1 (second.isWay way isSecond).1
  isWay way isIn := by
    rw [coversAll_iff]
    rcases List.mem_append.mp isIn with isIn | isIn
    · exact (first.isWay way isIn).imp_left .inl
    · exact (second.isWay way isIn).imp_left .inr
  isAt := by rw [List.map_append, List.map_append, first.isAt, second.isAt]
  isWhole allDone way isCovered isWay isDirectory := by
    obtain ⟨done, doneToo⟩ := isDone_of_isAllDone allDone
    rw [List.mem_append]
    rcases (coversAll_iff way).mp isCovered with isCovered | isCovered
    · exact .inl (first.isWhole done way isCovered isWay isDirectory)
    · exact .inr (second.isWhole doneToo way isCovered (grows.isWay isWay)
        (grows.isDirectory isDirectory))

/-- A tour that is broken off. -/
theorem IsTour.breakOff
    (tour : IsTour source system final covers isDone ways visited)
    (isCovered : ∀ way, covers way → coversAll way)
    (notDone : ¬isAllDone) :
    IsTour source system final coversAll isAllDone ways visited where
  nodup := tour.nodup
  isWay way isIn := (tour.isWay way isIn).imp_left (isCovered way)
  isAt := tour.isAt
  isWhole allDone := (notDone allDone).elim

end Parts

/-- Below what is no directory there is no way to one. -/
theorem isDirectory_of_prefix
    {name : String}
    (notDirectory : system.isDirectory (join (descend source names) name) = false)
    (isBelow : names ++ [name] <+: way)
    (isWay : system.IsWay source way) :
    system.isDirectory (descend source way) = false := by
  obtain ⟨rest, rfl⟩ := isBelow
  cases rest with
  | nil => rwa [List.append_nil, descend_concat]
  | cons next rest =>
      have isDirectory := isDirectory_of_isWay isWay
      rw [descend_concat, notDirectory] at isDirectory
      cases isDirectory

/-- A directory is read, and then the entries that were found there are toured. -/
theorem IsTour.root
    {made : FileSystem}
    {location : Location}
    {listed : List String}
    {isDone : Prop}
    {ways : List (List String)}
    (tour : IsTour source made final (fun way => ∃ name ∈ listed, names ++ [name] <+: way) isDone
      ways visited)
    (grows : Grows system made)
    (growsOn : Grows made final)
    (isWay : final.IsWay source names)
    (isAt : made.directoryAt (descend source names) = .ok location)
    (perm : listed.Perm (made.names location)) :
    IsTour source system final (fun way => names <+: way) isDone (names :: ways)
      (location :: visited) where
  nodup := by
    refine List.nodup_cons.mpr ⟨fun isIn => ?_, tour.nodup⟩
    obtain ⟨⟨name, -, isBelow⟩, -⟩ := tour.isWay names isIn
    have isLess := isBelow.length_le
    rw [List.length_append] at isLess
    exact Nat.not_succ_le_self _ isLess
  isWay := by
    intro way isIn
    rcases List.mem_cons.mp isIn with rfl | isIn
    · exact ⟨List.prefix_rfl, isWay⟩
    · obtain ⟨⟨name, -, isBelow⟩, isWay⟩ := tour.isWay way isIn
      exact ⟨(List.prefix_append ..).trans isBelow, isWay⟩
  isAt := by rw [List.map_cons, List.map_cons, tour.isAt, growsOn.directoryAt isAt]
  isWhole := by
    rintro done way ⟨rest, rfl⟩ isWay isDirectory
    cases rest with
    | nil => simp
    | cons name rest =>
        refine List.mem_cons_of_mem _ ?_
        obtain ⟨place, isPlace, isName⟩ := (isWay_append.mp isWay).2.1
        have isName := grows.mem_names isName
        rw [grows.directoryAt isPlace] at isAt
        cases isAt
        exact tour.isWhole done _ ⟨name, perm.mem_iff.mpr isName, rest, by simp⟩
          (grows.isWay isWay) (grows.isDirectory isDirectory)

/-- A copy tours the directories below its source. -/
theorem Course.exists_tour
    (course : Course task system visited result after)
    (liesAt : task.LiesAt source target final names)
    (grows : Grows after final)
    (isTree : system.IsTree) :
    ∃ ways, IsTour source system final (fun way => task.Covers names way) (result = .ok ()) ways
      visited := by
  induction course generalizing names with
  | unmade => exact ⟨[], isTour_nil (by simp)⟩
  | unread => exact ⟨[], isTour_nil (by simp)⟩
  | reads makes isAt perm goesOn inductionHypothesis =>
      have growsMade := growsAsTree_of_makeDirectories makes
      have isTreeMade := growsMade.isTree isTree
      have growsOn := goesOn.growsAsTree.grows.trans grows
      obtain ⟨ways, tour⟩ := inductionHypothesis
        (liesAt.read growsOn isTreeMade isAt perm) grows isTreeMade
      obtain ⟨rfl, rfl, isWay⟩ := liesAt
      exact ⟨names :: ways, tour.root growsMade.grows growsOn isWay isAt perm⟩
  | done => exact ⟨[], isTour_nil (by simp [Task.Covers])⟩
  | enters isDirectory copies goesOn copiesHypothesis goesOnHypothesis =>
      have growsOn := goesOn.growsAsTree.grows.trans grows
      obtain ⟨ways, tour⟩ := copiesHypothesis liesAt.entry growsOn isTree
      obtain ⟨more, tourMore⟩ := goesOnHypothesis liesAt.rest grows
        (copies.growsAsTree.isTree isTree)
      exact ⟨ways ++ more, tour.append tourMore copies.growsAsTree.grows
        (fun way => liesAt.apart) (fun way => covers_cons_iff) fun done => ⟨rfl, done⟩⟩
  | fails isDirectory copies copiesHypothesis =>
      obtain ⟨ways, tour⟩ := copiesHypothesis liesAt.entry grows isTree
      exact ⟨ways, tour.breakOff (fun way isBelow => ⟨_, by simp, isBelow⟩) (by simp)⟩
  | copies notDirectory copies goesOn goesOnHypothesis =>
      have growsCopied := growsAsTree_copyFile copies
      obtain ⟨more, tourMore⟩ := goesOnHypothesis liesAt.rest grows (growsCopied.isTree isTree)
      have tour : IsTour source _ final (fun way => names ++ [_] <+: way) True [] [] :=
        isTour_nil fun _ way => isDirectory_of_prefix (liesAt.1 ▸ notDirectory)
      exact ⟨[] ++ more, tour.append tourMore growsCopied.grows
        (fun way => liesAt.apart) (fun way => covers_cons_iff) fun done => ⟨trivial, done⟩⟩
  | refused => exact ⟨[], isTour_nil (by simp)⟩

end Files
end ScriptHost
