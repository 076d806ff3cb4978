import ScriptHost.Proofs.FileSystem.Placement
import ScriptHost.Proofs.Files.Courses

/-!
# What a copy reaches of itself

A copy makes directories along the names of its target only. Where no way from the source leads to
where they are made, the copy does not come to them. Where a way leads to the directory below which
they are made, each of them is copied into a further one, so that the copy cannot be done.
-/

namespace ScriptHost
namespace Files

open FileSystem ScriptHost.Path

variable {source target parent name : String} {names way rest : List String}
  {base location : Location} {system start after : FileSystem} {visited : List Location}
  {result : Except FileError Unit} {task : Task}

/-! ## What a copy reads first -/

/-- A directory is read when its target has been made, and then its entries are copied. -/
theorem Course.exists_entries
    {made : FileSystem}
    (course : Course (.tree source target) system visited result after)
    (makes : system.makeDirectories pathLimit target = (.ok (), made))
    (isAt : made.directoryAt source = .ok location) :
    ∃ names more, names.Perm (made.names location) ∧ visited = location :: more ∧
      Course (.entries source target names) made more result after := by
  cases course with
  | unmade isMade => cases makes.symm.trans isMade
  | unread isMade isMissing =>
      cases makes.symm.trans isMade
      cases isAt.symm.trans isMissing
  | reads isMade isPlace perm goesOn =>
      cases makes.symm.trans isMade
      cases isAt.symm.trans isPlace
      exact ⟨_, _, perm, rfl, goesOn⟩

/-- An entry that is a directory is copied first. -/
theorem Course.exists_entry
    (course : Course (.entries source target (name :: names)) system visited result after)
    (isDirectory : system.isDirectory (join source name) = true) :
    ∃ below resultBelow between, below ⊆ visited ∧
      Course (.tree (join source name) (join target name)) system below resultBelow between := by
  cases course with
  | enters _ copies goesOn => exact ⟨_, _, _, List.subset_append_left .., copies⟩
  | fails _ copies => exact ⟨_, _, _, List.Subset.refl _, copies⟩
  | copies notDirectory => cases isDirectory.symm.trans notDirectory
  | refused notDirectory => cases isDirectory.symm.trans notDirectory

/-! ## What a copy makes -/

/-- What a copy makes stands along the names of its target. -/
theorem Course.newAlong
    (course : Course (.tree source (descend parent names)) system visited result after)
    (isPlaced : system.IsPlaced parent base names)
    (isTree : system.IsTree) :
    NewAlong base names system after := by
  have areNames {way : List String} (isWay : after.IsWay source way) :
      ∀ name ∈ names ++ way, IsName name := by
    intro name isIn
    rcases List.mem_append.mp isIn with isIn | isIn
    · exact isPlaced.areNames name isIn
    · exact (course.growsAsTree.isTree isTree).isName_of_isWay isWay isIn
  have liesAt : (Task.tree source (descend parent names)).LiesAt source (descend parent names)
    after [] := ⟨rfl, rfl, trivial⟩
  refine course.relates (NewAlong base names) liesAt (.refl _) (.refl _) isTree .refl .trans
    (fun {before made way result} isWay grows makes => ?_) (fun isWay grows _ copies => ?_)
  · rw [← descend_append] at makes
    have new := (isPlaced.grows grows).newAlong_makeDirectories (areNames isWay)
      (goesAlong_append names way) pathLimit
    rwa [makes] at new
  · rw [← descend_append] at copies
    exact (isPlaced.grows grows).newAlong_copyFile (areNames isWay) (goesAlong_append ..) copies

/-! ## Copies of a directory into itself -/

/-- A copy that gets done: a directory is made at the target, the source is read, and each of its
entries that never is a file gets done, too. -/
inductive Finishes (start : FileSystem) : String → String → Prop
  | reads {source target : String} {system : FileSystem} {place location : Location}
      (grows : Grows start system)
      (isTree : system.IsTree)
      (isMade : system.StandsFor target place)
      (isAt : system.directoryAt source = .ok location)
      (each : ∀ name ∈ system.names location,
        (∀ later, Grows system later → later.isFile (join source name) = false) →
        Finishes start (join source name) (join target name)) :
      Finishes start source target

/-- What is left to be done gets done. -/
def Task.Finishes
    (start system : FileSystem) : Task → Prop
  | .tree source target => Files.Finishes start source target
  | .entries source target names => ∀ name ∈ names,
      (∀ later, Grows system later → later.isFile (join source name) = false) →
      Files.Finishes start (join source name) (join target name)

theorem Course.finishes
    (course : Course task system visited result after)
    (isDone : result = .ok ())
    (grows : Grows start system)
    (isTree : system.IsTree) :
    task.Finishes start system := by
  induction course with
  | unmade => cases isDone
  | unread => cases isDone
  | reads makes isAt perm goesOn inductionHypothesis =>
      have growsMade := growsAsTree_of_makeDirectories makes
      have growsFrom := grows.trans growsMade.grows
      have isTreeMade := growsMade.isTree isTree
      obtain ⟨place, isMade⟩ := exists_standsFor_of_makeDirectories makes
      exact .reads growsFrom isTreeMade isMade isAt fun name isIn =>
        inductionHypothesis isDone growsFrom isTreeMade name (perm.mem_iff.mpr isIn)
  | done =>
      intro name isIn
      cases isIn
  | enters _ copies goesOn copiesHypothesis goesOnHypothesis =>
      intro name isIn neverFile
      rcases List.mem_cons.mp isIn with rfl | isIn
      · exact copiesHypothesis rfl grows isTree
      · have growsIn := copies.growsAsTree
        exact goesOnHypothesis isDone (grows.trans growsIn.grows) (growsIn.isTree isTree) name isIn
          fun later growsLater => neverFile later (growsIn.grows.trans growsLater)
  | fails => cases isDone
  | copies _ copied goesOn goesOnHypothesis =>
      intro name isIn neverFile
      rcases List.mem_cons.mp isIn with rfl | isIn
      · obtain ⟨origin, -, isFile, -⟩ := copyFile_eq_ok_iff.mp copied
        have notFile := neverFile _ (.refl _)
        rw [isFile_iff.mpr ⟨origin, isFile⟩] at notFile
        cases notFile
      · have growsCopied := growsAsTree_copyFile copied
        exact goesOnHypothesis isDone (grows.trans growsCopied.grows)
          (growsCopied.isTree isTree) name isIn
          fun later growsLater => neverFile later (growsCopied.grows.trans growsLater)
  | refused => cases isDone

namespace Finishes

/-- What a way leads to gets done. -/
theorem descend
    (finishes : Finishes start source target)
    (isWay : start.IsWay source way)
    (isDirectory : start.isDirectory (Path.descend source way) = true) :
    Finishes start (Path.descend source way) (Path.descend target way) := by
  induction way generalizing source target with
  | nil => exact finishes
  | cons name rest inductionHypothesis =>
      obtain @⟨_, _, system, place, location, grows, isTree, isMade, isAt, each⟩ := finishes
      obtain ⟨⟨origin, isOrigin, isName⟩, isWayOn⟩ := isWay
      obtain rfl := Except.ok.inj ((grows.directoryAt isOrigin).symm.trans isAt)
      have isBelow : start.isDirectory (join source name) = true := by
        cases rest with
        | nil => exact isDirectory
        | cons next rest =>
            obtain ⟨place, isPlace, -⟩ := isWayOn.1
            exact isDirectory_iff.mpr ⟨place, isPlace⟩
      refine inductionHypothesis (each name (grows.mem_names isName) fun later growsLater => ?_)
        isWayOn isDirectory
      exact isFile_of_isDirectory ((grows.trans growsLater).isDirectory isBelow)

section Itself

variable (isPlaced : start.IsPlaced parent base names)
  (isAt : start.directoryAt (Path.descend source way) = .ok base)
  (isBelow : names ++ way ≠ [])

include isPlaced isAt isBelow

/-- A directory below the base is copied to where it makes a further one below itself, which is
copied, too. -/
theorem goesOn
    (areNames : ∀ name ∈ way ++ rest, IsName name)
    (isOnTheWay : rest <+: names ++ (way ++ rest))
    (finishes : Finishes start (Path.descend source (way ++ rest))
      (Path.descend (Path.descend parent names) (way ++ rest))) :
    ∃ name, IsName name ∧ rest ++ [name] <+: names ++ (way ++ (rest ++ [name])) ∧
      Finishes start (Path.descend source (way ++ (rest ++ [name])))
        (Path.descend (Path.descend parent names) (way ++ (rest ++ [name]))) := by
  obtain @⟨_, _, system, place, location, grows, isTree, isMade, isSource, each⟩ := finishes
  have isPlacedNow := isPlaced.grows grows
  have areAllNames : ∀ name ∈ names ++ (way ++ rest), IsName name := by
    intro name isIn
    exact (List.mem_append.mp isIn).elim (isPlaced.areNames name) (areNames name)
  -- The copy stands where its names lead to, and the directory that is read stands above it.
  have isMadeAt : place = base ++ (names ++ (way ++ rest)) := by
    rw [← descend_append] at isMade
    exact isPlacedNow.standsFor.descend areAllNames
      (isPlacedNow.noLinksAlong (goesAlong_append ..)) isMade
  have isReadAt : location = base ++ rest := by
    rw [descend_append] at isSource
    have isBase : system.StandsFor (Path.descend source way) base := .inr (grows.directoryAt isAt)
    refine isBase.descend (fun name isIn => areNames name (by simp [isIn])) ?_ (.inr isSource)
    exact isPlacedNow.noLinksAlong ((goesAlong_append ..).ofFront isOnTheWay)
  obtain ⟨beyond, isBeyond⟩ := isOnTheWay
  cases beyond with
  | nil =>
      have isLong := congrArg List.length isBeyond
      have isNotLong : (names ++ way).length ≠ 0 := isBelow ∘ List.length_eq_zero_iff.mp
      simp only [List.append_nil, List.length_append] at isLong isNotLong
      omega
  | cons name beyond =>
      have isName : IsName name := areAllNames name (isBeyond ▸ by simp)
      have isMadeBelow : place = location ++ [name] ++ beyond := by
        rw [isMadeAt, isReadAt, ← isBeyond]
        simp
      have stands : system.node? (location ++ [name]) = some .directory :=
        isTree.node?_of_append (isMadeBelow ▸ isMade.node? isTree)
      refine ⟨name, isName, ⟨beyond ++ [name], ?_⟩, ?_⟩
      · have isLonger : names ++ (way ++ (rest ++ [name])) = names ++ (way ++ rest) ++ [name] := by
          simp
        rw [isLonger, ← isBeyond]
        simp
      rw [← List.append_assoc, descend_concat, descend_concat]
      refine each name (mem_names_iff.mpr (by rw [stands]; rfl)) fun later growsLater => ?_
      exact isFile_join_of_directory (.inr (growsLater.directoryAt isSource)) isName
        (growsLater.directory stands)

/-- So it never ends: there is such a directory at every depth. -/
theorem exists_finishes
    (areNames : ∀ name ∈ way, IsName name)
    (finishes : Finishes start (Path.descend source way)
      (Path.descend (Path.descend parent names) way))
    (depth : Nat) :
    ∃ rest, rest.length = depth ∧ (∀ name ∈ rest, IsName name) ∧
      rest <+: names ++ (way ++ rest) ∧
      Finishes start (Path.descend source (way ++ rest))
        (Path.descend (Path.descend parent names) (way ++ rest)) := by
  induction depth with
  | zero => exact ⟨[], rfl, by simp, List.nil_prefix, by rwa [List.append_nil]⟩
  | succ depth inductionHypothesis =>
      obtain ⟨rest, isLong, areNamesOn, isOnTheWay, finishesOn⟩ := inductionHypothesis
      have areAllNames : ∀ name ∈ way ++ rest, IsName name := fun name isIn =>
        (List.mem_append.mp isIn).elim (areNames name) (areNamesOn name)
      obtain ⟨name, isName, isOnTheWay, finishes⟩ :=
        goesOn isPlaced isAt isBelow areAllNames isOnTheWay finishesOn
      refine ⟨rest ++ [name], by simp [isLong], fun other isIn => ?_, isOnTheWay, finishes⟩
      rcases List.mem_append.mp isIn with isIn | isIn
      · exact areNamesOn other isIn
      · exact List.mem_singleton.mp isIn ▸ isName

end Itself

end Finishes

/-- A copy of a directory is not done if a way leads from it to where its target lies below. -/
theorem Course.not_done
    (course : Course (.tree source (descend parent names)) system visited result after)
    (isTree : system.IsTree)
    (isPlaced : system.IsPlaced parent base names)
    (isWay : system.IsWay source way)
    (isAt : system.directoryAt (descend source way) = .ok base)
    (isBelow : names ++ way ≠ []) :
    result ≠ .ok () := by
  intro isDone
  have finishes : Finishes system source (descend parent names) :=
    course.finishes isDone (.refl system) isTree
  have areNames : ∀ name ∈ way, IsName name := fun _ => isTree.isName_of_isWay isWay
  -- The path to a directory that is read is bounded, and the deeper it lies the longer it is.
  obtain ⟨rest, isLong, areNamesOn, -, finishesOn⟩ :=
    (finishes.descend isWay (isDirectory_iff.mpr ⟨base, isAt⟩)).exists_finishes isPlaced isAt
      isBelow areNames pathLimit
  have isLonger := @length_le_utf8ByteSize_descend source (way ++ rest) fun name isIn =>
    (List.mem_append.mp isIn).elim (areNames name) (areNamesOn name)
  cases finishesOn with
  | reads _ _ _ isRead =>
      have isShort := isShort_of_isDirectory (isDirectory_iff.mpr ⟨_, isRead⟩)
      rw [List.length_append] at isLonger
      omega

end Files
end ScriptHost
