import ScriptHost.Proofs.FileSystem.Ways
import ScriptHost.Proofs.Files.Visits

/-!
# Courses of a copy

A copy of a tree goes through directories and their entries until it is done or fails. Its course
tells what is asked of the file system on the way, which directories are read, and what comes out.
Every copy takes a course, and in its course a file system only grows.
-/

namespace ScriptHost
namespace Files

open FileSystem ScriptHost.Path

/-- What a copy has to do. -/
inductive Task
  /-- Copy the content of a directory. -/
  | tree (source target : String)
  /-- Copy entries of a directory, of whose content that is a part. -/
  | entries (source target : String) (names : List String)

/-- The course of a task from one file system to another one, with the directories that are read
and with what comes out. -/
inductive Course :
    Task → FileSystem → List Location → Except FileError Unit → FileSystem → Prop
  | unmade {source target : String} {system made : FileSystem} {problem : SystemError}
      (makes : system.makeDirectories pathLimit target = (.error problem, made)) :
      Course (.tree source target) system []
        (.error ⟨"failed to create", target, problem⟩) made
  | unread {source target : String} {system made : FileSystem} {problem : SystemError}
      (makes : system.makeDirectories pathLimit target = (.ok (), made))
      (isMissing : made.directoryAt source = .error problem) :
      Course (.tree source target) system []
        (.error ⟨"failed to list", source, problem⟩) made
  | reads {source target : String} {system made after : FileSystem} {location : Location}
      {names : List String} {visited : List Location} {result : Except FileError Unit}
      (makes : system.makeDirectories pathLimit target = (.ok (), made))
      (isAt : made.directoryAt source = .ok location)
      (perm : names.Perm (made.names location))
      (goesOn : Course (.entries source target names) made visited result after) :
      Course (.tree source target) system (location :: visited) result after
  | done {source target : String} {system : FileSystem} :
      Course (.entries source target []) system [] (.ok ()) system
  | enters {source target name : String} {names : List String}
      {system between after : FileSystem} {visited more : List Location}
      {result : Except FileError Unit}
      (isDirectory : system.isDirectory (join source name) = true)
      (copies : Course (.tree (join source name) (join target name)) system visited (.ok ())
        between)
      (goesOn : Course (.entries source target names) between more result after) :
      Course (.entries source target (name :: names)) system (visited ++ more) result after
  | fails {source target name : String} {names : List String} {system after : FileSystem}
      {visited : List Location} {error : FileError}
      (isDirectory : system.isDirectory (join source name) = true)
      (copies : Course (.tree (join source name) (join target name)) system visited
        (.error error) after) :
      Course (.entries source target (name :: names)) system visited (.error error) after
  | copies {count : Nat} {source target name : String} {names : List String}
      {system between after : FileSystem} {visited : List Location}
      {result : Except FileError Unit}
      (notDirectory : system.isDirectory (join source name) = false)
      (copies : system.copyFile (join source name) (join target name) = .ok (count, between))
      (goesOn : Course (.entries source target names) between visited result after) :
      Course (.entries source target (name :: names)) system visited result after
  | refused {source target name : String} {names : List String} {system : FileSystem}
      {problem : SystemError}
      (notDirectory : system.isDirectory (join source name) = false)
      (refuses : system.copyFile (join source name) (join target name) = .error problem) :
      Course (.entries source target (name :: names)) system []
        (.error ⟨"failed to copy", join source name, problem⟩) system

variable {source target : String} {names way : List String}
  {system after start final : FileSystem} {visited : List Location}
  {result : Except FileError Unit} {task : Task}

/-- In its course a file system only grows. -/
theorem Course.growsAsTree
    (course : Course task system visited result after) :
    GrowsAsTree system after := by
  induction course with
  | unmade makes => exact growsAsTree_of_makeDirectories makes
  | unread makes => exact growsAsTree_of_makeDirectories makes
  | reads makes _ _ _ goesOn => exact (growsAsTree_of_makeDirectories makes).trans goesOn
  | done => exact .refl _
  | enters _ _ _ copies goesOn => exact copies.trans goesOn
  | fails _ _ copies => exact copies
  | copies _ copies _ goesOn => exact (growsAsTree_copyFile copies).trans goesOn
  | refused => exact .refl _

/-! ## Where a task lies -/

/-- A task that lies below two roots, at the same names, with no entry twice. -/
def Task.LiesAt
    (source target : String)
    (final : FileSystem)
    (names : List String) : Task → Prop
  | .tree origin copied =>
      origin = descend source names ∧ copied = descend target names ∧ final.IsWay source names
  | .entries origin copied listed =>
      origin = descend source names ∧ copied = descend target names ∧ listed.Nodup ∧
        ∀ name ∈ listed, final.IsWay source (names ++ [name])

/-- The ways into what a task has to do. -/
def Task.Covers
    (names : List String)
    (way : List String) : Task → Prop
  | .tree .. => names <+: way
  | .entries _ _ listed => ∃ name ∈ listed, names ++ [name] <+: way

namespace Task.LiesAt

variable {origin copied name : String} {listed : List String}

/-- An entry that is a directory lies one name deeper. -/
theorem entry
    (liesAt : (Task.entries origin copied (name :: listed)).LiesAt source target final
      names) :
    (Task.tree (join origin name) (join copied name)).LiesAt source target final
      (names ++ [name]) := by
  obtain ⟨rfl, rfl, -, areWays⟩ := liesAt
  exact ⟨(descend_concat ..).symm, (descend_concat ..).symm, areWays name (by simp)⟩

theorem rest
    (liesAt : (Task.entries origin copied (name :: listed)).LiesAt source target final
      names) :
    (Task.entries origin copied listed).LiesAt source target final names := by
  obtain ⟨isOrigin, isCopied, nodup, areWays⟩ := liesAt
  exact ⟨isOrigin, isCopied, nodup.of_cons,
    fun other isListed => areWays other (List.mem_cons_of_mem _ isListed)⟩

/-- What was read in a directory lies below it. -/
theorem read
    {made : FileSystem}
    {location : Location}
    (liesAt : (Task.tree origin copied).LiesAt source target final names)
    (growsOn : Grows made final)
    (isTree : made.IsTree)
    (isAt : made.directoryAt origin = .ok location)
    (perm : listed.Perm (made.names location)) :
    (Task.entries origin copied listed).LiesAt source target final names := by
  obtain ⟨rfl, rfl, isWay⟩ := liesAt
  refine ⟨rfl, rfl, perm.nodup_iff.mpr (isTree.distinct.nodup_names _), fun name isListed => ?_⟩
  exact isWay_concat.mpr ⟨isWay, growsOn.holds ⟨_, isAt, perm.mem_iff.mp isListed⟩⟩

end Task.LiesAt

theorem not_prefix_of_ne
    {name other : String}
    (isOther : name ≠ other)
    (isBelow : names ++ [name] <+: way) :
    ¬names ++ [other] <+: way := by
  intro isBelowOther
  have isSame := (List.prefix_of_prefix_length_le isBelow isBelowOther (by simp)).eq_of_length
    (by simp)
  exact isOther (by simpa using isSame)

theorem covers_cons_iff
    {origin copied name : String}
    {listed : List String} :
    (Task.entries origin copied (name :: listed)).Covers names way ↔
      names ++ [name] <+: way ∨ (Task.entries origin copied listed).Covers names way := by
  simp [Task.Covers]

/-- No way into an entry is a way into one of the others. -/
theorem Task.LiesAt.apart
    {origin copied name : String}
    {listed : List String}
    (liesAt : (Task.entries origin copied (name :: listed)).LiesAt source target final
      names)
    (isBelow : names ++ [name] <+: way) :
    ¬(Task.entries origin copied listed).Covers names way := by
  rintro ⟨other, isListed, isBelowOther⟩
  refine not_prefix_of_ne ?_ isBelow isBelowOther
  rintro rfl
  exact (List.nodup_cons.mp liesAt.2.2.1).1 isListed

/-- What each request in its course does to a file system, the course does. -/
theorem Course.relates
    (relates : FileSystem → FileSystem → Prop)
    (course : Course task system visited result after)
    (liesAt : task.LiesAt source target final names)
    (growsFrom : Grows start system)
    (grows : Grows after final)
    (isTree : system.IsTree)
    (refl : ∀ system, relates system system)
    (trans : ∀ {first second third}, relates first second → relates second third →
      relates first third)
    (makes : ∀ {system made way result}, final.IsWay source way → Grows start system →
      system.makeDirectories pathLimit (descend target way) = (result, made) →
      relates system made)
    (copies : ∀ {system copied way count}, final.IsWay source way → Grows start system →
      Grows copied final →
      system.copyFile (descend source way) (descend target way) = .ok (count, copied) →
      relates system copied) :
    relates system after := by
  induction course generalizing names with
  | unmade made =>
      obtain ⟨-, rfl, isWay⟩ := liesAt
      exact makes isWay growsFrom made
  | unread made =>
      obtain ⟨-, rfl, isWay⟩ := liesAt
      exact makes isWay growsFrom made
  | reads made isAt perm goesOn inductionHypothesis =>
      have growsMade := growsAsTree_of_makeDirectories made
      have isTreeMade := growsMade.isTree isTree
      have growsOn := goesOn.growsAsTree.grows.trans grows
      have liesAtBelow := liesAt.read growsOn isTreeMade isAt perm
      obtain ⟨-, rfl, isWay⟩ := liesAt
      exact trans (makes isWay growsFrom made)
        (inductionHypothesis liesAtBelow (growsFrom.trans growsMade.grows) grows isTreeMade)
  | done => exact refl _
  | enters _ goesIn goesOn inHypothesis onHypothesis =>
      have growsIn := goesIn.growsAsTree
      exact trans
        (inHypothesis liesAt.entry growsFrom (goesOn.growsAsTree.grows.trans grows) isTree)
        (onHypothesis liesAt.rest (growsFrom.trans growsIn.grows) grows (growsIn.isTree isTree))
  | fails _ _ inHypothesis => exact inHypothesis liesAt.entry growsFrom grows isTree
  | copies _ copied goesOn onHypothesis =>
      have growsCopied := growsAsTree_copyFile copied
      have growsOn := goesOn.growsAsTree.grows.trans grows
      refine trans ?_ (onHypothesis liesAt.rest (growsFrom.trans growsCopied.grows) grows
        (growsCopied.isTree isTree))
      obtain ⟨isOrigin, isCopied, isWay⟩ := liesAt.entry
      rw [isOrigin, isCopied] at copied
      exact copies isWay growsFrom growsOn copied
  | refused => exact refl _

/-! ## Every copy takes a course -/

/-- The copy of a tree takes a course, with a record of what is read in it. -/
def TakesCourse
    (task : Task)
    (action : VisitM Unit)
    (plain : FileM Unit)
    (system : FileSystem) : Prop :=
  ∃ visited, Course task system visited (plain.run.run system).1 (plain.run.run system).2 ∧
    Records action plain system visited

section Entry

variable (copyBelow : String → String → VisitM Unit) (plainBelow : String → String → FileM Unit)
  (target : String) {source name : String} {names : List String}

theorem run_copyEntry_of_isDirectory
    (isDirectory : system.isDirectory (join source name) = true) :
    (copyEntry plainBelow source target name).run.run system =
      (plainBelow (join source name) (join target name)).run.run system := by
  change (leadsToDirectory (join source name) >>= _).run.run system = _
  rw [run_bind, run_leadsToDirectory, isDirectory]
  rfl

theorem run_copyEntry_of_notDirectory
    (notDirectory : system.isDirectory (join source name) = false) :
    (copyEntry plainBelow source target name).run.run system =
      match system.copyFile (join source name) (join target name) with
      | .ok (_, between) => (.ok (), between)
      | .error problem =>
          (.error ⟨"failed to copy", join source name, problem⟩, system) := by
  change (leadsToDirectory (join source name) >>= _).run.run system = _
  rw [run_bind, run_leadsToDirectory, notDirectory]
  change (copyContent _ _ _ >>= _).run.run system = _
  rw [run_bind, run_copyContent]
  rcases system.copyFile (join source name) (join target name) with _ | _ <;> rfl

theorem records_copyEntry_of_isDirectory
    (isDirectory : system.isDirectory (join source name) = true)
    (records : Records (copyBelow (join source name) (join target name))
      (plainBelow (join source name) (join target name)) system visited) :
    Records (copyEntry copyBelow source target name) (copyEntry plainBelow source target name)
      system visited := by
  refine (records_lift (leadsToDirectory _) system).bind run_leadsToDirectory ?_
  rw [isDirectory]
  exact records

theorem records_copyEntry_of_notDirectory
    (notDirectory : system.isDirectory (join source name) = false) :
    Records (copyEntry copyBelow source target name) (copyEntry plainBelow source target name)
      system [] := by
  refine (records_lift (leadsToDirectory _) system).bind run_leadsToDirectory ?_
  rw [notDirectory]
  have recordsCopy := records_lift
    (copyContent "failed to copy" (join source name) (join target name)) system
  rcases copies : system.copyFile (join source name) (join target name) with
    problem | ⟨count, between⟩
  · exact recordsCopy.bind_error (by rw [run_copyContent, copies])
  · exact recordsCopy.bind (by rw [run_copyContent, copies]) (records_pure () between)

variable {copyBelow plainBelow target} (isTree : system.IsTree)
  (goesOn : ∀ between : FileSystem, between.IsTree → TakesCourse (.entries source target names)
    (names.forM (copyEntry copyBelow source target))
    (names.forM (copyEntry plainBelow source target)) between)

include isTree goesOn

theorem takesCourse_cons_of_isDirectory
    (isDirectory : system.isDirectory (join source name) = true)
    (takes : TakesCourse (.tree (join source name) (join target name))
      (copyBelow (join source name) (join target name))
      (plainBelow (join source name) (join target name)) system) :
    TakesCourse (.entries source target (name :: names))
      ((name :: names).forM (copyEntry copyBelow source target))
      ((name :: names).forM (copyEntry plainBelow source target)) system := by
  change TakesCourse _ (copyEntry copyBelow source target name >>= fun _ => _)
    (copyEntry plainBelow source target name >>= fun _ => _) system
  obtain ⟨visited, course, records⟩ := takes
  have recordsEntry :=
    records_copyEntry_of_isDirectory copyBelow plainBelow target isDirectory records
  have ranEntry := run_copyEntry_of_isDirectory plainBelow target isDirectory
  rcases ran : (plainBelow (join source name) (join target name)).run.run system with
    ⟨error | _, between⟩
  · rw [ran] at course ranEntry
    refine ⟨visited, ?_, recordsEntry.bind_error ranEntry⟩
    rw [run_bind, ranEntry]
    exact .fails isDirectory course
  · rw [ran] at course ranEntry
    obtain ⟨more, courseOn, recordsMore⟩ := goesOn between (course.growsAsTree.isTree isTree)
    refine ⟨visited ++ more, ?_, recordsEntry.bind ranEntry recordsMore⟩
    rw [run_bind, ranEntry]
    exact .enters isDirectory course courseOn

theorem takesCourse_cons_of_notDirectory
    (notDirectory : system.isDirectory (join source name) = false) :
    TakesCourse (.entries source target (name :: names))
      ((name :: names).forM (copyEntry copyBelow source target))
      ((name :: names).forM (copyEntry plainBelow source target)) system := by
  change TakesCourse _ (copyEntry copyBelow source target name >>= fun _ => _)
    (copyEntry plainBelow source target name >>= fun _ => _) system
  have recordsEntry :=
    records_copyEntry_of_notDirectory copyBelow plainBelow target notDirectory
  have ranEntry := run_copyEntry_of_notDirectory plainBelow target notDirectory
  rcases copies : system.copyFile (join source name) (join target name) with
    problem | ⟨count, between⟩
  · rw [copies] at ranEntry
    refine ⟨[], ?_, recordsEntry.bind_error ranEntry⟩
    rw [run_bind, ranEntry]
    exact .refused notDirectory copies
  · rw [copies] at ranEntry
    obtain ⟨more, courseOn, recordsMore⟩ :=
      goesOn between ((growsAsTree_copyFile copies).isTree isTree)
    refine ⟨more, ?_, recordsEntry.bind ranEntry recordsMore⟩
    rw [run_bind, ranEntry]
    exact .copies notDirectory copies courseOn

end Entry

theorem takesCourse_entries
    {copyBelow : String → String → VisitM Unit}
    {plainBelow : String → String → FileM Unit}
    (takes : ∀ name ∈ names, ∀ system : FileSystem, system.IsTree →
      system.isDirectory (join source name) = true →
      TakesCourse (.tree (join source name) (join target name))
        (copyBelow (join source name) (join target name))
        (plainBelow (join source name) (join target name)) system)
    (isTree : system.IsTree) :
    TakesCourse (.entries source target names)
      (names.forM (copyEntry copyBelow source target))
      (names.forM (copyEntry plainBelow source target)) system := by
  induction names generalizing system with
  | nil => exact ⟨[], .done, records_pure () system⟩
  | cons name names inductionHypothesis =>
      have goesOn (between : FileSystem) := @inductionHypothesis between
        fun name isListed => takes name (List.mem_cons_of_mem _ isListed)
      cases isDirectory : system.isDirectory (join source name) with
      | true =>
          exact takesCourse_cons_of_isDirectory isTree goesOn isDirectory
            (takes name (by simp) system isTree isDirectory)
      | false => exact takesCourse_cons_of_notDirectory isTree goesOn isDirectory

/-- What is done after the target has been made. -/
theorem takesCourse_of_made
    {made : FileSystem}
    {reading : Reading}
    {action : List String → VisitM Unit}
    {plain : List String → FileM Unit}
    (isReading : IsReading reading)
    (makes : system.makeDirectories pathLimit target = (.ok (), made))
    (takes : ∀ location names, made.directoryAt source = .ok location →
      names.Perm (made.names location) →
      TakesCourse (.entries source target names) (action names) (plain names) made) :
    TakesCourse (.tree source target)
      (liftM (makeDirectory target) >>= fun _ => namesVisiting reading source >>= action)
      (makeDirectory target >>= fun _ => namesIn reading source >>= plain) system := by
  have recordsMade := records_lift (makeDirectory target) system
  have ranMade : (makeDirectory target).run.run system = (.ok (), made) := by
    rw [run_makeDirectory, makes]
    rfl
  rcases isReading.cases made source with
    ⟨location, names, isAt, perm, ran, recordsRead⟩ | ⟨problem, isMissing, ran, recordsRead⟩
  · obtain ⟨visited, courseOn, recordsOn⟩ := takes location names isAt perm
    refine ⟨location :: visited, ?_, recordsMade.bind ranMade (recordsRead.bind ran recordsOn)⟩
    rw [run_bind, ranMade]
    dsimp only
    rw [run_bind, ran]
    exact .reads makes isAt perm courseOn
  · refine ⟨[], ?_, recordsMade.bind ranMade (recordsRead.bind_error ran)⟩
    rw [run_bind, ranMade]
    dsimp only
    rw [run_bind, ran]
    exact .unread makes isMissing

theorem takesCourse_copyTree_succ
    {reading : Reading}
    {depth : Nat}
    (isReading : IsReading reading)
    (isTree : system.IsTree)
    (takes : ∀ name, IsName name → ∀ system : FileSystem, system.IsTree →
      system.isDirectory (join source name) = true →
      TakesCourse (.tree (join source name) (join target name))
        (copyTree (namesVisiting reading) depth (join source name) (join target name))
        (copyTree (namesIn reading) depth (join source name) (join target name)) system) :
    TakesCourse (.tree source target)
      (copyTree (namesVisiting reading) (depth + 1) source target)
      (copyTree (namesIn reading) (depth + 1) source target) system := by
  change TakesCourse _ (liftM (makeDirectory target) >>= fun _ => _)
    (makeDirectory target >>= fun _ => _) system
  rcases makes : system.makeDirectories pathLimit target with ⟨problem | _, made⟩
  · have ranMade : (makeDirectory target).run.run system =
        (.error ⟨"failed to create", target, problem⟩, made) := by
      rw [run_makeDirectory, makes]
      rfl
    refine ⟨[], ?_, (records_lift (makeDirectory target) system).bind_error ranMade⟩
    rw [run_bind, ranMade]
    exact .unmade makes
  · have isTreeMade := (growsAsTree_of_makeDirectories makes).isTree isTree
    refine takesCourse_of_made isReading makes fun location names isAt perm => ?_
    refine takesCourse_entries (fun name isListed => takes name ?_) isTreeMade
    exact isTreeMade.isName_of_holds ⟨location, isAt, perm.mem_iff.mp isListed⟩

/-- The copy of a tree takes a course. Names make a path longer, and no path that is too long leads
to a directory, so its depth never ends it. -/
theorem takesCourse_copyTree
    {reading : Reading}
    (isReading : IsReading reading)
    (isTree : system.IsTree)
    (depth : Nat)
    (isDeep : pathLimit ≤ source.utf8ByteSize + depth) :
    TakesCourse (.tree source target)
      (copyTree (namesVisiting reading) (depth + 1) source target)
      (copyTree (namesIn reading) (depth + 1) source target) system := by
  induction depth generalizing source target system with
  | zero =>
      refine takesCourse_copyTree_succ isReading isTree
        fun name isName system isTree isDirectory => ?_
      have isLonger := @utf8ByteSize_join source name isName
      have isShort := isShort_of_isDirectory isDirectory
      omega
  | succ depth inductionHypothesis =>
      refine takesCourse_copyTree_succ isReading isTree
        fun name isName system isTree isDirectory => inductionHypothesis isTree ?_
      have isLonger := @utf8ByteSize_join source name isName
      omega

/-- The copy of a directory that has a name takes a course. -/
theorem takesCourse_copyDirectoryWith
    {reading : Reading}
    {name : String}
    (isReading : IsReading reading)
    (isTree : system.IsTree)
    (isName : fileName? source = some name) :
    TakesCourse (.tree source (join target name))
      (copyDirectoryWith (namesVisiting reading) source target)
      (copyDirectoryWith (namesIn reading) source target) system := by
  have isLong : source.utf8ByteSize ≠ 0 := by
    rw [ne_eq, String.utf8ByteSize_eq_zero_iff]
    rintro rfl
    cases isName
  rw [copyDirectoryWith, copyDirectoryWith, isName]
  refine takesCourse_copyTree isReading isTree (pathLimit - 1) ?_
  omega

end Files
end ScriptHost
