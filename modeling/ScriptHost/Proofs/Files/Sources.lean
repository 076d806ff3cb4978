import ScriptHost.Proofs.FileSystem.Descent
import ScriptHost.Proofs.Files.Courses
import ScriptHost.Proofs.Files.Existing

/-!
# Sources of copies

A copy reads its source and writes elsewhere, unless links or paths lead it back: then it may empty
a file that it copies onto itself, or write over another one of its source. Where no file of the
source is written over, the source stays as it was, and where moreover no two files are written to
one place, a copy that is done holds what its source holds. Both are so where the copy has made the
directory that it goes to.
-/

namespace ScriptHost
namespace Files

open FileSystem ScriptHost.Path

variable {source target : String} {start system copied final after : FileSystem}
  {names way : List String} {visited : List Location} {result : Except FileError Unit}
  {task : Task} {origin place : Location}

theorem exists_content_of_fileAt
    {path : String}
    (isAt : system.fileAt path = .ok place) :
    ∃ content, system.node? place = some (.file content) := by
  obtain ⟨directory, name, content, -, isFile, rfl⟩ := fileAt_eq_ok_iff.mp isAt
  exact ⟨content, isFile⟩

/-- A way that leads from a directory down to a file. -/
structure FileBelow
    (system : FileSystem)
    (base : String)
    (way : List String)
    (place : Location) : Prop where
  isWay : system.IsWay base way
  isAt : system.fileAt (descend base way) = .ok place

theorem FileBelow.grows
    (isFile : FileBelow system source way place)
    (grows : Grows system after) :
    FileBelow after source way place :=
  ⟨grows.isWay isFile.isWay, grows.fileAt isFile.isAt⟩

/-- A way that leads to a file goes on where it has come to a directory. -/
theorem FileBelow.exists_name
    {rest : List String}
    (isFile : FileBelow start source (names ++ rest) origin)
    (grows : Grows start system)
    (isAt : system.directoryAt (descend source names) = .ok place) :
    ∃ name ∈ system.names place, ∃ more, rest = name :: more := by
  cases rest with
  | nil =>
      have notDirectory := isDirectory_of_fileAt (grows.fileAt isFile.isAt)
      rw [List.append_nil, isDirectory_iff.mpr ⟨_, isAt⟩] at notDirectory
      cases notDirectory
  | cons name more =>
      obtain ⟨location, isPlace, isName⟩ := grows.holds (isWay_append.mp isFile.isWay).2.1
      rw [isAt] at isPlace
      cases isPlace
      exact ⟨name, isName, more, rfl⟩

/-- A way that leads to a file ends where it has come to something else than a directory. -/
theorem FileBelow.eq_nil
    {rest : List String}
    (isFile : FileBelow start source (names ++ rest) origin)
    (grows : Grows start system)
    (notDirectory : system.isDirectory (descend source names) = false) :
    rest = [] := by
  cases rest with
  | nil => rfl
  | cons name rest =>
      have isDirectory := grows.isDirectory (isDirectory_of_isWay isFile.isWay)
      rw [notDirectory] at isDirectory
      cases isDirectory

/-- No file of the source is written over: where the copy of a file lies, none lay before. -/
def SparesSource
    (start final : FileSystem)
    (source target : String) : Prop :=
  ∀ way origin place other, FileBelow final source way origin →
    final.fileAt (descend target way) = .ok place → ¬FileBelow start source other place

/-- No two files are written to one place. -/
def SeparatesCopies
    (final : FileSystem)
    (source target : String) : Prop :=
  ∀ way other origin otherOrigin place, FileBelow final source way origin →
    FileBelow final source other otherOrigin →
    final.fileAt (descend target way) = .ok place →
    final.fileAt (descend target other) = .ok place → origin = otherOrigin

/-- A file of the source has been copied. -/
def IsCopied
    (final : FileSystem)
    (target : String)
    (system : FileSystem)
    (way : List String)
    (origin : Location) : Prop :=
  ∃ place content, final.fileAt (descend target way) = .ok place ∧
    system.node? origin = some (.file content) ∧ system.node? place = some (.file content)

/-! ## New targets -/

section New

variable (isTree : start.IsTree) (isTreeAfter : final.IsTree) (grows : Grows start final)
  (isAt : final.directoryAt target = .ok place) (isNew : start.node? place = none)

include isTree isTreeAfter grows isAt isNew

/-- Below a new target every copy lies by the names of its way. -/
theorem FileBelow.eq_of_new
    {copy : Location}
    (isFile : FileBelow final source way origin)
    (isCopy : final.fileAt (descend target way) = .ok copy) :
    copy = place ++ way :=
  eq_of_fileAt_descend (fun _ => isTreeAfter.isName_of_isWay isFile.isWay) isAt
    (grows.noLinksAt isTree isNew) isCopy

theorem sparesSource_of_new : SparesSource start final source target := by
  intro way origin copy other isFile isCopy isFileBefore
  obtain ⟨content, isContent⟩ := exists_content_of_fileAt isFileBefore.isAt
  rw [isFile.eq_of_new isTree isTreeAfter grows isAt isNew isCopy, isTree.node?_append isNew]
    at isContent
  cases isContent

theorem separatesCopies_of_new : SeparatesCopies final source target := by
  intro way other origin otherOrigin copy isFile isFileToo isCopy isCopyToo
  have isHere := isFile.eq_of_new isTree isTreeAfter grows isAt isNew isCopy
  rw [isFileToo.eq_of_new isTree isTreeAfter grows isAt isNew isCopyToo,
    List.append_right_inj] at isHere
  subst isHere
  exact Except.ok.inj (isFile.isAt.symm.trans isFileToo.isAt)

end New

/-! ## One file -/

/-- What one copy writes, and where the ways of what comes of it lead. -/
theorem exists_of_copyFile
    {count : Nat}
    (isWay : final.IsWay source way)
    (grows : Grows copied final)
    (copies : system.copyFile (descend source way) (descend target way) = .ok (count, copied)) :
    ∃ origin place, FileBelow final source way origin ∧
      final.fileAt (descend target way) = .ok place ∧
      system.fileAt (descend source way) = .ok origin ∧
      copied = system.put place (.file (system.copiedContent origin place)) ∧
      copied.node? place = some (.file (system.copiedContent origin place)) := by
  have growsCopied := (growsAsTree_copyFile copies).grows
  obtain ⟨origin, place, isOrigin, isPlace, -, rfl⟩ := copyFile_eq_ok_iff.mp copies
  obtain ⟨isAt, isWritten⟩ := fileAt_put_of_writable (system.copiedContent origin place) isPlace
  exact ⟨origin, place, ⟨isWay, grows.fileAt (growsCopied.fileAt isOrigin)⟩, grows.fileAt isAt,
    isOrigin, rfl, isWritten⟩

/-- A copy that goes where no file of the source lay leaves what it has copied there. -/
theorem isCopied_of_copyFile
    {count : Nat}
    (growsFrom : Grows start system)
    (grows : Grows copied final)
    (spares : SparesSource start final source target)
    (copies : system.copyFile (descend source way) (descend target way) = .ok (count, copied))
    (isFile : FileBelow start source way origin) :
    IsCopied final target copied way origin := by
  have growsCopied := (growsAsTree_copyFile copies).grows
  have isWay := (isFile.grows (growsFrom.trans (growsCopied.trans grows))).isWay
  obtain ⟨other, place, isCopy, isAt, isOther, rfl, isWritten⟩ :=
    exists_of_copyFile isWay grows copies
  have isAtOrigin := growsFrom.fileAt isFile.isAt
  obtain rfl : origin = other := by
    rw [isAtOrigin] at isOther
    exact Except.ok.inj isOther
  have notPlace : origin ≠ place := by
    rintro rfl
    exact spares _ _ _ _ isCopy isAt isFile
  obtain ⟨content, isContent⟩ := exists_content_of_fileAt isAtOrigin
  rw [copiedContent_of_ne notPlace isContent] at isWritten ⊢
  exact ⟨place, content, isAt, (node?_put_of_ne notPlace).trans isContent, isWritten⟩

/-! ## The course of a copy -/

section Course

variable (course : Course task system visited result after)
  (liesAt : task.LiesAt source target final names) (growsFrom : Grows start system)
  (grows : Grows after final) (isTree : system.IsTree)

include course liesAt growsFrom grows isTree

/-- What comes to hold when a file of the source is copied, and then goes on to hold, holds where
the copy is done. -/
theorem holds_of_done
    {holds : FileSystem → Prop}
    (makes : ∀ {system made path result}, Grows start system →
      system.makeDirectories pathLimit path = (result, made) → holds system → holds made)
    (copies : ∀ {system copied way count}, final.IsWay source way → Grows start system →
      Grows copied final →
      system.copyFile (descend source way) (descend target way) = .ok (count, copied) →
      holds system → holds copied)
    (begins : ∀ {system copied count}, Grows start system → Grows copied final →
      system.copyFile (descend source way) (descend target way) = .ok (count, copied) →
      holds copied)
    (isFile : FileBelow start source way origin)
    (isCovered : task.Covers names way)
    (isDone : result = .ok ()) :
    holds after := by
  have goesOnToHold {task : Task} {names : List String} {system after : FileSystem}
      {visited : List Location} {result : Except FileError Unit}
      (course : Course task system visited result after)
      (liesAt : task.LiesAt source target final names)
      (growsFrom : Grows start system)
      (grows : Grows after final)
      (isTree : system.IsTree) :
      holds system → holds after :=
    course.relates (fun before after => holds before → holds after) liesAt growsFrom grows
      isTree (fun _ => id) (fun first second => second ∘ first) (fun _ => makes) copies
  induction course generalizing names with
  | unmade => cases isDone
  | unread => cases isDone
  | reads makes isAt perm goesOn inductionHypothesis =>
      have growsMade := growsAsTree_of_makeDirectories makes
      have isTreeMade := growsMade.isTree isTree
      have growsOn := goesOn.growsAsTree.grows.trans grows
      have growsStart := growsFrom.trans growsMade.grows
      refine inductionHypothesis (liesAt.read growsOn isTreeMade isAt perm) growsStart grows
        isTreeMade ?_ isDone
      obtain ⟨rfl, -, -⟩ := liesAt
      obtain ⟨rest, rfl⟩ := isCovered
      obtain ⟨name, isName, more, rfl⟩ := isFile.exists_name growsStart isAt
      exact ⟨name, perm.mem_iff.mpr isName, more, by simp⟩
  | done =>
      obtain ⟨name, isListed, -⟩ := isCovered
      cases isListed
  | enters isDirectory goesIn goesOn inHypothesis onHypothesis =>
      have growsIn := goesIn.growsAsTree
      have growsOn := goesOn.growsAsTree.grows.trans grows
      have growsStart := growsFrom.trans growsIn.grows
      have isTreeOn := growsIn.isTree isTree
      rcases covers_cons_iff.mp isCovered with isBelow | isCovered
      · exact goesOnToHold goesOn liesAt.rest growsStart grows isTreeOn
          (inHypothesis liesAt.entry growsFrom growsOn isTree isBelow rfl)
      · exact onHypothesis liesAt.rest growsStart grows isTreeOn isCovered isDone
  | fails => cases isDone
  | copies notDirectory copied goesOn onHypothesis =>
      have growsCopied := growsAsTree_copyFile copied
      have growsOn := goesOn.growsAsTree.grows.trans grows
      have growsStart := growsFrom.trans growsCopied.grows
      have isTreeOn := growsCopied.isTree isTree
      rcases covers_cons_iff.mp isCovered with ⟨rest, rfl⟩ | isCovered
      · obtain ⟨isOrigin, isCopy, -⟩ := liesAt.entry
        rw [isOrigin, isCopy] at copied
        rw [isOrigin] at notDirectory
        obtain rfl := isFile.eq_nil growsFrom notDirectory
        rw [List.append_nil] at begins
        exact goesOnToHold goesOn liesAt.rest growsStart grows isTreeOn
          (begins growsFrom growsOn copied)
      · exact onHypothesis liesAt.rest growsStart grows isTreeOn isCovered isDone
  | refused => cases isDone

/-- Where no file of the source is written over, they stay as they are. -/
theorem node?_of_course
    (spares : SparesSource start final source target)
    (isFile : FileBelow start source way place) :
    after.node? place = system.node? place := by
  refine course.relates (fun before after => after.node? place = before.node? place) liesAt
    growsFrom grows isTree (fun _ => rfl) (fun first second => second.trans first)
    (fun _ growsFrom makes => ?_) (fun isWay growsFrom growsOn copies => ?_)
  · obtain ⟨content, isContent⟩ := exists_content_of_fileAt (isFile.grows growsFrom).isAt
    rw [node?_of_makeDirectories makes isContent, isContent]
  · obtain ⟨origin, written, isCopy, isAt, -, rfl, -⟩ := exists_of_copyFile isWay growsOn copies
    refine node?_put_of_ne ?_
    rintro rfl
    exact spares _ _ _ _ isCopy isAt isFile

/-- Where moreover no two files are written to one place, every file of the source has been copied
when the copy is done. -/
theorem isCopied_of_done
    (spares : SparesSource start final source target)
    (separates : SeparatesCopies final source target)
    (isFile : FileBelow start source way origin)
    (isCovered : task.Covers names way)
    (isDone : result = .ok ()) :
    IsCopied final target after way origin := by
  refine holds_of_done course liesAt growsFrom grows isTree (fun growsFrom makes => ?_)
    (fun isWay growsFrom growsOn copies => ?_)
    (fun growsFrom growsOn copies => isCopied_of_copyFile growsFrom growsOn spares copies isFile)
    isFile isCovered isDone
  · rintro ⟨place, content, isPlace, isOrigin, isWritten⟩
    exact ⟨place, content, isPlace, node?_of_makeDirectories makes isOrigin,
      node?_of_makeDirectories makes isWritten⟩
  · rintro ⟨place, content, isPlace, isOrigin, isWritten⟩
    have growsAll := growsFrom.trans ((growsAsTree_copyFile copies).grows.trans growsOn)
    obtain ⟨other, written, isCopy, isAt, isOther, rfl, isNew⟩ :=
      exists_of_copyFile isWay growsOn copies
    have notOrigin : origin ≠ written := by
      rintro rfl
      exact spares _ _ _ _ isCopy isAt isFile
    refine ⟨place, content, isPlace, (node?_put_of_ne notOrigin).trans isOrigin, ?_⟩
    by_cases isSame : place = written
    · -- Both copies lie at one place, so it is the same file that is written again.
      subst isSame
      obtain rfl : origin = other := separates _ _ _ _ _ (isFile.grows growsAll) isCopy isPlace isAt
      rwa [copiedContent_of_ne notOrigin isOrigin] at isNew ⊢
    · exact (node?_put_of_ne isSame).trans isWritten

/-- A file of the source that was copied onto itself is empty when the copy is done. -/
theorem isEmptied_of_done
    (separates : SeparatesCopies final source target)
    (isFile : FileBelow start source way origin)
    (isAt : final.fileAt (descend target way) = .ok origin)
    (isCovered : task.Covers names way)
    (isDone : result = .ok ()) :
    after.node? origin = some (.file []) := by
  have emptied {system copied : FileSystem} {other : List String} {count : Nat}
      (isWay : final.IsWay source other)
      (growsFrom : Grows start system)
      (growsOn : Grows copied final)
      (copies : system.copyFile (descend source other) (descend target other) =
        .ok (count, copied))
      (isHere : final.fileAt (descend target other) = .ok origin) :
      copied.node? origin = some (.file []) := by
    have growsAll := growsFrom.trans ((growsAsTree_copyFile copies).grows.trans growsOn)
    obtain ⟨another, written, isCopy, isWritten, -, -, isNew⟩ :=
      exists_of_copyFile isWay growsOn copies
    obtain rfl := Except.ok.inj (isWritten.symm.trans isHere)
    obtain rfl := separates _ _ _ _ _ (isFile.grows growsAll) isCopy isAt isHere
    rwa [copiedContent, if_pos rfl] at isNew
  refine holds_of_done course liesAt growsFrom grows isTree
    (fun _ makes isEmpty => node?_of_makeDirectories makes isEmpty)
    (fun isWay growsFrom growsOn copies isEmpty => ?_)
    (fun growsFrom growsOn copies => ?_) isFile isCovered isDone
  · obtain ⟨another, written, -, isWritten, -, rfl, -⟩ := exists_of_copyFile isWay growsOn copies
    by_cases isSame : origin = written
    · exact emptied isWay growsFrom growsOn copies (isSame ▸ isWritten)
    · exact (node?_put_of_ne isSame).trans isEmpty
  · have growsAll := growsFrom.trans ((growsAsTree_copyFile copies).grows.trans growsOn)
    exact emptied (isFile.grows growsAll).isWay growsFrom growsOn copies isAt

end Course

/-! ## What stays of the source -/

/-- A file reads as it did before it was copied, and if the copy is done so does its target. -/
structure KeepsFile
    (content : Bytes)
    (after : FileSystem)
    (isDone : Prop)
    (source target : String) : Prop where
  stays : after.readFile source = .ok content
  arrives : isDone → after.readFile target = .ok content

/-- What comes of the files below the source of a copy, and of their copies below the target. -/
structure KeepsFiles
    (before after : FileSystem)
    (isDone : Prop)
    (source target : String) : Prop where
  /-- Where no file of the source is written over, each one reads as before. -/
  stays : SparesSource before after source target → ∀ way content, before.IsWay source way →
    before.readFile (descend source way) = .ok content →
    after.readFile (descend source way) = .ok content
  /-- Where moreover no two are written to one place, a copy that is done reads as they do. -/
  arrives : SparesSource before after source target → SeparatesCopies after source target →
    isDone → ∀ way content, before.IsWay source way →
    before.readFile (descend source way) = .ok content →
    after.readFile (descend target way) = .ok content
  /-- In a directory that was made for it, a copy writes over nothing and to different places. -/
  isApart : ∀ place, after.directoryAt target = .ok place → before.node? place = none →
    SparesSource before after source target ∧ SeparatesCopies after source target
  /-- A file is empty when it was copied onto itself. -/
  empties : SeparatesCopies after source target → isDone → ∀ way content,
    before.IsWay source way → before.readFile (descend source way) = .ok content →
    after.fileAt (descend target way) = before.fileAt (descend source way) →
    after.readFile (descend source way) = .ok []

theorem keepsFile_put_iff
    {content : Bytes}
    {isDone : Prop}
    (isAt : system.fileAt source = .ok origin)
    (isContent : system.node? origin = some (.file content))
    (isWritable : system.writable target = .ok place) :
    KeepsFile content (system.put place (.file (system.copiedContent origin place))) isDone source
        target ↔ (place = origin → content = []) := by
  have grows := (growsAsTree_copyFile
    (copyFile_eq_ok_iff.mpr ⟨origin, place, isAt, isWritable, rfl, rfl⟩)).grows
  have isAtAfter := grows.fileAt isAt
  obtain ⟨isTarget, isWritten⟩ :=
    fileAt_put_of_writable (system.copiedContent origin place) isWritable
  have targetReads := readFile_eq_ok_iff.mpr ⟨place, isTarget, isWritten⟩
  by_cases isSame : origin = place
  · subst isSame
    rw [copiedContent, if_pos rfl] at *
    have sourceReads := readFile_eq_ok_iff.mpr ⟨origin, isAtAfter, isWritten⟩
    constructor
    · intro keeps _
      exact (Except.ok.inj (sourceReads.symm.trans keeps.stays)).symm
    · intro isEmpty
      rw [isEmpty rfl]
      exact ⟨sourceReads, fun _ => targetReads⟩
  · rw [copiedContent_of_ne isSame isContent] at *
    refine ⟨fun _ isSame' => (isSame isSame'.symm).elim, fun _ => ⟨?_, fun _ => targetReads⟩⟩
    exact readFile_eq_ok_iff.mpr ⟨origin, isAtAfter, (node?_put_of_ne isSame).trans isContent⟩

/-- A file is harmed by a copy if and only if it may be overwritten, is not empty and is copied
onto itself. -/
theorem copy_keepsFile_iff
    {content : Bytes}
    (overwrite : Bool)
    (reads : system.readFile source = .ok content) :
    KeepsFile content ((copy source target overwrite).run.run system).2
        (∃ count, ((copy source target overwrite).run.run system).1 = .ok count) source target ↔
      ¬(overwrite = true ∧ content ≠ [] ∧ system.writable target = system.fileAt source) := by
  obtain ⟨origin, isAt, isContent⟩ := readFile_eq_ok_iff.mp reads
  rw [isAt]
  by_cases isAllowed : overwrite = true ∨ system.leads target = false
  · rw [run_copy_of_allowed isAllowed, run_copyContent]
    cases isWritable : system.writable target with
    | error problem =>
        have refuses : ∀ count after, system.copyFile source target ≠ .ok (count, after) := by
          intro count after copies
          obtain ⟨_, _, -, isPlace, -⟩ := copyFile_eq_ok_iff.mp copies
          rw [isWritable] at isPlace
          cases isPlace
        rcases copies : system.copyFile source target with refused | ⟨count, after⟩
        · exact ⟨fun _ => by simp, fun _ => ⟨reads, by simp⟩⟩
        · exact (refuses count after copies).elim
    | ok place =>
        rw [copyFile_eq_ok_iff.mpr ⟨origin, place, isAt, isWritable, rfl, rfl⟩]
        dsimp only
        rw [keepsFile_put_iff isAt isContent isWritable]
        constructor
        · rintro isEmpty ⟨-, notEmpty, isSame⟩
          exact notEmpty (isEmpty (Except.ok.inj isSame))
        · rintro notHarmed rfl
          by_contra notEmpty
          refine notHarmed ⟨isAllowed.resolve_right fun notLeads => ?_, notEmpty, rfl⟩
          rw [node?_eq_none_of_writable isWritable notLeads] at isContent
          cases isContent
  · rw [not_or, Bool.not_eq_true, Bool.not_eq_false] at isAllowed
    obtain ⟨rfl, leads⟩ := isAllowed
    rw [run_copy_of_leads leads]
    exact ⟨fun _ => by simp, fun _ => ⟨reads, by simp⟩⟩

/-- A copy of a directory keeps the files of its source as far as it spares and separates them. -/
theorem keepsFiles_of_course
    (course : Course (.tree source target) system visited result after)
    (isTree : system.IsTree) :
    KeepsFiles system after (result = .ok ()) source target := by
  have liesAt : (Task.tree source target).LiesAt source target after [] :=
    ⟨rfl, rfl, trivial⟩
  have grows := course.growsAsTree.grows
  have find {way : List String} {content : Bytes} (isWay : system.IsWay source way)
      (reads : system.readFile (descend source way) = .ok content) :
      ∃ origin, FileBelow system source way origin ∧
        after.fileAt (descend source way) = .ok origin ∧
        system.node? origin = some (.file content) := by
    obtain ⟨origin, isAt, isContent⟩ := readFile_eq_ok_iff.mp reads
    exact ⟨origin, ⟨isWay, isAt⟩, grows.fileAt isAt, isContent⟩
  constructor
  · intro spares way content isWay reads
    obtain ⟨origin, isFile, isAt, isContent⟩ := find isWay reads
    refine readFile_eq_ok_iff.mpr ⟨origin, isAt, ?_⟩
    exact (node?_of_course course liesAt (.refl _) (.refl _) isTree spares isFile).trans isContent
  · intro spares separates isDone way content isWay reads
    obtain ⟨origin, isFile, isAt, isContent⟩ := find isWay reads
    obtain ⟨place, copied, isPlace, isOrigin, isCopy⟩ := isCopied_of_done course liesAt (.refl _)
      (.refl _) isTree spares separates isFile List.nil_prefix isDone
    have stays := node?_of_course course liesAt (.refl _) (.refl _) isTree spares isFile
    rw [isOrigin, isContent] at stays
    cases stays
    exact readFile_eq_ok_iff.mpr ⟨place, isPlace, isCopy⟩
  · intro place isPlace isNew
    have isTreeAfter := course.growsAsTree.isTree isTree
    exact ⟨sparesSource_of_new isTree isTreeAfter grows isPlace isNew,
      separatesCopies_of_new isTree isTreeAfter grows isPlace isNew⟩
  · intro separates isDone way content isWay reads isSame
    obtain ⟨origin, isFile, isAt, isContent⟩ := find isWay reads
    rw [isFile.isAt] at isSame
    exact readFile_eq_ok_iff.mpr ⟨origin, isAt, isEmptied_of_done course liesAt (.refl _) (.refl _)
      isTree separates isFile isSame List.nil_prefix isDone⟩

/-- A file is harmed by a copy if and only if the target may be overwritten, the file is not empty
and it is copied onto itself. The files below a directory stay as they are when it is copied if none
of them is written over, whatever comes of the copy; if moreover no two are written to one place and
the copy is done, the target reads as they do. So it is where the copy has made the directory that
it goes to. A file that is copied onto itself is empty when the copy is done. -/
theorem copies_keepSources
    (system : FileSystem)
    (isTree : system.IsTree)
    (source target : String) :
    (∀ overwrite result after, (copy source target overwrite).run.run system = (result, after) →
      ∀ content, system.readFile source = .ok content →
        (KeepsFile content after (∃ count, result = .ok count) source target ↔
          ¬(overwrite = true ∧ content ≠ [] ∧ system.writable target = system.fileAt source))) ∧
    ∀ reading, IsReading reading → ∀ result after,
      (copyDirectoryWith (namesIn reading) source target).run.run system = (result, after) →
        (∀ name, fileName? source = some name →
          KeepsFiles system after (result = .ok ()) source (join target name)) ∧
        (fileName? source = none →
          result = .error ⟨"failed to copy", source, .sourceWithoutName⟩ ∧ after = system) := by
  refine ⟨fun overwrite result after ran content reads => ?_,
    fun reading isReading result after ran => ⟨fun name isName => ?_, fun noName => ?_⟩⟩
  · have keeps := @copy_keepsFile_iff source target system content overwrite reads
    rwa [ran] at keeps
  · obtain ⟨visited, course, -⟩ :=
      @takesCourse_copyDirectoryWith source target system reading name isReading isTree isName
    rw [ran] at course
    exact keepsFiles_of_course course isTree
  · rw [copyDirectoryWith, noName] at ran
    have refused : (.error ⟨"failed to copy", source, .sourceWithoutName⟩, system) =
        (result, after) := ran
    obtain ⟨isError, isSame⟩ := Prod.mk.inj refused
    exact ⟨isError.symm, isSame.symm⟩

/-- A directory with a file, and another directory. -/
def twoDirectories : FileSystem where
  entries := [(["d"], .directory), (["d", "f"], .file [120]), (["e"], .directory)]
  current := []

/-- The first directory has been copied into the other one. -/
def twoDirectoriesCopied : FileSystem where
  entries := [(["e", "d", "f"], .file [120]), (["e", "d"], .directory), (["d"], .directory),
    (["d", "f"], .file [120]), (["e"], .directory)]
  current := []

/-- The copy of a directory into another one keeps its file. -/
theorem twoDirectories_keepSources :
    ((copyDirectory "d" "e").run.run twoDirectories).1 = .ok () ∧
      ((copyDirectory "d" "e").run.run twoDirectories).2.readFile "d/f" = .ok [120] ∧
      ((copyDirectory "d" "e").run.run twoDirectories).2.readFile "e/d/f" = .ok [120] := by
  have ran : (copyDirectory "d" "e").run.run twoDirectories = (.ok (), twoDirectoriesCopied) :=
    Prod.ext (by decide +kernel) (by decide +kernel)
  have isTree : twoDirectories.IsTree := isTree_of_entries (by decide) (by decide) rfl
  have isWay : twoDirectories.IsWay "d" ["f"] := ⟨⟨["d"], rfl, mem_names_iff.mpr rfl⟩, trivial⟩
  have keeps := ((copies_keepSources twoDirectories isTree "d" "e").2 listDirectory
    isReading_listDirectory _ _ ran).1 "d" rfl
  obtain ⟨spares, separates⟩ := keeps.isApart ["e", "d"] rfl rfl
  rw [ran]
  exact ⟨rfl, keeps.stays spares ["f"] _ isWay rfl,
    keeps.arrives spares separates rfl ["f"] _ isWay rfl⟩

/-- The copy of a directory into its own parent empties its files, and so does the copy of a file
onto itself. -/
theorem not_keepsSources_ontoThemselves :
    twoDirectories.readFile "d/f" = .ok [120] ∧
      ((copyDirectory "d" "/").run.run twoDirectories).1 = .ok () ∧
      ((copyDirectory "d" "/").run.run twoDirectories).2.readFile "d/f" = .ok [] ∧
      ((copy "d/f" "d/f" true).run.run twoDirectories).1 = .ok 0 ∧
      ((copy "d/f" "d/f" true).run.run twoDirectories).2.readFile "d/f" = .ok [] := by
  refine ⟨rfl, ?_, ?_, rfl, rfl⟩
  · decide +kernel
  · decide +kernel

end Files
end ScriptHost
