import ScriptHost.Proofs.FileSystem.Trees

/-!
# What requests change

To make a directory puts one where nothing stood. To copy a file puts its content where a file
or nothing stood, or empties it if that is where it stands itself. Both leave a file system that
has grown.
-/

namespace ScriptHost
namespace FileSystem

variable {before after system : FileSystem} {path source target : String}
  {location origin place : Location}

/-! ## Making directories -/

/-- A directory that is made stands where its path ends, where nothing stood before. -/
theorem exists_put_of_makeDirectory (makes : system.makeDirectory path = .ok after) :
    ∃ directory name slash, system.walk .place path = .ok (.entry directory name slash) ∧
      ¬longestName < name.utf8ByteSize ∧ system.node? (directory ++ [name]) = none ∧
      after = system.put (directory ++ [name]) .directory := by
  rw [makeDirectory, bind_eq_ok_iff] at makes
  obtain ⟨goal, walks, makes⟩ := makes
  cases goal with
  | entry directory name slash =>
      obtain ⟨node?, isNode, makes⟩ := bind_eq_ok_iff.mp makes
      cases node? with
      | some node => cases makes
      | none =>
          rw [lookUp] at isNode
          split_ifs at isNode with isLong
          exact ⟨directory, name, slash, walks, isLong, Except.ok.inj isNode,
            (Except.ok.inj makes).symm⟩
  | _ => cases makes

/-- What has grown, and is a tree if it was one. -/
structure GrowsAsTree (before after : FileSystem) : Prop where
  grows : Grows before after
  isTree : before.IsTree → after.IsTree

theorem GrowsAsTree.refl (system : FileSystem) : GrowsAsTree system system :=
  ⟨.refl system, id⟩

theorem GrowsAsTree.trans
    {between : FileSystem}
    (first : GrowsAsTree before between)
    (second : GrowsAsTree between after) :
    GrowsAsTree before after :=
  ⟨first.grows.trans second.grows, second.isTree ∘ first.isTree⟩

/-- A node that is put where a walk ends. -/
theorem growsAsTree_put
    {purpose : Purpose}
    {directory : Location}
    {name : String}
    {slash : Bool}
    {node : Node}
    (walks : system.walk purpose path = .ok (.entry directory name slash))
    (nodeGrows : NodeGrows (system.node? (directory ++ [name])) (some node)) :
    GrowsAsTree system (system.put (directory ++ [name]) node) where
  grows := grows_put nodeGrows
  isTree isTree := isTree.put (grows_put nodeGrows) (isTree.isProper_of_walk walks).1
    (isTree.isProper_of_walk walks).2

/-- A file system grows as a tree when a directory is made. -/
theorem growsAsTree_makeDirectory (makes : system.makeDirectory path = .ok after) :
    GrowsAsTree system after := by
  obtain ⟨directory, name, slash, walks, -, isNone, rfl⟩ := exists_put_of_makeDirectory makes
  exact growsAsTree_put walks (isNone ▸ .made)

section Directories

variable {relates : FileSystem → FileSystem → Prop} (refl : ∀ system, relates system system)
  (trans : ∀ {first second third}, relates first second → relates second third →
    relates first third)
  (make : ∀ {system after path}, system.makeDirectory path = .ok after → relates system after)

include refl make in
/-- What a directory that is made does to a file system, making the last one of a path does. -/
theorem relates_makeLastDirectory (system : FileSystem) (path : String) :
    relates system (system.makeLastDirectory path).2 := by
  rw [makeLastDirectory]
  split
  next makes => exact make makes
  next => split <;> exact refl system

include refl trans make in
/-- What each directory that is made does to a file system, making all of them does. -/
theorem relates_makeDirectories
    (depth : Nat)
    (system : FileSystem)
    (path : String) :
    relates system (system.makeDirectories depth path).2 := by
  induction depth generalizing path with
  | zero => exact refl system
  | succ depth inductionHypothesis =>
      rw [makeDirectories]
      split
      next => exact refl system
      next =>
        split
        next makes => exact make makes
        next =>
          split
          next => exact refl system
          next parent _ =>
            have relatesAbove := inductionHypothesis parent
            split
            next made =>
              rw [made] at relatesAbove
              exact trans relatesAbove (relates_makeLastDirectory refl make ..)
            next made =>
              rw [made] at relatesAbove
              exact relatesAbove
        next => split <;> exact refl system

end Directories

/-- A file system grows as a tree when the directories of a path are made. -/
theorem growsAsTree_of_makeDirectories
    {depth : Nat}
    {result : Except SystemError Unit}
    (makes : system.makeDirectories depth path = (result, after)) :
    GrowsAsTree system after := by
  have growsAsTree := relates_makeDirectories .refl .trans growsAsTree_makeDirectory depth system
    path
  rwa [makes] at growsAsTree

/-- To make directories leaves what stands anywhere. -/
theorem node?_of_makeDirectories
    {depth : Nat}
    {result : Except SystemError Unit}
    {node : Node}
    (makes : system.makeDirectories depth path = (result, after))
    (stands : system.node? location = some node) :
    after.node? location = some node := by
  have make {system after : FileSystem} {path : String}
      (makes : system.makeDirectory path = .ok after)
      (stands : system.node? location = some node) :
      after.node? location = some node := by
    obtain ⟨directory, name, -, -, -, isNone, rfl⟩ := exists_put_of_makeDirectory makes
    have isOther : location ≠ directory ++ [name] := by
      rintro rfl
      rw [isNone] at stands
      cases stands
    exact (node?_put_of_ne isOther).trans stands
  have leaves := @relates_makeDirectories
    (fun before after => before.node? location = some node → after.node? location = some node)
    (fun _ => id) (fun first second => second ∘ first) make depth system path
  rw [makes] at leaves
  exact leaves stands

/-! ## Copying files -/

/-- What is put somewhere last is what stands there. -/
theorem put_put
    (system : FileSystem)
    (location : Location)
    (first second : Node) :
    (system.put location first).put location second = system.put location second := by
  simp [put]

/-- What a copy writes: the content of the file, or nothing if it is written where the file
stands. -/
def copiedContent
    (system : FileSystem)
    (origin place : Location) : Bytes :=
  if origin = place then [] else system.contentAt origin

/-- The content at a file is that of the file. -/
theorem contentAt_of_file
    {content : Bytes}
    (isFile : system.node? location = some (.file content)) :
    system.contentAt location = content := by
  rw [contentAt, isFile]

theorem contentAt_put_self
    (system : FileSystem)
    (directory : Location)
    (name : String)
    (content : Bytes) :
    (system.put (directory ++ [name]) (.file content)).contentAt (directory ++ [name]) =
      content :=
  contentAt_of_file (node?_put_self ..)

/-- What is put elsewhere does not change the content. -/
theorem contentAt_put_of_ne
    {node : Node}
    (isOther : origin ≠ place) :
    (system.put place node).contentAt origin = system.contentAt origin := by
  rw [contentAt, node?_put_of_ne isOther, contentAt]

/-- A file can be written where a file or nothing stands, and there the path leads to. -/
theorem exists_place_of_writable (isWritable : system.writable path = .ok place) :
    ∃ directory name, directory ++ [name] = place ∧
      system.walk .follow path = .ok (.entry directory name false) ∧
      ∀ content, NodeGrows (system.node? place) (some (.file content)) := by
  obtain ⟨directory, name, slash, rfl, walks, noDirectory⟩ := exists_walk_of_writable isWritable
  obtain ⟨isPlace, -⟩ := findsAgain_walk [] noDirectory walks
  obtain rfl := isPlace.noSlash
  refine ⟨directory, name, rfl, walk_follow_of_create walks, fun content => ?_⟩
  rcases isNode : system.node? (directory ++ [name]) with _ | old | _ | link
  · exact .created content
  · exact .rewritten old content
  · exact (noDirectory isNode).elim
  · exact (isPlace.noLink link isNode).elim

/-- Copying to another place copies what the file holds. -/
theorem copiedContent_of_ne
    {content : Bytes}
    (isOther : origin ≠ place)
    (isFile : system.node? origin = some (.file content)) :
    system.copiedContent origin place = content := by
  rw [copiedContent, if_neg isOther, contentAt_of_file isFile]

/-- A file is copied if its source is a file and its target can be written. -/
theorem copyFile_eq_ok_iff {count : Nat} :
    system.copyFile source target = .ok (count, after) ↔
      ∃ origin place, system.fileAt source = .ok origin ∧ system.writable target = .ok place ∧
        count = (system.copiedContent origin place).length ∧
        after = system.put place (.file (system.copiedContent origin place)) := by
  have isCopied (origin place : Location) (isPlace : system.writable target = .ok place) :
      (system.put place (.file [])).contentAt origin = system.copiedContent origin place := by
    obtain ⟨directory, name, rfl, -⟩ := exists_place_of_writable isPlace
    rw [copiedContent]
    split_ifs with isSame
    · rw [isSame, contentAt_put_self]
    · exact contentAt_put_of_ne isSame
  simp only [copyFile, bind_eq_ok_iff, fileAt_eq_ok_iff]
  constructor
  · rintro ⟨goal, walks, node, finds, copies⟩
    cases node with
    | file content =>
        obtain ⟨directory, name, rfl, isFile⟩ := find_eq_file_iff.mp finds
        obtain ⟨place, isPlace, copies⟩ := bind_eq_ok_iff.mp copies
        rw [isCopied _ _ isPlace, put_put] at copies
        cases copies
        exact ⟨_, place, ⟨directory, name, content, walks, isFile, rfl⟩, isPlace, rfl, rfl⟩
    | _ => cases copies
  · rintro ⟨_, place, ⟨directory, name, content, walks, isFile, rfl⟩, isPlace, rfl, rfl⟩
    refine ⟨_, walks, .file content, find_eq_file_iff.mpr ⟨directory, name, rfl, isFile⟩, ?_⟩
    refine bind_eq_ok_iff.mpr ⟨place, isPlace, ?_⟩
    rw [isCopied _ _ isPlace, put_put]
    rfl

/-- A file system grows as a tree when a file is copied. -/
theorem growsAsTree_copyFile
    {count : Nat}
    (copies : system.copyFile source target = .ok (count, after)) :
    GrowsAsTree system after := by
  obtain ⟨origin, place, -, isPlace, -, rfl⟩ := copyFile_eq_ok_iff.mp copies
  obtain ⟨directory, name, rfl, walks, nodeGrows⟩ := exists_place_of_writable isPlace
  exact growsAsTree_put walks (nodeGrows _)

/-- A path that can be written leads to what has been written. -/
theorem fileAt_put_of_writable
    (content : Bytes)
    (isWritable : system.writable path = .ok place) :
    (system.put place (.file content)).fileAt path = .ok place ∧
      (system.put place (.file content)).node? place = some (.file content) := by
  obtain ⟨directory, name, rfl, walks, nodeGrows⟩ := exists_place_of_writable isWritable
  have isWritten := node?_put_self system directory name (.file content)
  refine ⟨?_, isWritten⟩
  rw [fileAt_eq_ok_iff]
  exact ⟨directory, name, content, (grows_put (nodeGrows content)).walk walks, isWritten, rfl⟩

end FileSystem
end ScriptHost
