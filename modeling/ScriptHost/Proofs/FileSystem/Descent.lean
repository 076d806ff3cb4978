import ScriptHost.Proofs.FileSystem.Trees

/-!
# Descents

A walk to a name below a path first comes to the directory that the path leads to. So what ways
below a directory lead to, where no links are, lies there by their names.
-/

namespace ScriptHost
namespace FileSystem

variable {before after system : FileSystem} {path name : String} {location place : Location}
  {names way : List String} {goal : Goal} {purpose : Purpose}

/-! ## Walks by a directory -/

/-- A walk that goes on to a further name comes to a directory, from where it takes its last
step. -/
def ComesBy
    (system : FileSystem)
    (purpose : Purpose)
    (name : String)
    (goal : Goal)
    (first : Except SystemError Goal) : Prop :=
  ∃ stop continue?, first = .ok stop ∧ system.find stop = .ok .directory ∧
    walkLast system purpose continue? stop.location name false = .ok goal

/-- All walks that go on to a further name come by a directory. -/
def LeadsThrough
    (system : FileSystem)
    (purpose : Purpose)
    (name : String)
    (goal : Goal)
    (first again : Continue) : Prop :=
  ∀ start names slash, again start (names ++ [name]) false = .ok goal →
    ComesBy system purpose name goal (first start names slash)

section Through

variable {first again : Continue} {directory : Location} {next : String} {slash : Bool}

theorem comesBy_walkLast
    (leadsThrough : LeadsThrough system purpose name goal first again)
    (walks : walkNames system purpose again directory [next, name] false = .ok goal) :
    ComesBy system purpose name goal (walkLast system .follow first directory next slash) := by
  rw [walkNames] at walks
  split_ifs at walks with isHere isAbove isLong
  · rw [walkLast, if_pos isHere]
    exact ⟨_, again, rfl, rfl, walks⟩
  · rw [walkLast, if_neg isHere, if_pos isAbove]
    exact ⟨_, again, rfl, rfl, walks⟩
  · rw [walkLast_of_notPlace ⟨isHere, isAbove, isLong⟩ rfl (by decide)]
    split at walks
    next => cases walks
    next => cases walks
    next isDirectory =>
      rw [isDirectory]
      refine ⟨_, again, rfl, find_eq_directory_iff.mpr ?_, walks⟩
      rintro _ _ _ ⟨⟩
      exact isDirectory
    next target isLink =>
      rw [isLink]
      exact leadsThrough _ _ _ walks

theorem leadsThrough_walkNames (leadsThrough : LeadsThrough system purpose name goal first again) :
    LeadsThrough system purpose name goal (walkNames system .follow first)
      (walkNames system purpose again) := by
  intro directory names slash walks
  induction names generalizing directory with
  | nil =>
      rw [List.nil_append, walkNames] at walks
      rw [walkNames]
      split_ifs with isRoot
      · subst isRoot
        exact ⟨_, again, rfl, rfl, walks⟩
      · exact ⟨_, again, rfl, rfl, walks⟩
  | cons next rest inductionHypothesis =>
      cases rest with
      | nil => exact comesBy_walkLast leadsThrough walks
      | cons third rest =>
          rw [List.cons_append, List.cons_append, walkNames] at walks
          rw [walkNames]
          split_ifs at walks ⊢ with isHere isAbove isLong
          · exact inductionHypothesis _ walks
          · exact inductionHypothesis _ walks
          · split at walks
            next => cases walks
            next => cases walks
            next isDirectory => exact inductionHypothesis _ walks
            next target isLink => exact leadsThrough _ _ _ (by simpa using walks)

theorem leadsThrough_walkLinks (links : Nat) :
    LeadsThrough system purpose name goal (walkLinks system .follow links)
      (walkLinks system purpose links) := by
  induction links with
  | zero =>
      refine leadsThrough_walkNames fun _ _ _ walks => ?_
      cases walks
  | succ links inductionHypothesis => exact leadsThrough_walkNames inductionHypothesis

end Through

theorem checkPath_of_join
    (isName : Path.IsName name)
    (notEmpty : path ≠ "")
    (isChecked : checkPath (Path.join path name) = .ok ()) :
    checkPath path = .ok () := by
  obtain ⟨front, isJoin, isPath⟩ := Path.toList_join isName notEmpty
  have isLonger := @Path.utf8ByteSize_join path name isName
  unfold checkPath at isChecked ⊢
  split_ifs at isChecked with hasNul isEmpty isLong
  have noNul : ¬path.toList.contains '\x00' := by
    rw [isJoin] at hasNul
    rcases isPath with isPath | isPath <;> simp_all
  rw [if_neg noNul, if_neg notEmpty, if_neg (by omega)]

/-! ## What names lie below -/

/-- The directory that names lie below if they are joined with a path: the one that the path leads
to, or the current one if the path is empty. -/
def StandsFor
    (system : FileSystem)
    (path : String)
    (location : Location) : Prop :=
  path = "" ∧ location = system.current ∨ system.directoryAt path = .ok location

theorem directoryAt_ne_ok_of_empty : system.directoryAt "" ≠ .ok location := by
  intro isAt
  obtain ⟨goal, walks, -⟩ := directoryAt_eq_ok_iff.mp isAt
  cases walks

namespace StandsFor

theorem unique
    (standsFor : system.StandsFor path location)
    (standsForToo : system.StandsFor path place) :
    location = place := by
  rcases standsFor with ⟨rfl, rfl⟩ | isAt <;> rcases standsForToo with ⟨isEmpty, rfl⟩ | isAtToo
  · rfl
  · exact (directoryAt_ne_ok_of_empty isAtToo).elim
  · exact (directoryAt_ne_ok_of_empty (isEmpty ▸ isAt)).elim
  · exact Except.ok.inj (isAt.symm.trans isAtToo)

theorem directoryAt
    (standsFor : system.StandsFor path location)
    (notEmpty : path ≠ "") :
    system.directoryAt path = .ok location :=
  standsFor.resolve_left fun isEmpty => notEmpty isEmpty.1

theorem grows
    (standsFor : before.StandsFor path location)
    (grows : Grows before after) :
    after.StandsFor path location := by
  rcases standsFor with ⟨rfl, rfl⟩ | isAt
  · exact .inl ⟨rfl, grows.current.symm⟩
  · exact .inr (grows.directoryAt isAt)

theorem node?
    (standsFor : system.StandsFor path location)
    (isTree : system.IsTree) :
    system.node? location = some .directory := by
  rcases standsFor with ⟨-, rfl⟩ | isAt
  · exact isTree.isCurrent
  · exact isTree.node?_of_directoryAt isAt

end StandsFor

/-- A path below another one leads by the directory that the other one stands for. -/
theorem exists_standsFor_of_walk_join
    (isName : Path.IsName name)
    (walks : system.walk purpose (Path.join path name) = .ok goal) :
    ∃ location continue?, system.StandsFor path location ∧
      walkLast system purpose continue? location name false = .ok goal := by
  rw [walk, bind_eq_ok_iff] at walks
  obtain ⟨_, isChecked, walks⟩ := walks
  dsimp only at walks
  rw [Path.names_join isName, Path.isAbsolute_join isName, Path.endsWithSlash_join isName] at walks
  rcases eq_or_ne path "" with rfl | notEmpty
  · exact ⟨system.current, _, .inl ⟨rfl, rfl⟩, walks⟩
  · obtain ⟨stop, continue?, comes, finds, ends⟩ :=
      leadsThrough_walkLinks _ _ _ (Path.endsWithSlash path) walks
    refine ⟨stop.location, continue?, .inr (directoryAt_eq_ok_iff.mpr ⟨stop, ?_, finds, rfl⟩), ends⟩
    rw [walk, bind_eq_ok_iff]
    exact ⟨(), checkPath_of_join isName notEmpty isChecked, comes⟩

/-! ## Below a directory without links -/

/-- No link stands at a location or below it. -/
def NoLinksAt
    (system : FileSystem)
    (location : Location) : Prop :=
  ∀ names target, system.node? (location ++ names) ≠ some (.link target)

/-- No link stands where names lead from a location on. -/
def NoLinksAlong
    (system : FileSystem)
    (location : Location)
    (names : List String) : Prop :=
  ∀ front target, front <+: names → system.node? (location ++ front) ≠ some (.link target)

theorem NoLinksAlong.ofFront
    {front : List String}
    (noLinks : system.NoLinksAlong location names)
    (isFront : front <+: names) :
    system.NoLinksAlong location front :=
  fun _ target isPrefix => noLinks _ target (isPrefix.trans isFront)

/-- Where no link stands, a name below a path stands for itself. -/
theorem eq_entry_of_walk_join
    (standsFor : system.StandsFor path location)
    (isName : Path.IsName name)
    (noLink : ∀ target, system.node? (location ++ [name]) ≠ some (.link target))
    (walks : system.walk purpose (Path.join path name) = .ok goal) :
    goal = .entry location name false := by
  obtain ⟨place, continue?, isPlace, ends⟩ := exists_standsFor_of_walk_join isName walks
  obtain rfl := standsFor.unique isPlace
  rw [walkLast_eq_ok_iff] at ends
  cases ends with
  | here isHere => exact (isName.notHere isHere).elim
  | above isAbove => exact (isName.notAbove isAbove).elim
  | placed _ _ _ isGoal => exact isGoal
  | follows target _ _ isLink => exact (noLink target isLink).elim
  | ends _ _ _ _ isGoal => exact isGoal

/-- A name where a directory stands leads to no file. -/
theorem isFile_join_of_directory
    (standsFor : system.StandsFor path location)
    (isName : Path.IsName name)
    (isDirectory : system.node? (location ++ [name]) = some .directory) :
    system.isFile (Path.join path name) = false := by
  rw [Bool.eq_false_iff, ne_eq, isFile_iff]
  rintro ⟨place, isFile⟩
  obtain ⟨directory, last, content, walks, isContent, -⟩ := fileAt_eq_ok_iff.mp isFile
  cases eq_entry_of_walk_join standsFor isName (by simp [isDirectory]) walks
  rw [isDirectory] at isContent
  cases isContent

theorem descend_ne_empty
    (areNames : ∀ next ∈ names, Path.IsName next)
    (isBelow : names ≠ []) :
    Path.descend path names ≠ "" := by
  obtain ⟨front, name, rfl⟩ := List.eq_nil_or_concat' names |>.resolve_left isBelow
  rw [Path.descend_concat]
  exact Path.join_ne_empty (areNames name (by simp))

section Along

variable (standsFor : system.StandsFor path location)

include standsFor

/-- Where no links stand, the directory that names below a path lead to lies there by its names. -/
theorem StandsFor.descend
    (areNames : ∀ next ∈ names, Path.IsName next)
    (noLinks : system.NoLinksAlong location names)
    (leads : system.StandsFor (Path.descend path names) place) :
    place = location ++ names := by
  induction names using List.reverseRecOn generalizing place with
  | nil => rw [List.append_nil, standsFor.unique leads]
  | append_singleton front last inductionHypothesis =>
      have isAt := leads.directoryAt (descend_ne_empty areNames (by simp))
      rw [Path.descend_concat] at isAt
      obtain ⟨goal, walks, -, rfl⟩ := directoryAt_eq_ok_iff.mp isAt
      have isName := areNames last (by simp)
      obtain ⟨stop, -, comesBy, -⟩ := exists_standsFor_of_walk_join isName walks
      obtain rfl := inductionHypothesis (fun next isIn => areNames next (by simp [isIn]))
        (noLinks.ofFront (List.prefix_append ..)) comesBy
      rw [eq_entry_of_walk_join comesBy isName (fun target => ?_) walks, Goal.location,
        List.append_assoc]
      rw [List.append_assoc]
      exact noLinks _ target List.prefix_rfl

/-- Where no links stand, names below a path stand for themselves. -/
theorem eq_entry_of_walk_descend
    (areNames : ∀ next ∈ names ++ [name], Path.IsName next)
    (noLinks : system.NoLinksAlong location (names ++ [name]))
    (walks : system.walk purpose (Path.descend path (names ++ [name])) = .ok goal) :
    goal = .entry (location ++ names) name false := by
  rw [Path.descend_concat] at walks
  have isName := areNames name (by simp)
  obtain ⟨stop, -, comesBy, -⟩ := exists_standsFor_of_walk_join isName walks
  obtain rfl := standsFor.descend (fun next isIn => areNames next (by simp [isIn]))
    (noLinks.ofFront (List.prefix_append ..)) comesBy
  refine eq_entry_of_walk_join comesBy isName (fun target => ?_) walks
  rw [List.append_assoc]
  exact noLinks _ target List.prefix_rfl

end Along

/-- Below a directory without links a file lies where its way leads by names. -/
theorem eq_of_fileAt_descend
    (areNames : ∀ name ∈ names, Path.IsName name)
    (isAt : system.directoryAt path = .ok location)
    (noLinks : system.NoLinksAt location)
    (isFile : system.fileAt (Path.descend path names) = .ok place) :
    place = location ++ names := by
  rcases List.eq_nil_or_concat' names with rfl | ⟨front, last, rfl⟩
  · have notDirectory := isDirectory_of_fileAt isFile
    rw [Path.descend_nil, isDirectory_iff.mpr ⟨_, isAt⟩] at notDirectory
    cases notDirectory
  · obtain ⟨directory, name, content, walks, -, rfl⟩ := fileAt_eq_ok_iff.mp isFile
    obtain ⟨rfl, rfl, -⟩ := Goal.entry.inj <|
      eq_entry_of_walk_descend (.inr isAt) areNames (fun front target _ => noLinks front target)
        walks
    rw [List.append_assoc]

/-! ## Below a new directory -/

/-- Nothing stands below what is no directory. -/
theorem IsTree.node?_append
    (isTree : system.IsTree)
    (isFree : system.node? location = none)
    (names : List String) :
    system.node? (location ++ names) = none := by
  induction names using List.reverseRecOn with
  | nil => rwa [List.append_nil]
  | append_singleton names name inductionHypothesis =>
      by_contra stands
      rw [← List.append_assoc, ← ne_eq, Option.ne_none_iff_isSome] at stands
      rw [isTree.isBelow _ _ stands] at inductionHypothesis
      cases inductionHypothesis

/-- What stands below something else stands below a directory. -/
theorem IsTree.node?_of_append
    (isTree : system.IsTree)
    (isDirectory : system.node? (location ++ names) = some .directory) :
    system.node? location = some .directory := by
  induction names using List.reverseRecOn with
  | nil => rwa [List.append_nil] at isDirectory
  | append_singleton names name inductionHypothesis =>
      rw [← List.append_assoc] at isDirectory
      exact inductionHypothesis (isTree.isBelow _ name (by rw [isDirectory]; rfl))

/-- No link stands below a directory that has been made. -/
theorem Grows.noLinksAt
    (grows : Grows before after)
    (isTree : before.IsTree)
    (isFree : before.node? location = none) :
    after.NoLinksAt location := by
  intro names target isLink
  rw [grows.link_iff, isTree.node?_append isFree] at isLink
  cases isLink

end FileSystem
end ScriptHost
