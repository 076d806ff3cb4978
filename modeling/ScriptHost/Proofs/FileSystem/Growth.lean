import ScriptHost.Proofs.FileSystem.Writing

/-!
# Growing file systems

Where directories are made and files are written, directories, links and files stay where they
are; only the content of files changes. A walk that has found its goal finds it again in what the
file system has grown to, and so does one for another purpose that ends at the same name.
-/

namespace ScriptHost
namespace FileSystem

variable {before between after system : FileSystem} {goal : Goal} {purpose other : Purpose}
  {path : String} {location : Location}

/-- What may come to stand where something or nothing stood. -/
inductive NodeGrows : Option Node → Option Node → Prop
  | same (node? : Option Node) : NodeGrows node? node?
  | made : NodeGrows none (some .directory)
  | created (content : Bytes) : NodeGrows none (some (.file content))
  | rewritten (old new : Bytes) : NodeGrows (some (.file old)) (some (.file new))

/-- What has grown twice has grown. -/
theorem NodeGrows.trans
    {first second third : Option Node}
    (grows : NodeGrows first second)
    (growsOn : NodeGrows second third) :
    NodeGrows first third := by
  cases grows with
  | same => exact growsOn
  | made => cases growsOn with
    | same => exact .made
  | created => cases growsOn with
    | same => exact .created _
    | rewritten => exact .created _
  | rewritten => cases growsOn with
    | same => exact .rewritten ..
    | rewritten => exact .rewritten ..

/-- A file system in which directories were made and files were written. -/
structure Grows (before after : FileSystem) : Prop where
  current : after.current = before.current
  node : ∀ location, NodeGrows (before.node? location) (after.node? location)

namespace Grows

theorem refl (system : FileSystem) : Grows system system :=
  ⟨rfl, fun _ => .same _⟩

theorem trans
    (grows : Grows before between)
    (growsOn : Grows between after) :
    Grows before after :=
  ⟨growsOn.current.trans grows.current,
    fun location => (grows.node location).trans (growsOn.node location)⟩

/-- A directory is still one in a grown file system. -/
theorem directory
    (grows : Grows before after)
    (isDirectory : before.node? location = some .directory) :
    after.node? location = some .directory := by
  have nodeGrows := grows.node location
  rw [isDirectory] at nodeGrows
  generalize after.node? location = node? at nodeGrows
  cases nodeGrows with
  | same => rfl

/-- Links stay, and no other one comes to stand anywhere. -/
theorem link_iff
    (grows : Grows before after)
    (target : String) :
    after.node? location = some (.link target) ↔ before.node? location = some (.link target) := by
  have nodeGrows := grows.node location
  generalize before.node? location = old? at nodeGrows
  generalize after.node? location = new? at nodeGrows
  cases nodeGrows with
  | same => rfl
  | made => simp
  | created => simp
  | rewritten => simp

/-- A file is still one in a grown file system, whatever it holds. -/
theorem file
    {content : Bytes}
    (grows : Grows before after)
    (isFile : before.node? location = some (.file content)) :
    ∃ newContent, after.node? location = some (.file newContent) := by
  have nodeGrows := grows.node location
  rw [isFile] at nodeGrows
  generalize after.node? location = node? at nodeGrows
  cases nodeGrows with
  | same => exact ⟨content, rfl⟩
  | rewritten _ newContent => exact ⟨newContent, rfl⟩

/-- What stood somewhere still does in a grown file system. -/
theorem isSome
    (grows : Grows before after)
    (stands : (before.node? location).isSome) :
    (after.node? location).isSome := by
  have nodeGrows := grows.node location
  generalize before.node? location = old? at stands nodeGrows
  generalize after.node? location = new? at nodeGrows
  cases nodeGrows with
  | same => exact stands
  | made => rfl
  | created => rfl
  | rewritten => rfl

end Grows

/-- A node that is no link may be put where it is the same or where a file or nothing stood. -/
theorem grows_put
    {node : Node}
    {directory : Location}
    {name : String}
    (nodeGrows : NodeGrows (system.node? (directory ++ [name])) (some node)) :
    Grows system (system.put (directory ++ [name]) node) := by
  refine ⟨rfl, fun location => ?_⟩
  by_cases isHere : location = directory ++ [name]
  · rw [isHere, node?_put_self]
    exact nodeGrows
  · rw [node?_put_of_ne isHere]
    exact .same _

/-! ## The last step of a walk -/

/-- How a walk gets to its goal at its last name. -/
inductive LastStep
    (system : FileSystem)
    (purpose : Purpose)
    (first : Continue)
    (directory : Location)
    (name : String)
    (slash : Bool)
    (goal : Goal) : Prop
  | here (isHere : name = ".") (isGoal : goal = .here directory)
  | above (isAbove : name = "..") (isGoal : goal = .above directory.dropLast)
  | placed (notHere : name ≠ ".") (notAbove : name ≠ "..") (isPlace : purpose = .place)
      (isGoal : goal = .entry directory name slash)
  | follows (target : String) (isPlain : IsPlain name)
      (isAllowed : (purpose = .create && slash) = false)
      (isLink : system.node? (directory ++ [name]) = some (.link target))
      (follows : purpose.follows slash = true)
      (walks : first (linkStart directory target) (Path.names target)
        (slash || Path.endsWithSlash target) = .ok goal)
  | ends (isPlain : IsPlain name)
      (isAllowed : (purpose = .create && slash) = false)
      (notPlace : purpose ≠ .place)
      (keeps : ∀ target, system.node? (directory ++ [name]) = some (.link target) →
        purpose.follows slash = false)
      (isGoal : goal = .entry directory name slash)

/-- The last name of a path is followed if it is a link, and is the end of the path otherwise. -/
theorem walkLast_of_notPlace
    {first : Continue}
    {directory : Location}
    {name : String}
    {slash : Bool}
    (isPlain : IsPlain name)
    (isAllowed : (purpose = .create && slash) = false)
    (notPlace : purpose ≠ .place) :
    walkLast system purpose first directory name slash =
      match system.node? (directory ++ [name]) with
      | some (.link target) =>
          if purpose.follows slash then
            first (linkStart directory target) (Path.names target)
              (slash || Path.endsWithSlash target)
          else .ok (.entry directory name slash)
      | _ => .ok (.entry directory name slash) := by
  have ⟨notHere, notAbove, isShort⟩ := isPlain
  have notSlashed : ¬(purpose = .create && slash) = true := by simp [isAllowed]
  exact (if_neg notHere).trans <| (if_neg notAbove).trans <| (if_neg notSlashed).trans <|
    (if_neg notPlace).trans (if_neg isShort)

/-- A walk over the last name ends in one of a few ways. -/
theorem walkLast_eq_ok_iff
    {first : Continue}
    {directory : Location}
    {name : String}
    {slash : Bool} :
    walkLast system purpose first directory name slash = .ok goal ↔
      LastStep system purpose first directory name slash goal := by
  constructor
  · intro walks
    by_cases isHere : name = "."
    · rw [walkLast, if_pos isHere] at walks
      cases walks
      exact .here isHere rfl
    by_cases isAbove : name = ".."
    · rw [walkLast, if_neg isHere, if_pos isAbove] at walks
      cases walks
      exact .above isAbove rfl
    cases isAllowed : (purpose = .create && slash : Bool) with
    | true =>
        rw [walkLast, if_neg isHere, if_neg isAbove, if_pos isAllowed] at walks
        cases walks
    | false =>
        by_cases isPlace : purpose = .place
        · rw [walkLast, if_neg isHere, if_neg isAbove, if_neg (by simp [isAllowed]),
            if_pos isPlace] at walks
          cases walks
          exact .placed isHere isAbove isPlace rfl
        by_cases isLong : longestName < name.utf8ByteSize
        · rw [walkLast, if_neg isHere, if_neg isAbove, if_neg (by simp [isAllowed]),
            if_neg isPlace, if_pos isLong] at walks
          cases walks
        have isPlain : IsPlain name := ⟨isHere, isAbove, isLong⟩
        rw [walkLast_of_notPlace isPlain isAllowed isPlace] at walks
        split at walks
        next target isLink =>
          split_ifs at walks with follows
          · exact .follows target isPlain isAllowed isLink follows walks
          · cases walks
            exact .ends isPlain isAllowed isPlace (fun _ _ => by simpa using follows) rfl
        next noLink =>
          cases walks
          exact .ends isPlain isAllowed isPlace (fun target isLink => (noLink target isLink).elim)
            rfl
  · intro step
    cases step with
    | here isHere isGoal => rw [walkLast, if_pos isHere, isGoal]
    | above isAbove isGoal =>
        rw [walkLast, if_neg (by simp [isAbove]), if_pos isAbove, isGoal]
    | placed notHere notAbove isPlace isGoal =>
        rw [walkLast, if_neg notHere, if_neg notAbove, if_neg (by simp [isPlace]), if_pos isPlace,
          isGoal]
    | follows target isPlain isAllowed isLink follows walks =>
        have notPlace : purpose ≠ .place := by
          rintro rfl
          cases follows
        rw [walkLast_of_notPlace isPlain isAllowed notPlace, isLink]
        simpa only [follows, if_true] using walks
    | ends isPlain isAllowed notPlace keeps isGoal =>
        rw [walkLast_of_notPlace isPlain isAllowed notPlace, isGoal]
        split
        next target isLink => rw [keeps target isLink, if_neg (by simp)]
        next => rfl

/-! ## Walks that are made again -/

/-- If the first way on leads to the goal, so does the other one. -/
def LeadsOn
    (goal : Goal)
    (first again : Continue) : Prop :=
  ∀ start names slash, first start names slash = .ok goal → again start names slash = .ok goal

/-- A step at the last name that leads to the goal leads there for another purpose, too. -/
def EndsAgain
    (before after : FileSystem)
    (purpose other : Purpose)
    (goal : Goal) : Prop :=
  ∀ (first again : Continue), LeadsOn goal first again → ∀ directory name slash,
    walkLast before purpose first directory name slash = .ok goal →
      walkLast after other again directory name slash = .ok goal

/-- A walk over names leads on if the walk behind a link does. -/
theorem leadsOn_walkNames
    {first again : Continue}
    (grows : Grows before after)
    (endsAgain : EndsAgain before after purpose other goal)
    (leadsOn : LeadsOn goal first again) :
    LeadsOn goal (walkNames before purpose first) (walkNames after other again) := by
  intro directory names slash walks
  induction names generalizing directory with
  | nil => exact walks
  | cons name names inductionHypothesis =>
      cases names with
      | nil => exact endsAgain first again leadsOn directory name slash walks
      | cons next rest =>
          rw [walkNames] at walks ⊢
          split_ifs at walks ⊢ with isHere isAbove isLong
          · exact inductionHypothesis _ walks
          · exact inductionHypothesis _ walks
          · split at walks
            next => cases walks
            next => cases walks
            next isDirectory =>
              rw [grows.directory isDirectory]
              exact inductionHypothesis _ walks
            next target isLink =>
              rw [(grows.link_iff target).mpr isLink]
              exact leadsOn _ _ _ walks

/-- A walk that follows links leads on. -/
theorem leadsOn_walkLinks
    (grows : Grows before after)
    (endsAgain : EndsAgain before after purpose other goal)
    (links : Nat) :
    LeadsOn goal (walkLinks before purpose links) (walkLinks after other links) := by
  induction links with
  | zero => exact leadsOn_walkNames grows endsAgain fun _ _ _ walks => walks
  | succ links inductionHypothesis =>
      exact leadsOn_walkNames grows endsAgain inductionHypothesis

/-- What has been found is found again, if the last step finds it again. -/
theorem walk_of_endsAgain
    (grows : Grows before after)
    (endsAgain : EndsAgain before after purpose other goal)
    (walks : before.walk purpose path = .ok goal) :
    after.walk other path = .ok goal := by
  rw [walk, bind_eq_ok_iff] at walks ⊢
  obtain ⟨_, isChecked, walks⟩ := walks
  rw [grows.current]
  exact ⟨(), isChecked, leadsOn_walkLinks grows endsAgain _ _ _ _ walks⟩

/-- Where a walk ended, it ends again in a grown file system. -/
theorem Grows.endsAgain (grows : Grows before after) :
    EndsAgain before after purpose purpose goal := by
  intro first again leadsOn directory name slash walks
  rw [walkLast_eq_ok_iff] at walks ⊢
  cases walks with
  | here isHere isGoal => exact .here isHere isGoal
  | above isAbove isGoal => exact .above isAbove isGoal
  | placed notHere notAbove isPlace isGoal => exact .placed notHere notAbove isPlace isGoal
  | follows target isPlain isAllowed isLink follows walks =>
      exact .follows target isPlain isAllowed ((grows.link_iff target).mpr isLink) follows
        (leadsOn _ _ _ walks)
  | ends isPlain isAllowed notPlace keeps isGoal =>
      exact .ends isPlain isAllowed notPlace
        (fun target isLink => keeps target ((grows.link_iff target).mp isLink)) isGoal

/-- A walk that has found its goal finds it again. -/
theorem Grows.walk
    (grows : Grows before after)
    (walks : before.walk purpose path = .ok goal) :
    after.walk purpose path = .ok goal :=
  walk_of_endsAgain grows grows.endsAgain walks

/-- What is found with no link kept at the end is found with every link followed. -/
private theorem walk_follow_of_walk
    (notPlace : purpose ≠ .place)
    (keepsNone : ∀ directory name slash target, goal = .entry directory name slash →
      system.node? (directory ++ [name]) = some (.link target) → purpose.follows slash = true)
    (walks : system.walk purpose path = .ok goal) :
    system.walk .follow path = .ok goal := by
  refine walk_of_endsAgain (.refl system) ?_ walks
  intro first again leadsOn directory name slash walks
  rw [walkLast_eq_ok_iff] at walks ⊢
  cases walks with
  | here isHere isGoal => exact .here isHere isGoal
  | above isAbove isGoal => exact .above isAbove isGoal
  | placed _ _ isPlace => exact (notPlace isPlace).elim
  | follows target isPlain _ isLink _ walks =>
      exact .follows target isPlain rfl isLink rfl (leadsOn _ _ _ walks)
  | ends isPlain _ _ keeps isGoal =>
      refine .ends isPlain rfl (by decide) (fun target isLink => ?_) isGoal
      have isFollowed := keepsNone _ _ _ target isGoal isLink
      rw [keeps target isLink] at isFollowed
      cases isFollowed

/-- What is found with the last link kept is found with it followed, if it is no link. -/
theorem walk_follow_of_keep
    (noLink : ∀ directory name slash target, goal = .entry directory name slash →
      system.node? (directory ++ [name]) ≠ some (.link target))
    (walks : system.walk .keep path = .ok goal) :
    system.walk .follow path = .ok goal :=
  walk_follow_of_walk (by decide)
    (fun _ _ _ target isGoal isLink => (noLink _ _ _ target isGoal isLink).elim) walks

/-- Where a file can be created is where the path leads to. -/
theorem walk_follow_of_create
    (walks : system.walk .create path = .ok goal) :
    system.walk .follow path = .ok goal :=
  walk_follow_of_walk (by decide) (fun _ _ _ _ _ _ => rfl) walks

/-- What is found as a place is found with every link followed, where none stands there. -/
theorem Grows.walk_follow_of_place
    {directory : Location}
    {name : String}
    {slash : Bool}
    (grows : Grows before after)
    (isShort : ¬longestName < name.utf8ByteSize)
    (noLink : ∀ target, before.node? (directory ++ [name]) ≠ some (.link target))
    (walks : before.walk .place path = .ok (.entry directory name slash)) :
    after.walk .follow path = .ok (.entry directory name slash) := by
  refine walk_of_endsAgain grows ?_ walks
  intro first again leadsOn place last isSlashed walks
  rw [walkLast_eq_ok_iff] at walks ⊢
  cases walks with
  | here isHere isGoal => exact .here isHere isGoal
  | above isAbove isGoal => exact .above isAbove isGoal
  | follows _ _ _ _ follows => cases follows
  | ends _ _ notPlace => exact (notPlace rfl).elim
  | placed notHere notAbove _ isGoal =>
      obtain ⟨rfl, rfl, rfl⟩ := Goal.entry.inj isGoal
      exact .ends ⟨notHere, notAbove, isShort⟩ rfl (by decide)
        (fun target isLink => (noLink target ((grows.link_iff target).mp isLink)).elim) isGoal

/-! ## Walks that end as they did -/

/-- Two ways on agree, unless the first one misses something. -/
def AgreesUnlessMissing (first again : Continue) : Prop :=
  ∀ start names slash, first start names slash ≠ .error .noSuchFile →
    again start names slash = first start names slash

section Agrees

variable {first again : Continue}

/-- A last name that was not missing is walked as before. -/
theorem Grows.walkLast_eq
    {directory : Location}
    {name : String}
    {slash : Bool}
    (grows : Grows before after)
    (agrees : AgreesUnlessMissing first again)
    (notMissing : walkLast before purpose first directory name slash ≠ .error .noSuchFile) :
    walkLast after purpose again directory name slash =
      walkLast before purpose first directory name slash := by
  have nodeGrows := grows.node (directory ++ [name])
  unfold walkLast at notMissing ⊢
  generalize before.node? (directory ++ [name]) = old? at nodeGrows notMissing
  generalize after.node? (directory ++ [name]) = new? at nodeGrows
  cases nodeGrows with
  | same =>
      rcases old? with _ | _ | _ | target
      iterate 3 rfl
      split_ifs at notMissing ⊢
      any_goals rfl
      exact agrees _ _ _ notMissing
  | made => rfl
  | created => rfl
  | rewritten => rfl

/-- Names that were not missing are walked as before. -/
theorem Grows.agrees_walkNames
    (grows : Grows before after)
    (agrees : AgreesUnlessMissing first again) :
    AgreesUnlessMissing (walkNames before purpose first) (walkNames after purpose again) := by
  intro directory names slash notMissing
  induction names generalizing directory with
  | nil => rfl
  | cons name names inductionHypothesis =>
      cases names with
      | nil => exact grows.walkLast_eq agrees notMissing
      | cons next rest =>
          rw [walkNames] at notMissing ⊢
          rw [walkNames]
          split_ifs at notMissing ⊢ with isHere isAbove isLong
          · exact inductionHypothesis _ notMissing
          · exact inductionHypothesis _ notMissing
          · rfl
          · split at notMissing
            next => exact (notMissing rfl).elim
            next isFile =>
              obtain ⟨content, isFileAfter⟩ := grows.file isFile
              rw [isFileAfter]
            next isDirectory =>
              rw [grows.directory isDirectory]
              exact inductionHypothesis _ notMissing
            next target isLink =>
              rw [(grows.link_iff target).mpr isLink]
              exact agrees _ _ _ notMissing

/-- Links that did not lead to what is missing are followed as before. -/
theorem Grows.agrees_walkLinks
    (grows : Grows before after)
    (links : Nat) :
    AgreesUnlessMissing (walkLinks before purpose links) (walkLinks after purpose links) := by
  induction links with
  | zero => exact grows.agrees_walkNames fun _ _ _ _ => rfl
  | succ links inductionHypothesis => exact grows.agrees_walkNames inductionHypothesis

end Agrees

/-- A path that is not refused is walked from where it begins. -/
theorem walk_of_checked (isChecked : checkPath path = .ok ()) :
    system.walk purpose path =
      walkLinks system purpose mostLinks (if Path.isAbsolute path then [] else system.current)
        (Path.names path) (Path.endsWithSlash path) := by
  rw [walk, isChecked, ok_bind]

/-- A walk that misses nothing ends as it did. -/
theorem Grows.walk_eq
    (grows : Grows before after)
    (notMissing : before.walk purpose path ≠ .error .noSuchFile) :
    after.walk purpose path = before.walk purpose path := by
  cases isChecked : checkPath path with
  | error problem => rw [FileSystem.walk, FileSystem.walk, isChecked, error_bind, error_bind]
  | ok =>
      rw [walk_of_checked isChecked] at notMissing
      rw [walk_of_checked isChecked, walk_of_checked isChecked, grows.current]
      exact grows.agrees_walkLinks mostLinks _ _ _ notMissing

end FileSystem
end ScriptHost
