import ScriptHost.FileSystem.Access
import ScriptHost.Proofs.Entries
import Mathlib.Tactic.SplitIfs

/-!
# Written files

A file that has been written is read back. The walk to it comes by directories and links only,
and what has been written is neither, so it finds the same way again.
-/

namespace ScriptHost
namespace FileSystem

variable {system : FileSystem} {directory target : Location} {names : List String}
  {name last : String} {slash isSlashed : Bool} {continue? again? : Continue} {node : Node}

theorem ok_bind
    {α β : Type}
    (value : α)
    (next : α → Except SystemError β) :
    (.ok value >>= next) = next value :=
  rfl

theorem error_bind
    {α β : Type}
    (problem : SystemError)
    (next : α → Except SystemError β) :
    (.error problem >>= next) = .error problem :=
  rfl

/-- What is answered after an answer. -/
theorem bind_eq_ok_iff
    {α β : Type}
    {first : Except SystemError α}
    {next : α → Except SystemError β}
    {result : β} :
    (first >>= next) = .ok result ↔ ∃ value, first = .ok value ∧ next value = .ok result := by
  cases first with
  | error problem => simp [bind, Except.bind]
  | ok value => simp [bind, Except.bind]

/-! ## What stands at a location -/

theorem node?_put_self
    (system : FileSystem)
    (directory : Location)
    (name : String)
    (node : Node) :
    (system.put (directory ++ [name]) node).node? (directory ++ [name]) = some node := by
  unfold node?
  split
  next isRoot => simp at isRoot
  next => simp [put]

theorem node?_put_of_ne
    {location other : Location}
    (isOther : other ≠ location) :
    (system.put location node).node? other = system.node? other := by
  unfold node?
  split
  next => rfl
  next =>
    have isDifferent : (other == location) = false := by simpa using isOther
    simp only [put, List.lookup_cons, isDifferent]
    exact Entries.lookup_filter _ fun _ => decide_eq_true isOther

/-! ## The last name -/

/-- A name of an entry: neither of the two that lead back, and not too long. -/
structure IsPlain (name : String) : Prop where
  notHere : name ≠ "."
  notAbove : name ≠ ".."
  isShort : ¬longestName < name.utf8ByteSize

theorem walkLast_of_isPlain
    {purpose : Purpose}
    (follows : purpose = .follow ∨ purpose = .create)
    (isPlain : IsPlain name) :
    walkLast system purpose continue? directory name false =
      match system.node? (directory ++ [name]) with
      | some (.link path) =>
          continue? (linkStart directory path) (Path.names path) (Path.endsWithSlash path)
      | _ => .ok (.entry directory name false) := by
  have ⟨notHere, notAbove, isShort⟩ := isPlain
  rw [walkLast, if_neg notHere, if_neg notAbove, if_neg (by simp), if_neg (by grind),
    if_neg isShort]
  rcases follows with rfl | rfl <;> rfl

/-- A walk that may create a file ends at a plain name without a slash. -/
theorem isPlain_of_walkLast
    (walks : walkLast system .create continue? directory name slash =
      .ok (.entry target last isSlashed)) :
    IsPlain name ∧ slash = false := by
  unfold walkLast at walks
  split_ifs at walks with notHere notAbove hasSlash isPlace isShort
  · cases walks
  · cases walks
  · exact isPlace.elim
  all_goals exact ⟨⟨notHere, notAbove, isShort⟩, by simpa using hasSlash⟩

/-! ## The way to a file -/

/-- A place for a file: no link stands there, and no slash follows. -/
structure IsPlace
    (system : FileSystem)
    (target : Location)
    (isSlashed : Bool) : Prop where
  noLink : ∀ path, system.node? target ≠ some (.link path)
  noSlash : isSlashed = false

/-- A walk that may create a file ends at a place for it, and another walk ends there, too. -/
def FindsAgain
    (system : FileSystem)
    (target : Location)
    (last : String)
    (isSlashed : Bool)
    (first again : Except SystemError Goal) : Prop :=
  first = .ok (.entry target last isSlashed) →
    IsPlace system (target ++ [last]) isSlashed ∧ again = .ok (.entry target last isSlashed)

section Again

variable (content : Bytes)
  (continues : ∀ start names slash, FindsAgain system target last isSlashed
    (continue? start names slash) (again? start names slash))

include continues in
theorem findsAgain_walkLast :
    FindsAgain system target last isSlashed
      (walkLast system .create continue? directory name slash)
      (walkLast (system.put (target ++ [last]) (.file content)) .follow again? directory name
        slash) := by
  intro walks
  obtain ⟨isPlain, rfl⟩ := isPlain_of_walkLast walks
  rw [walkLast_of_isPlain (.inr rfl) isPlain] at walks
  rw [walkLast_of_isPlain (.inl rfl) isPlain]
  split at walks
  next path isLink =>
    obtain ⟨isPlace, isAgain⟩ := continues _ _ _ walks
    have isOther : directory ++ [name] ≠ target ++ [last] := fun same =>
      isPlace.noLink path (same ▸ isLink)
    refine ⟨isPlace, ?_⟩
    simp only [node?_put_of_ne isOther, isLink]
    exact isAgain
  next noLink =>
    cases walks
    refine ⟨⟨noLink, rfl⟩, ?_⟩
    simp only [node?_put_self]

include continues in
/-- The way leads by directories and links, and neither stands where the file is written. -/
theorem findsAgain_walkNames
    (noDirectory : system.node? (target ++ [last]) ≠ some .directory) :
    FindsAgain system target last isSlashed
      (walkNames system .create continue? directory names slash)
      (walkNames (system.put (target ++ [last]) (.file content)) .follow again? directory names
        slash) := by
  induction names generalizing directory with
  | nil =>
      intro walks
      rw [walkNames] at walks
      split_ifs at walks <;> cases walks
  | cons name names inductionHypothesis =>
      cases names with
      | nil => exact findsAgain_walkLast content continues
      | cons next rest =>
          intro walks
          rw [walkNames] at walks ⊢
          split_ifs at walks ⊢ with isHere isAbove isLong
          · exact inductionHypothesis walks
          · exact inductionHypothesis walks
          · split at walks
            next => cases walks
            next => cases walks
            -- The way goes on through what is a directory, so that the file is not written there.
            next isDirectory =>
              have isOther : directory ++ [name] ≠ target ++ [last] := fun same =>
                noDirectory (same ▸ isDirectory)
              rw [node?_put_of_ne isOther, isDirectory]
              exact inductionHypothesis walks
            next path isLink =>
              obtain ⟨isPlace, isAgain⟩ := continues _ _ _ walks
              have isOther : directory ++ [name] ≠ target ++ [last] := fun same =>
                isPlace.noLink path (same ▸ isLink)
              rw [node?_put_of_ne isOther, isLink]
              exact ⟨isPlace, isAgain⟩

end Again

theorem findsAgain_walkLinks
    (content : Bytes)
    (noDirectory : system.node? (target ++ [last]) ≠ some .directory)
    (links : Nat)
    (start : Location)
    (names : List String)
    (slash : Bool) :
    FindsAgain system target last isSlashed
      (walkLinks system .create links start names slash)
      (walkLinks (system.put (target ++ [last]) (.file content)) .follow links start names
        slash) := by
  induction links generalizing start names slash with
  | zero =>
      refine findsAgain_walkNames content (fun _ _ _ walks => ?_) noDirectory
      cases walks
  | succ links inductionHypothesis =>
      exact findsAgain_walkNames content inductionHypothesis noDirectory

/-! ## Reading what has been written -/

/-- A file that can be written lies at a name in a directory, and is no directory itself. -/
theorem exists_walk_of_writable
    {path : String}
    {location : Location}
    (isWritable : system.writable path = .ok location) :
    ∃ directory name slash, location = directory ++ [name] ∧
      system.walk .create path = .ok (.entry directory name slash) ∧
      system.node? (directory ++ [name]) ≠ some .directory := by
  rw [writable, bind_eq_ok_iff] at isWritable
  obtain ⟨goal, walks, isWritable⟩ := isWritable
  cases goal
  case entry directory name slash =>
    dsimp only at isWritable
    split at isWritable
    next => cases isWritable
    next noDirectory =>
      cases isWritable
      exact ⟨directory, name, slash, rfl, walks, noDirectory⟩
  all_goals cases isWritable

theorem findsAgain_walk
    {path : String}
    (content : Bytes)
    (noDirectory : system.node? (target ++ [last]) ≠ some .directory) :
    FindsAgain system target last isSlashed (system.walk .create path)
      ((system.put (target ++ [last]) (.file content)).walk .follow path) := by
  intro walks
  rw [walk, bind_eq_ok_iff] at walks
  obtain ⟨_, isChecked, walks⟩ := walks
  obtain ⟨isPlace, isAgain⟩ := findsAgain_walkLinks content noDirectory _ _ _ _ walks
  refine ⟨isPlace, ?_⟩
  rw [walk, bind_eq_ok_iff]
  exact ⟨(), isChecked, isAgain⟩

/-- A file that has been written is read back. -/
theorem readFile_of_writeFile
    {after : FileSystem}
    {path : String}
    {content : Bytes}
    (writes : system.writeFile path content = .ok after) :
    after.readFile path = .ok content := by
  rw [writeFile, bind_eq_ok_iff] at writes
  obtain ⟨location, isWritable, writes⟩ := writes
  cases writes
  obtain ⟨directory, name, slash, rfl, walks, noDirectory⟩ := exists_walk_of_writable isWritable
  obtain ⟨isPlace, isAgain⟩ := findsAgain_walk content noDirectory walks
  obtain rfl := isPlace.noSlash
  simp only [readFile, status, isAgain, bind, Except.bind, find, node?_put_self]
  rfl

end FileSystem
end ScriptHost
