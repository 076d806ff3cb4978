import ScriptHost.Proofs.FileSystem.Places

/-!
# Ways below a directory

A way is a list of names, each of which stands in the directory that the names before it lead to.
What can be found below a directory is what ways lead to, and ways stay where directories are made
and files are written.
-/

namespace ScriptHost

/-- The path of names one below the other. -/
def Path.descend
    (base : String)
    (names : List String) : String :=
  names.foldl Path.join base

namespace Path

@[simp] theorem descend_nil (base : String) : descend base [] = base := rfl

@[simp] theorem descend_cons
    (base name : String)
    (names : List String) :
    descend base (name :: names) = descend (join base name) names := rfl

/-- A way is descended part by part. -/
theorem descend_append
    (base : String)
    (first second : List String) :
    descend base (first ++ second) = descend (descend base first) second :=
  List.foldl_append

/-- The last name of a way is joined last. -/
theorem descend_concat
    (base name : String)
    (names : List String) :
    descend base (names ++ [name]) = join (descend base names) name := by
  rw [descend_append, descend_cons, descend_nil]

end Path

namespace FileSystem

variable {before after system : FileSystem} {base name : String} {names rest : List String}
  {location : Location}

/-- A name in the directory that a path leads to. -/
def Holds
    (system : FileSystem)
    (path name : String) : Prop :=
  ∃ location, system.directoryAt path = .ok location ∧ name ∈ system.names location

/-- Each name stands in the directory that those before it lead to. -/
def IsWay (system : FileSystem) : String → List String → Prop
  | _, [] => True
  | base, name :: names => system.Holds base name ∧ system.IsWay (Path.join base name) names

/-- A way leads through each of its parts. -/
theorem isWay_append :
    system.IsWay base (names ++ rest) ↔
      system.IsWay base names ∧ system.IsWay (Path.descend base names) rest := by
  induction names generalizing base with
  | nil => simp [IsWay]
  | cons name names inductionHypothesis =>
      rw [List.cons_append, IsWay, IsWay, inductionHypothesis, and_assoc, Path.descend_cons]

/-- The last step of a way leads to a name in a directory. -/
theorem isWay_concat :
    system.IsWay base (names ++ [name]) ↔
      system.IsWay base names ∧ system.Holds (Path.descend base names) name := by
  rw [isWay_append, IsWay, IsWay, and_true]

/-- A way goes through directories. -/
theorem isDirectory_of_isWay
    (isWay : system.IsWay base (names ++ name :: rest)) :
    system.isDirectory (Path.descend base names) = true := by
  obtain ⟨location, isAt, -⟩ := (isWay_append.mp isWay).2.1
  exact isDirectory_iff.mpr ⟨location, isAt⟩

namespace Grows

/-- A directory still holds what it held. -/
theorem holds
    (grows : Grows before after)
    (holds : before.Holds base name) :
    after.Holds base name := by
  obtain ⟨location, isAt, isName⟩ := holds
  exact ⟨location, grows.directoryAt isAt, grows.mem_names isName⟩

/-- A way still leads where it led. -/
theorem isWay
    (grows : Grows before after)
    (isWay : before.IsWay base names) :
    after.IsWay base names := by
  induction names generalizing base with
  | nil => trivial
  | cons name names inductionHypothesis =>
      exact ⟨grows.holds isWay.1, inductionHypothesis isWay.2⟩

end Grows

end FileSystem
end ScriptHost
