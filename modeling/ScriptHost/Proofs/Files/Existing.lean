import ScriptHost.Proofs.Files

/-!
# Targets that are there

Without leave to overwrite, a copy or a move to a path that leads to something fails and changes
nothing. What stands at a path and leads nowhere can only be a link; a copy goes through it to a
new file, and a move takes its place.
-/

namespace ScriptHost
namespace Files

open FileSystem

variable {system : FileSystem} {path source target : String} {place : Location}

/-- An action fails and changes nothing. -/
def FailsWhole
    {α : Type}
    (action : FileM α)
    (system : FileSystem) : Prop :=
  (∃ error, (action.run.run system).1 = .error error) ∧ (action.run.run system).2 = system

/-- The source is a file, and one can be written where the target leads to. -/
def CanCopy
    (system : FileSystem)
    (source target : String) : Prop :=
  system.isFile source = true ∧ ∃ place, system.writable target = .ok place

theorem leads_iff :
    system.leads path = true ↔ ∃ node, system.status path = .ok node := by
  rw [leads]
  cases system.status path with
  | error problem => simp [Except.isOk, Except.toBool]
  | ok node => simp [Except.isOk, Except.toBool]

/-- Only a link can stand at a path that leads nowhere. -/
theorem leads_of_linkStatus
    {node : Node}
    (stands : system.linkStatus path = .ok node)
    (noLink : ∀ text, node ≠ .link text) :
    system.leads path = true := by
  rw [linkStatus, bind_eq_ok_iff] at stands
  obtain ⟨goal, walks, finds⟩ := stands
  rw [leads_iff]
  refine ⟨node, bind_eq_ok_iff.mpr ⟨goal, walk_follow_of_keep ?_ walks, finds⟩⟩
  rintro directory name slash text rfl isLink
  rw [find_entry, isLink] at finds
  dsimp only at finds
  split_ifs at finds
  exact noLink text (Except.ok.inj finds).symm

/-- Where a path leads nowhere, nothing stands in the place of the file that is written there. -/
theorem node?_eq_none_of_writable
    (isWritable : system.writable path = .ok place)
    (notLeads : system.leads path = false) :
    system.node? place = none := by
  obtain ⟨directory, name, rfl, walks, nodeGrows⟩ := exists_place_of_writable isWritable
  have notFile (content : Bytes) : system.node? (directory ++ [name]) ≠ some (.file content) := by
    intro isFile
    rw [Bool.eq_false_iff, ne_eq, leads_iff] at notLeads
    exact notLeads ⟨_, bind_eq_ok_iff.mpr ⟨_, walks,
      find_eq_file_iff.mpr ⟨directory, name, rfl, isFile⟩⟩⟩
  have nodeGrows := nodeGrows []
  generalize system.node? (directory ++ [name]) = node? at notFile nodeGrows
  cases nodeGrows with
  | same => exact (notFile _ rfl).elim
  | created => rfl
  | rewritten old => exact (notFile old rfl).elim

theorem canCopy_iff :
    CanCopy system source target ↔
      ∃ count after, system.copyFile source target = .ok (count, after) := by
  simp only [CanCopy, isFile_iff, copyFile_eq_ok_iff]
  constructor
  · rintro ⟨⟨origin, isOrigin⟩, place, isPlace⟩
    exact ⟨_, _, origin, place, isOrigin, isPlace, rfl, rfl⟩
  · rintro ⟨_, _, origin, place, isOrigin, isPlace, -⟩
    exact ⟨⟨origin, isOrigin⟩, place, isPlace⟩

theorem failsWhole_copy_iff :
    FailsWhole (copy source target false) system ↔
      system.leads target = true ∨ ¬CanCopy system source target := by
  cases leads : system.leads target with
  | true =>
      have fails : FailsWhole (copy source target false) system :=
        ⟨⟨refusal target, by rw [run_copy_of_leads leads]⟩, by rw [run_copy_of_leads leads]⟩
      simp [fails]
  | false =>
      rw [FailsWhole, run_copy_of_allowed (.inr leads), run_copyContent, canCopy_iff]
      rcases system.copyFile source target with problem | ⟨count, after⟩ <;> simp

/-- Nothing that stands anywhere is touched by a copy without leave to overwrite. -/
theorem node?_of_copy
    {location : Location}
    {node : Node}
    (stands : system.node? location = some node) :
    ((copy source target false).run.run system).2.node? location = some node := by
  cases leads : system.leads target with
  | true => rwa [run_copy_of_leads leads]
  | false =>
      rw [run_copy_of_allowed (.inr leads), run_copyContent]
      rcases copies : system.copyFile source target with problem | ⟨count, after⟩
      · exact stands
      · obtain ⟨origin, place, -, isPlace, -, rfl⟩ := copyFile_eq_ok_iff.mp copies
        have isFree := node?_eq_none_of_writable isPlace leads
        have isOther : location ≠ place := by
          rintro rfl
          rw [isFree] at stands
          cases stands
        exact (node?_put_of_ne isOther).trans stands

/-- A move that fails whole is not renamed, and nothing is copied: a copy would show. -/
theorem failsWhole_moveWith_iff (rename : Renaming) :
    FailsWhole (moveWith rename source target false) system ↔
      system.leads target = true ∨
        ¬((∃ after, rename system source target = .ok after) ∨ CanCopy system source target) := by
  cases leads : system.leads target with
  | true =>
      have fails : FailsWhole (moveWith rename source target false) system :=
        ⟨⟨refusal target, by rw [run_moveWith_of_leads leads]⟩,
          by rw [run_moveWith_of_leads leads]⟩
      simp [fails]
  | false =>
      rw [FailsWhole, run_moveWith_of_allowed (.inr leads), canCopy_iff]
      rcases rename system source target with refused | renamed
      · rcases copies : system.copyFile source target with problem | ⟨count, copied⟩
        · simp
        · obtain ⟨origin, place, -, isPlace, -, rfl⟩ := copyFile_eq_ok_iff.mp copies
          have isFree := node?_eq_none_of_writable isPlace leads
          have isWritten := (fileAt_put_of_writable
            (system.copiedContent origin place) isPlace).2
          dsimp only
          rw [run_change]
          generalize system.put place (.file (system.copiedContent origin place)) = copied at *
          have isOther : copied ≠ system := by
            rintro rfl
            rw [isFree] at isWritten
            cases isWritten
          rcases copied.removeFile source with _ | _ <;> simp [isOther]
      · simp

/-- Without leave to overwrite, a copy or a move is whole in its failure if and only if the
target leads to something or nothing can be put there. Only a link can stand at the target and lead
nowhere. However a request to rename is answered, a target that leads to something is refused, and
a copy never touches what stands anywhere. -/
theorem sparesTarget_iff
    (rename : Renaming)
    (system : FileSystem)
    (source target : String) :
    (FailsWhole (copy source target false) system ↔
      system.leads target = true ∨ ¬CanCopy system source target) ∧
    (FailsWhole (moveWith rename source target false) system ↔
      system.leads target = true ∨
        ¬((∃ after, rename system source target = .ok after) ∨ CanCopy system source target)) ∧
    (∀ node, system.linkStatus target = .ok node → (∀ text, node ≠ .link text) →
      system.leads target = true) ∧
    (system.leads target = true →
      (copy source target false).run.run system = (.error (refusal target), system) ∧
      (moveWith rename source target false).run.run system =
        (.error (refusal target), system)) ∧
    ∀ location node, system.node? location = some node →
      ((copy source target false).run.run system).2.node? location = some node :=
  ⟨failsWhole_copy_iff, failsWhole_moveWith_iff rename, fun _ => leads_of_linkStatus,
    fun leads => ⟨run_copy_of_leads leads, run_moveWith_of_leads leads⟩,
    fun _ _ => node?_of_copy⟩

/-- A file next to a link. -/
def besideLink (text : String) : FileSystem where
  entries := [(["file"], .file [120]), (["link"], .link text)]
  current := []

/-- A link that leads to a file keeps a file from being copied or moved onto it. -/
theorem leadingLink_sparesTarget :
    FailsWhole (copy "file" "link" false) (besideLink "file") ∧
      FailsWhole (moveWith FileSystem.rename "file" "link" false) (besideLink "file") := by
  obtain ⟨copies, moves, -⟩ :=
    sparesTarget_iff FileSystem.rename (besideLink "file") "file" "link"
  exact ⟨copies.mpr (.inl rfl), moves.mpr (.inl rfl)⟩

/-- A file is copied through a link that leads nowhere, and moved into its place. -/
theorem not_sparesTarget_strayLink :
    (besideLink "nowhere").linkStatus "link" = .ok (.link "nowhere") ∧
      ¬FailsWhole (copy "file" "link" false) (besideLink "nowhere") ∧
      ¬FailsWhole (move "file" "link" false) (besideLink "nowhere") ∧
      ((move "file" "link" false).run.run (besideLink "nowhere")).2.node? ["link"] =
        some (.file [120]) := by
  refine ⟨rfl, ?_, ?_, rfl⟩
  · rintro ⟨⟨error, fails⟩, -⟩
    cases fails
  · rintro ⟨⟨error, fails⟩, -⟩
    cases fails

end Files
end ScriptHost
