import ScriptHost.Files
import ScriptHost.Proofs.FileSystem.Requests

/-!
# Runs of actions on files

An action that is run ends with an answer or a failure and leaves a file system behind. A failed
request leaves it as it was.
-/

namespace ScriptHost
namespace Files

variable {system : FileSystem} {action path source target : String}

/-- An action on files is done in the system that the action before it has left, if that did not
fail. -/
theorem run_bind
    {α β σ : Type}
    (first : ExceptT FileError (StateM σ) α)
    (next : α → ExceptT FileError (StateM σ) β)
    (before : σ) :
    (first >>= next).run.run before =
      match first.run.run before with
      | (.ok value, after) => (next value).run.run after
      | (.error error, after) => (.error error, after) := by
  rw [ExceptT.run_bind, StateT.run_bind]
  rcases first.run.run before with ⟨_ | _, after⟩ <;> rfl

theorem run_get (system : FileSystem) :
    (get : FileM FileSystem).run.run system = (.ok system, system) :=
  rfl

/-- A request that only asks leaves the system as it is. -/
theorem run_ask
    {α : Type}
    (request : FileSystem → Except SystemError α) :
    (ask action path request).run.run system =
      ((request system).mapError (FileError.mk action path), system) := by
  rw [ask, run_bind, run_get]
  dsimp only
  rcases request system with _ | _ <;> rfl

/-- A request that changes the system does so if it does not fail. -/
theorem run_change (request : FileSystem → Except SystemError FileSystem) :
    (change action path request).run.run system =
      match request system with
      | .ok after => (.ok (), after)
      | .error problem => (.error ⟨action, path, problem⟩, system) := by
  rw [change, run_bind, run_ask]
  rcases request system with _ | _ <;> rfl

theorem run_leadsToDirectory :
    (leadsToDirectory path).run.run system = (.ok (system.isDirectory path), system) :=
  rfl

theorem run_makeDirectory :
    (makeDirectory path).run.run system =
      ((system.makeDirectories FileSystem.pathLimit path).1.mapError
          (FileError.mk "failed to create" path),
        (system.makeDirectories FileSystem.pathLimit path).2) := by
  rw [makeDirectory, changePartly, run_bind, run_get]
  dsimp only
  rcases system.makeDirectories FileSystem.pathLimit path with ⟨_ | _, after⟩ <;> rfl

/-- Content is copied as the system copies a file. -/
theorem run_copyContent :
    (copyContent action source target).run.run system =
      match system.copyFile source target with
      | .ok (count, after) => (.ok count, after)
      | .error problem => (.error ⟨action, source, problem⟩, system) := by
  rw [copyContent, run_bind, run_ask]
  rcases system.copyFile source target with _ | _ <;> rfl

/-- The failure of an action whose target is there. -/
def refusal (target : String) : FileError :=
  ⟨"refusing to overwrite", target, .destinationExists⟩

/-- A target that leads somewhere is refused unless it may be overwritten. -/
theorem run_refuseExisting_of_leads (leads : system.leads target = true) :
    (refuseExisting target false).run.run system = (.error (refusal target), system) := by
  rw [refuseExisting, run_bind, run_get]
  dsimp only
  rw [leads]
  rfl

/-- A target that may be overwritten, or leads nowhere, is not refused. -/
theorem run_refuseExisting_of_allowed
    {overwrite : Bool}
    (isAllowed : overwrite = true ∨ system.leads target = false) :
    (refuseExisting target overwrite).run.run system = (.ok (), system) := by
  rw [refuseExisting, run_bind, run_get]
  dsimp only
  rcases isAllowed with rfl | notLeads
  · rfl
  · rw [notLeads, Bool.and_false]
    rfl

/-- Nothing is copied to a target that is refused. -/
theorem run_copy_of_leads (leads : system.leads target = true) :
    (copy source target false).run.run system = (.error (refusal target), system) := by
  rw [copy, run_bind, run_refuseExisting_of_leads leads]

/-- What is copied to a target that is not refused is the content. -/
theorem run_copy_of_allowed
    {overwrite : Bool}
    (isAllowed : overwrite = true ∨ system.leads target = false) :
    (copy source target overwrite).run.run system =
      (copyContent "failed to copy" source target).run.run system := by
  rw [copy, run_bind, run_refuseExisting_of_allowed isAllowed]

/-- Nothing is moved to a target that is refused. -/
theorem run_moveWith_of_leads
    {rename : Renaming}
    (leads : system.leads target = true) :
    (moveWith rename source target false).run.run system =
      (.error (refusal target), system) := by
  rw [moveWith, run_bind, run_refuseExisting_of_leads leads]

/-- What cannot be renamed is copied and removed. -/
theorem run_moveWith_of_allowed
    {rename : Renaming}
    {overwrite : Bool}
    (isAllowed : overwrite = true ∨ system.leads target = false) :
    (moveWith rename source target overwrite).run.run system =
      match rename system source target with
      | .ok after => (.ok (), after)
      | .error _ =>
          match system.copyFile source target with
          | .ok (_, copied) =>
              (change "failed to move" source
                fun system => system.removeFile source).run.run copied
          | .error problem => (.error ⟨"failed to move", source, problem⟩, system) := by
  rw [moveWith, run_bind, run_refuseExisting_of_allowed isAllowed]
  dsimp only
  rw [run_bind, run_get]
  dsimp only
  rcases rename system source target with _ | _
  · dsimp only
    rw [run_bind, run_copyContent]
    rcases system.copyFile source target with _ | _ <;> rfl
  · rfl

end Files
end ScriptHost
