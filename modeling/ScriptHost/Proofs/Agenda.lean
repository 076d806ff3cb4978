import ScriptHost.Agenda
import Mathlib.Data.List.Perm.Basic

/-!
# Work on an agenda

Work is on an agenda from when an appointment is made for it until its time has come. In
between it stays there, whatever else comes and goes.
-/

namespace ScriptHost
namespace Agenda

variable {ω : Type}

/-- The work that is on an agenda. -/
def works (agenda : Agenda ω) : List ω :=
  agenda.appointments.map Appointment.work

theorem place_perm
    (appointment : Appointment ω)
    (appointments : List (Appointment ω)) :
    (place appointment appointments).Perm (appointment :: appointments) := by
  induction appointments with
  | nil => exact .refl _
  | cons first rest inductionHypothesis =>
      unfold place
      split
      · exact .refl _
      · exact (inductionHypothesis.cons first).trans (.swap ..)

theorem works_add_perm
    (agenda : Agenda ω)
    (delay : Nat)
    (work : ω) :
    (agenda.add delay work).works.Perm (work :: agenda.works) :=
  (place_perm _ _).map _

/-- Whoever looks for other work does not notice an appointment. -/
theorem filter_works_add
    {isSought : ω → Bool}
    {work : ω}
    (agenda : Agenda ω)
    (delay : Nat)
    (notSought : isSought work = false) :
    (agenda.add delay work).works.filter isSought = agenda.works.filter isSought := by
  have notNoticed (appointments : List (Appointment ω)) :
      ((place ⟨agenda.now + delay, work⟩ appointments).map Appointment.work).filter isSought =
        (appointments.map Appointment.work).filter isSought := by
    induction appointments with
    | nil => exact List.filter_cons_of_neg (by simp [notSought])
    | cons first rest inductionHypothesis =>
        unfold place
        split
        · exact List.filter_cons_of_neg (by simp [notSought])
        · rw [List.map_cons, List.map_cons, List.filter_cons, List.filter_cons,
            inductionHypothesis]
  exact notNoticed agenda.appointments

@[simp] theorem works_advanceTo
    (agenda : Agenda ω)
    (time : Nat) :
    (agenda.advanceTo time).works = agenda.works := rfl

/-- What comes next was on the agenda, and the rest stays there. -/
theorem works_of_next?
    {agenda later : Agenda ω}
    {work : ω}
    (isNext : agenda.next? = some (work, later)) :
    agenda.works = work :: later.works := by
  unfold next? at isNext
  split at isNext
  · cases isNext
  next first rest appointments =>
    cases isNext
    rw [works, appointments]
    rfl

/-- Something comes next as long as there is work. -/
theorem exists_next?
    {agenda : Agenda ω}
    (busy : agenda.works ≠ []) :
    ∃ work later, agenda.next? = some (work, later) := by
  unfold next?
  split
  next none => exact absurd (congrArg (List.map Appointment.work) none) busy
  next first rest _ => exact ⟨first.work, _, rfl⟩

end Agenda
end ScriptHost
