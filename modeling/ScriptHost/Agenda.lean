/-!
# Agendas

An agenda holds what is to happen later. Time is counted in nanoseconds and passes
only when the agenda is asked for what comes next: earlier appointments come first,
and those made for one time come in the order in which they were made.
-/

namespace ScriptHost

/-- Something that is to happen at a time. -/
structure Appointment (ω : Type) where
  due : Nat
  work : ω

/-- The time and the appointments, those that come earlier first. -/
structure Agenda (ω : Type) where
  now : Nat
  appointments : List (Appointment ω)

namespace Agenda

variable {ω : Type}

/-- The agenda of a beginning without appointments. -/
def empty : Agenda ω :=
  ⟨0, []⟩

instance : Inhabited (Agenda ω) := ⟨empty⟩

/-- Put an appointment behind all that are not later. -/
def place (appointment : Appointment ω) : List (Appointment ω) → List (Appointment ω)
  | [] => [appointment]
  | first :: rest =>
      if appointment.due < first.due then appointment :: first :: rest
      else first :: place appointment rest

/-- Make an appointment for a time from now. -/
def add
    (agenda : Agenda ω)
    (delay : Nat)
    (work : ω) : Agenda ω :=
  { agenda with appointments := place ⟨agenda.now + delay, work⟩ agenda.appointments }

/-- Wait for what comes next. -/
def next? (agenda : Agenda ω) : Option (ω × Agenda ω) :=
  match agenda.appointments with
  | [] => none
  | first :: rest => some (first.work, ⟨max agenda.now first.due, rest⟩)

/-- What comes next, unless it comes after a time. -/
def nextUntil?
    (agenda : Agenda ω)
    (limit : Nat) : Option (ω × Agenda ω) :=
  match agenda.appointments with
  | [] => none
  | first :: _ => if first.due ≤ limit then agenda.next? else none

/-- Let time pass without waiting for appointments. -/
def advanceTo
    (agenda : Agenda ω)
    (time : Nat) : Agenda ω :=
  { agenda with now := max agenda.now time }

@[simp] theorem next?_empty : (empty : Agenda ω).next? = none := rfl

end Agenda
end ScriptHost
