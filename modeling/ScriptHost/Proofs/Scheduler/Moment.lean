import ScriptHost.Proofs.Scheduler.Rounds
import ScriptHost.Proofs.Scheduler.CompletionOrder
import ScriptHost.Proofs.Scheduler.Signals

/-!
# Moments of a run

Seen from its slots, a run goes from moment to moment, and between two of them exactly one
event happens: the host does something, a settlement goes one step further, an operation is
put into a slot, or an operation is handed out of one. Every beginning of what happens in a
run ends in a moment, so that what holds at every moment holds all the time. The slots of a
run are a table at work: from moment to moment they take a step of its course.
-/

namespace ScriptHost
namespace Scheduler

variable {α κ ε : Type}

/-- The host does something on its own: nothing is taken in or handed out, and the mailbox
of the run is not touched. -/
def Event.IsQuiet
    (mailbox : MailboxId)
    (event : Event α κ ε) : Prop :=
  event.Spares mailbox ∧ event.admission? = none ∧ event.completion? = none

/-- A table after something that the host does on its own. -/
def Desk.see (desk : Desk κ) : Event α κ ε → Desk κ
  | .moved move => desk.move move
  | _ => desk

theorem Desk.exists_see
    (desk : Desk κ)
    (event : Event α κ ε) :
    ∃ tickets, desk.see event = ⟨desk.slots, event.onBoard desk.board, tickets⟩ := by
  cases event <;> exact ⟨_, rfl⟩

/-- What has happened in a run so far, with its table at this moment. The run opens its
mailbox on a board and puts at most `limit` operations into its slots. -/
inductive Moment
    (start : Board)
    (limit : Nat) :
    List (Event α κ ε) → Desk κ → Prop
  | begins : Moment start limit [] (.opening limit start)
  | happens
      {events : List (Event α κ ε)}
      {desk : Desk κ}
      {event : Event α κ ε}
      (moment : Moment start limit events desk)
      (isQuiet : event.IsQuiet start.mailboxes.size) :
      Moment start limit (events ++ [event]) (desk.see event)
  | takesIn
      {events : List (Event α κ ε)}
      {desk : Desk κ}
      {admission : Admission κ}
      (moment : Moment start limit events desk)
      (room : desk.slots.isFull = false)
      (isHeld : desk.board.Holds admission.operation) :
      Moment start limit (events ++ [.admitted admission]) (desk.takeIn admission)
  | handsOut
      {events : List (Event α κ ε)}
      {desk : Desk κ}
      {next : Slots κ}
      {completion : Completion κ}
      {signals : List Nat}
      (moment : Moment start limit events desk)
      (announced : desk.slots.complete? desk.board desk.signals =
        some (completion, next, signals)) :
      Moment start limit (events ++ [.dispatched completion]) (desk.handOut next signals)

namespace Moment

variable {start : Board} {limit : Nat} {desk : Desk κ}

/-- Every beginning of what has happened ends in a moment. -/
theorem ofPrefix
    {past events : List (Event α κ ε)}
    (moment : Moment start limit events desk)
    (isPrefix : past <+: events) :
    ∃ earlier, Moment start limit past earlier := by
  induction moment with
  | begins =>
      rw [List.prefix_nil.mp isPrefix]
      exact ⟨_, .begins⟩
  | happens moment isQuiet inductionHypothesis =>
      rcases List.prefix_concat_iff.mp isPrefix with rfl | earlier
      · exact ⟨_, .happens moment isQuiet⟩
      · exact inductionHypothesis earlier
  | takesIn moment room isHeld inductionHypothesis =>
      rcases List.prefix_concat_iff.mp isPrefix with rfl | earlier
      · exact ⟨_, .takesIn moment room isHeld⟩
      · exact inductionHypothesis earlier
  | handsOut moment announced inductionHypothesis =>
      rcases List.prefix_concat_iff.mp isPrefix with rfl | earlier
      · exact ⟨_, .handsOut moment announced⟩
      · exact inductionHypothesis earlier

/-! ## Moments on the course of a table -/

/-- The table stays at the mailbox that the run has opened. -/
theorem mailbox_eq
    {events : List (Event α κ ε)}
    (moment : Moment start limit events desk) :
    desk.slots.mailbox = start.mailboxes.size := by
  induction moment with
  | begins => rfl
  | @happens events desk event moment isQuiet inductionHypothesis =>
      obtain ⟨tickets, seen⟩ := desk.exists_see event
      rw [seen]
      exact inductionHypothesis
  | takesIn moment room isHeld inductionHypothesis => exact inductionHypothesis
  | handsOut moment announced inductionHypothesis =>
      obtain ⟨index, slot, outcome, -, -, -, rfl⟩ := Slots.exists_vacate_of_complete? announced
      exact inductionHypothesis

/-- What a run has come to is on the course of a table. -/
theorem exists_course
    {events : List (Event α κ ε)}
    (moment : Moment start limit events desk) :
    ∃ past, Desk.Course (.opening limit start) past desk := by
  induction moment with
  | begins => exact ⟨[], .begins⟩
  | @happens events desk event moment isQuiet inductionHypothesis =>
      obtain ⟨past, course⟩ := inductionHypothesis
      cases event with
      | moved move => exact ⟨_, course.goesOn (.moves move (moment.mailbox_eq ▸ isQuiet.1))⟩
      | _ => exact ⟨past, course⟩
  | takesIn moment room isHeld inductionHypothesis =>
      obtain ⟨past, course⟩ := inductionHypothesis
      exact ⟨_, course.goesOn (.takesIn _ room isHeld)⟩
  | handsOut moment announced inductionHypothesis =>
      obtain ⟨past, course⟩ := inductionHypothesis
      exact ⟨_, course.goesOn (.handsOut announced)⟩

/-- The table of a run is in order at every moment. -/
theorem isInOrder
    {events : List (Event α κ ε)}
    (unused : ∀ id, start.unfired start.mailboxes.size id = [])
    (moment : Moment start limit events desk) :
    desk.IsInOrder := by
  obtain ⟨past, course⟩ := moment.exists_course
  exact course.isInOrder (Desk.isInOrder_opening unused)

/-! ## From moments to rounds -/

/-- What the host does on its own leads from moment to moment. -/
theorem quietly
    {events more : List (Event α κ ε)}
    (moment : Moment start limit events desk)
    (isQuiet : ∀ event ∈ more, event.IsQuiet start.mailboxes.size) :
    ∃ tickets, Moment start limit (events ++ more)
      ⟨desk.slots, boardAfter desk.board more, tickets⟩ := by
  induction more generalizing events desk with
  | nil =>
      rw [List.append_nil]
      exact ⟨desk.tickets, moment⟩
  | cons event more inductionHypothesis =>
      have next := moment.happens (isQuiet event List.mem_cons_self)
      obtain ⟨tickets, seen⟩ := desk.exists_see event
      rw [seen] at next
      obtain ⟨later, rest⟩ :=
        inductionHypothesis next fun other member => isQuiet other (.tail _ member)
      rw [List.append_assoc] at rest
      exact ⟨later, rest⟩

end Moment

section Rounds

variable {start : Board} {limit : Nat} {held : κ → Option HandleKey}
variable {world next : World α κ ε} {run nextRun : Run κ ε}
variable {past events : List (Event α κ ε)} {tickets : List Ticket}

private theorem isQuiet_moves
    {mailbox : MailboxId}
    {list : List (Move α)}
    (spares : ∀ move ∈ list, move.Spares mailbox) :
    ∀ event ∈ (moves list : List (Event α κ ε)), event.IsQuiet mailbox := by
  intro event member
  obtain ⟨move, isMember, rfl⟩ := List.mem_map.mp member
  exact ⟨spares move isMember, rfl, rfl⟩

private theorem isQuiet_moves_concat
    {mailbox : MailboxId}
    {list : List (Move α)}
    {last : Event α κ ε}
    (spares : ∀ move ∈ list, move.Spares mailbox)
    (isQuiet : last.IsQuiet mailbox) :
    ∀ event ∈ moves list ++ [last], event.IsQuiet mailbox := by
  intro event member
  rcases List.mem_append.mp member with isMove | isLast
  · exact isQuiet_moves spares event isMove
  · rwa [List.mem_singleton.mp isLast]

/-- A round leads from moment to moment. -/
theorem Round.moment
    (round : Round start.mailboxes.size held world run events next nextRun)
    (moment : Moment start limit past ⟨run.slots, world.board, tickets⟩) :
    ∃ tickets, Moment start limit (past ++ events) ⟨nextRun.slots, next.board, tickets⟩ := by
  cases round with
  | waits list spares _ =>
      rw [World.board_noteAll]
      exact moment.quietly (List.forall_mem_cons.mpr ⟨⟨trivial, rfl, rfl⟩, isQuiet_moves spares⟩)
  | admits list admission spares room isNoted isHeld =>
      subst isNoted
      have isQuiet : ∀ event ∈ (.asked :: moves list : List (Event α κ ε)),
          event.IsQuiet start.mailboxes.size :=
        List.forall_mem_cons.mpr ⟨⟨trivial, rfl, rfl⟩, isQuiet_moves spares⟩
      obtain ⟨tickets, asked⟩ := moment.quietly isQuiet
      simp only [World.board_noteAll, Stretch.boardAfter_answered] at isHeld ⊢
      have taken := asked.takesIn room.2 isHeld
      rw [List.append_assoc] at taken
      exact ⟨_, taken⟩
  | finishes list spares room =>
      rw [World.board_noteAll]
      refine moment.quietly (List.forall_mem_cons.mpr ⟨⟨trivial, rfl, rfl⟩, ?_⟩)
      exact isQuiet_moves_concat spares ⟨trivial, rfl, rfl⟩
  | refuses list error spares room =>
      rw [World.board_noteAll]
      refine moment.quietly (List.forall_mem_cons.mpr ⟨⟨trivial, rfl, rfl⟩, ?_⟩)
      exact isQuiet_moves_concat spares ⟨trivial, rfl, rfl⟩
  | delivers list completion result spares usesUp announced =>
      obtain ⟨slots, signals, isComplete, rfl, rfl⟩ := Run.complete?_eq_some_iff.mp announced
      have handed := moment.handsOut isComplete
      have isQuiet : ∀ event ∈ (moves list ++ [.returned result] : List (Event α κ ε)),
          event.IsQuiet start.mailboxes.size :=
        isQuiet_moves_concat spares ⟨trivial, rfl, rfl⟩
      obtain ⟨tickets, rest⟩ := handed.quietly isQuiet
      rw [List.append_assoc] at rest
      rw [World.board_noteAll, Run.slots_record]
      exact ⟨tickets, rest⟩
  | discards list callback spares usesUp =>
      rw [World.board_noteAll]
      exact moment.quietly (List.forall_mem_cons.mpr ⟨⟨trivial, rfl, rfl⟩, isQuiet_moves spares⟩)

theorem Rounds.moment
    (rounds : Rounds start.mailboxes.size held world run events next nextRun)
    (moment : Moment start limit past ⟨run.slots, world.board, tickets⟩) :
    ∃ tickets, Moment start limit (past ++ events) ⟨nextRun.slots, next.board, tickets⟩ := by
  induction rounds generalizing past tickets with
  | none =>
      rw [List.append_nil]
      exact ⟨tickets, moment⟩
  | more round _ inductionHypothesis =>
      obtain ⟨tickets, moment⟩ := round.moment moment
      rw [← List.append_assoc]
      exact inductionHypothesis moment

/-- From the start of a run, its rounds lead to a moment. -/
theorem Rounds.exists_moment
    (rounds : Rounds start.mailboxes.size held { world with board := start.openMailbox.1 }
      (Run.start limit start.mailboxes.size) events next nextRun) :
    ∃ tickets, Moment start (max limit 1) events ⟨nextRun.slots, next.board, tickets⟩ := by
  have first : Moment start (max limit 1) ([] : List (Event α κ ε))
      (.opening (max limit 1) start) := .begins
  exact rounds.moment first

/-- The slots and the board of a run are a table at work: from the start of the run, its rounds
take the table along a course. -/
theorem Rounds.exists_course
    (rounds : Rounds start.mailboxes.size held { world with board := start.openMailbox.1 }
      (Run.start limit start.mailboxes.size) events next nextRun) :
    ∃ past tickets, Desk.Course (.opening (max limit 1) start) past
      ⟨nextRun.slots, next.board, tickets⟩ := by
  obtain ⟨tickets, moment⟩ := rounds.exists_moment
  obtain ⟨past, course⟩ := moment.exists_course
  exact ⟨past, tickets, course⟩

end Rounds

end Scheduler
end ScriptHost
