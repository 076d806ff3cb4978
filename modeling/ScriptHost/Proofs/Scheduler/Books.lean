import ScriptHost.Proofs.Scheduler.Occupancy

/-!
# The books of a run

A run counts what it takes in, hands out and gives up, and remembers one failure. Its counts
are the numbers of those events, the number of slots that it has made is the largest number
of operations that were outstanding, and what it remembers is the first failure in time. It
asks for an operation only while nothing has failed and there is room.
-/

namespace ScriptHost
namespace Scheduler

variable {α κ ε : Type}

/-- The counts of some events, in which at most `peak` operations were outstanding. -/
def tally
    (events : List (Event α κ ε))
    (peak : Nat) : Report where
  admitted := (admissions events).length
  dispatched := (completions events).length
  callbackFailures := (callbackFailures events).length
  abandoned := (discards events).length
  peakOutstanding := peak

/-- A run has counted some events, and remembers the first failure among them. -/
structure Books
    (events : List (Event α κ ε))
    (run : Run κ ε) : Prop where
  report_eq : run.report = tally events run.slots.entries.size
  failure?_eq : run.failure? = (failures events).head?

namespace Books

variable {events : List (Event α κ ε)} {run : Run κ ε}

theorem begins
    (limit : Nat)
    (mailbox : MailboxId) :
    Books ([] : List (Event α κ ε)) (Run.start limit mailbox : Run κ ε) :=
  ⟨rfl, rfl⟩

/-- Nothing has failed when a run remembers no failure. -/
theorem failures_eq_nil
    (books : Books events run)
    (noFailure : run.failure? = none) :
    failures events = [] := by
  rw [books.failure?_eq] at noFailure
  exact List.head?_eq_none_iff.mp noFailure

/-- What a run returns is its first failure, or its counts. -/
theorem result_eq (books : Books events run) :
    run.result = (failures events).head?.elim (.ok run.report) .error := by
  rw [Run.result, books.failure?_eq]
  cases (failures events).head? <;> rfl

end Books

section Rounds

variable {mailbox : MailboxId} {held : κ → Option HandleKey}
variable {world next : World α κ ε} {run nextRun : Run κ ε}
variable {past events : List (Event α κ ε)} {limit : Nat} {tickets : List Ticket}

/-- A round keeps the books. -/
theorem Round.books
    (round : Round mailbox held world run events next nextRun)
    (occupancy : Occupancy limit past run.slots)
    (books : Books past run) :
    Books (past ++ events) nextRun := by
  have isReport := books.report_eq
  have isFailure := books.failure?_eq
  cases round with
  | waits list spares silent =>
      exact ⟨by simpa [tally] using isReport, by simpa using isFailure⟩
  | admits list admission spares room isNoted isHeld =>
      constructor
      · simp [Run.occupy, isReport, tally, occupancy.size_occupy, Event.admission?,
          Event.completion?, Event.callbackFailure?, Event.discarded?]
      · simpa [Run.occupy, Event.failure?] using isFailure
  | finishes list spares room =>
      constructor
      · simpa [tally, Event.admission?, Event.completion?, Event.callbackFailure?,
          Event.discarded?] using isReport
      · simpa [Event.failure?] using isFailure
  | refuses list error spares room =>
      constructor
      · simpa [Run.fail, tally, Event.admission?, Event.completion?, Event.callbackFailure?,
          Event.discarded?] using isReport
      · simp [Run.fail, room.1, books.failures_eq_nil room.1, Event.failure?]
  | delivers list completion result spares usesUp announced =>
      obtain ⟨slots, signals, isComplete, rfl, -⟩ := Run.complete?_eq_some_iff.mp announced
      obtain ⟨_, _, _, -, -, -, rfl⟩ := Slots.exists_vacate_of_complete? isComplete
      cases result with
      | ok =>
          constructor
          · simp [Run.record, isReport, tally, Event.callbackFailure?]
          · simpa [Run.record, Event.failure?] using isFailure
      | error error =>
          constructor
          · simp [Run.record, Run.fail, isReport, tally, Event.callbackFailure?]
          · cases failed : (failures past).head? <;>
              simp [Run.record, Run.fail, isFailure, failed, Event.failure?]
  | discards list callback spares usesUp =>
      exact ⟨by simp [Run.abandon, isReport, tally], by simpa [Run.abandon] using isFailure⟩

theorem Rounds.books
    {start : Board}
    (rounds : Rounds start.mailboxes.size held world run events next nextRun)
    (unused : ∀ id, start.unfired start.mailboxes.size id = [])
    (moment : Moment start limit past ⟨run.slots, world.board, tickets⟩)
    (books : Books past run) :
    Books (past ++ events) nextRun := by
  induction rounds generalizing past tickets with
  | none => rwa [List.append_nil]
  | more round _ inductionHypothesis =>
      rw [← List.append_assoc]
      obtain ⟨_, nextMoment⟩ := round.moment moment
      exact inductionHypothesis nextMoment (round.books (.ofMoment unused moment) books)

/-! ## When a run asks -/

/-- A host that is asked answers before anything else happens to the run. -/
private theorem eq_of_answered_eq
    {list : List (Move α)}
    {answer : Event α κ ε}
    {before rest : List (Event α κ ε)}
    (isAnswer : answer.isAsked = false)
    (split : Stretch.answered list answer = before ++ .asked :: rest) :
    before = [] ∧ rest = moves list ++ [answer] := by
  cases before with
  | nil => exact ⟨rfl, (List.cons.inj split).2.symm⟩
  | cons event before =>
      have isRest : moves list ++ [answer] = before ++ .asked :: rest := (List.cons.inj split).2
      have sameAsks := congrArg asks isRest
      have oneAnswer : asks [answer] = 0 := by simp [asks, isAnswer]
      have oneAsked : asks (.asked :: rest) = asks rest + 1 := List.countP_cons_of_pos rfl
      rw [asks_append, asks_append, asks_moves, oneAnswer, oneAsked] at sameAsks
      omega

private theorem asks_pos_of_split
    {before rest : List (Event α κ ε)}
    (split : events = before ++ .asked :: rest) :
    0 < asks events := by
  rw [split, asks, List.countP_pos_iff]
  exact ⟨.asked, List.mem_append_right _ List.mem_cons_self, rfl⟩

/-- A run asks while it remembers no failure and has room, and gets an answer. -/
theorem Round.room_of_asked
    {before rest : List (Event α κ ε)}
    (round : Round mailbox held world run events next nextRun)
    (split : events = before ++ .asked :: rest) :
    before = [] ∧ run.failure? = none ∧ run.slots.isFull = false ∧
      ∃ list production, rest = moves list ++ [.ofProduction production] := by
  have isAsked := asks_pos_of_split split
  cases round with
  | waits | delivers | discards => simp at isAsked
  | admits list admission spares room isNoted isHeld =>
      obtain ⟨isFirst, rfl⟩ := eq_of_answered_eq rfl split
      exact ⟨isFirst, room.1, room.2, list, .item admission, rfl⟩
  | finishes list spares room =>
      obtain ⟨isFirst, rfl⟩ := eq_of_answered_eq rfl split
      exact ⟨isFirst, room.1, room.2, list, .finished, rfl⟩
  | refuses list error spares room =>
      obtain ⟨isFirst, rfl⟩ := eq_of_answered_eq rfl split
      exact ⟨isFirst, room.1, room.2, list, .failed error, rfl⟩

/-- Whenever a run asks, nothing has failed until then and less is outstanding than its limit
allows. -/
theorem Rounds.room_of_asked
    {start : Board}
    {before rest : List (Event α κ ε)}
    (rounds : Rounds start.mailboxes.size held world run events next nextRun)
    (unused : ∀ id, start.unfired start.mailboxes.size id = [])
    (moment : Moment start limit past ⟨run.slots, world.board, tickets⟩)
    (books : Books past run)
    (split : events = before ++ .asked :: rest) :
    outstanding (past ++ before) < limit ∧ failures (past ++ before) = [] ∧
      ∃ list production later, rest = moves list ++ .ofProduction production :: later := by
  induction rounds generalizing past tickets before rest with
  | none => exact absurd split.symm (by simp)
  | @more world _ _ run _ _ first others round rounds inductionHypothesis =>
      have occupancy := Occupancy.ofMoment unused moment
      obtain ⟨_, nextMoment⟩ := round.moment moment
      rcases List.append_eq_append_iff.mp split with
        ⟨later, rfl, isLater⟩ | ⟨later, isFirst, isLater⟩
      · rw [← List.append_assoc]
        exact inductionHypothesis nextMoment (round.books occupancy books) isLater
      · cases later with
        | nil =>
            rw [List.append_nil] at isFirst
            subst isFirst
            rw [← List.append_nil (past ++ first)]
            exact inductionHypothesis nextMoment (round.books occupancy books) isLater.symm
        | cons event later =>
            obtain ⟨rfl, rfl⟩ := List.cons.inj isLater
            obtain ⟨rfl, noFailure, room, list, production, rfl⟩ := round.room_of_asked isFirst
            have notFull : run.slots.occupied < run.slots.limit := by
              simpa [Slots.isFull] using room
            rw [List.append_nil, ← occupancy.occupied_eq, ← occupancy.limit_eq]
            exact ⟨notFull, books.failures_eq_nil noFailure, list, production, others,
              List.append_assoc _ [_] others⟩

end Rounds
end Scheduler
end ScriptHost
