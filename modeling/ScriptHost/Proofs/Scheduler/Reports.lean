import ScriptHost.Proofs.Scheduler.Books
import ScriptHost.Proofs.Scheduler.Delivery

/-!
# Bounds and reports of a run

However operations settle and whatever fails, a run never holds more operations than its
limit allows, and what it reports is what happened: its counts if nothing failed, and the
first failure otherwise. After a failure it asks for no more, and the jobs that it did not
launch by then are given up.
-/

namespace ScriptHost
namespace Scheduler

variable {α κ ε : Type}

/-- When nothing is outstanding, the callbacks of all operations that were taken in were
handed out, and no others. -/
theorem Ledger.callbacks_perm_of_isEmpty
    {start : Board}
    {events : List (Event α κ ε)}
    {desk : Desk κ}
    (ledger : Ledger start events desk)
    (isEmpty : desk.slots.isEmpty = true) :
    ((completions events).map Completion.callback).Perm
      ((admissions events).map Admission.callback) := by
  have isReady : ∀ sequence ∈ List.range (admissions events).length,
      (Option.map Completion.callback ∘ completionOf desk.board (admissions events)) sequence =
        (admissions events)[sequence]?.map Admission.callback := by
    intro sequence inRange
    have member := (ledger.completionOrder_perm_of_isEmpty isEmpty).mem_iff.mpr inRange
    obtain ⟨completion, isCompletion⟩ :=
      Option.isSome_iff_exists.mp (ledger.isSome_completionOf member)
    obtain ⟨admission, outcome, found, -, rfl⟩ := completionOf_eq_some_iff.mp isCompletion
    rw [Function.comp_apply, isCompletion, found]
    rfl
  have inOrder : (List.range (admissions events).length).map
        (fun sequence => (admissions events)[sequence]?.map Admission.callback) =
      ((admissions events).map Admission.callback).map some := by
    apply List.ext_getElem
    · simp
    · intro sequence inRange _
      rw [List.length_map, List.length_range] at inRange
      simp [List.getElem?_eq_getElem inRange]
  have delivered := (ledger.completions_perm_of_isEmpty isEmpty).map
    (Option.map Completion.callback)
  rw [List.map_map, List.map_map, List.map_congr_left isReady, inOrder] at delivered
  refine (List.map_perm_map_iff (Option.some_injective κ)).mp ?_
  rwa [List.map_map]

/-- The bounds of a run that may hold `limit` operations at a time, and held at most `peak`
of them. `moments` is told of every moment of the run, with the table as it is then. -/
structure StaysWithin
    (start : Board)
    (limit : Nat)
    (events : List (Event α κ ε))
    (peak : Nat) : Prop where
  moments : ∀ past, past <+: events → ∃ desk,
    Moment start limit past desk ∧
    desk.slots.occupied = outstanding past ∧ outstanding past ≤ limit ∧
    desk.slots.entries.size ≤ peak ∧
    ∀ earlier admission, past = earlier ++ [.admitted admission] →
      ∃ index, desk.slots.slotAt? index = some ⟨admission.operation, admission.type,
        admission.callback, (admissions earlier).length⟩
  asks : ∀ past rest, events = past ++ .asked :: rest →
    outstanding past < limit ∧ failures past = [] ∧
    ∃ list production later, rest = moves list ++ .ofProduction production :: later
  isPeak : IsPeak events peak

section Jobs

variable {m : Type → Type} {source : Source m κ ε}

/-- How a run divides its source. Of a list of jobs the first ones are launched in order,
each once and on its own terms, and their callbacks are dispatched. The others are never
launched, and their callbacks are given up. There are others only if something failed. -/
def Source.Divides
    (source : Source m κ ε)
    (events : List (Event α κ ε)) : Prop :=
  match source with
  | .producer _ => discards events = []
  | .jobs list =>
      ∃ launched rest, list = launched ++ rest ∧
        (admissions events).map Admission.terms = launched.map Job.terms ∧
        asks events = launched.length ∧
        ((completions events).map Completion.callback).Perm (launched.map Job.callback) ∧
        discards events = rest.map Job.callback ∧
        (failures events = [] → rest = [])

theorem Source.Divides.length_eq
    {list : List (Job m κ)}
    {events : List (Event α κ ε)}
    (divides : (Source.jobs list : Source m κ ε).Divides events)
    (noFailure : failures events = []) :
    (admissions events).length = list.length := by
  obtain ⟨launched, rest, rfl, sameTerms, -, -, -, noneOver⟩ := divides
  have sameLength := congrArg List.length sameTerms
  rw [List.length_map, List.length_map] at sameLength
  rw [sameLength, noneOver noFailure, List.append_nil]

theorem Source.Accounts.divides
    {events : List (Event α κ ε)}
    (accounts : source.Accounts events)
    (launchesOnce : source.LaunchesOnce events)
    (callbacks : ((completions events).map Completion.callback).Perm
      ((admissions events).map Admission.callback))
    (noneGivenUp : failures events = [] → discards events = []) :
    source.Divides events := by
  cases source with
  | producer produce => exact accounts
  | jobs list =>
      obtain ⟨launched, rest, rfl, sameTerms, givenUp⟩ := accounts
      have sameCallbacks : (admissions events).map Admission.callback =
          launched.map Job.callback := by
        have second := congrArg (List.map Prod.snd) sameTerms
        rwa [List.map_map, List.map_map] at second
      have sameLength := congrArg List.length sameTerms
      rw [List.length_map, List.length_map] at sameLength
      refine ⟨launched, rest, rfl, sameTerms, ?_, sameCallbacks ▸ callbacks, givenUp, ?_⟩
      · rw [← sameLength]
        exact launchesOnce
      · intro noFailure
        rw [noneGivenUp noFailure] at givenUp
        exact List.map_eq_nil_iff.mp givenUp.symm

/-- What a run returns, told by what happened in it. -/
structure Source.Reports
    (source : Source m κ ε)
    (events : List (Event α κ ε))
    (result : Except ε Report) : Prop where
  ofNoFailure : failures events = [] → ∃ report, result = .ok report ∧
    report.admitted = (admissions events).length ∧
    report.dispatched = report.admitted ∧
    report.callbackFailures = 0 ∧ report.abandoned = 0 ∧
    ∀ list, source = .jobs list → report.admitted = list.length
  ofFailure : ∀ error later, failures events = error :: later → result = .error error
  asks : ∀ past rest, events = past ++ rest → failures past ≠ [] → .asked ∉ rest
  divides : source.Divides events

end Jobs

section Runs

open Stateful

variable {m : Type → Type} [Monad m] {σ : Type} [Stateful m σ]
variable {env : Environment m κ ε} {shows : σ → World α κ ε → Prop}
variable {held : κ → Option HandleKey} {source : Source m κ ε}
variable {world : World α κ ε} {before after : σ} {limit fuel : Nat}

/-- A run holds no more operations at a time than its limit allows, and at least one is
allowed. It asks for one only while there is room and nothing has failed, and what it gets
stands in a slot before anything is dispatched. The peak that it reports is the largest
number of operations that were outstanding, and no more slots than that are ever made. -/
theorem run_bounds_outstanding
    {result? : Option (Except ε Report)}
    (chronicle : Chronicle env shows world.board.mailboxes.size held)
    (answers : source.Chronicled shows world.board.mailboxes.size)
    (unused : ∀ id, world.board.unfired world.board.mailboxes.size id = [])
    (isShown : shows before world)
    (returned : Returns (source.run env limit fuel) before result? after) :
    ∃ events last lastRun,
      Rounds world.board.mailboxes.size held { world with board := world.board.openMailbox.1 }
        (Run.start limit world.board.mailboxes.size) events last lastRun ∧
      shows after last ∧ last.history = world.history ++ events ∧
      (∀ result, result? = some result → result = lastRun.result) ∧
      StaysWithin world.board (max limit 1) events lastRun.report.peakOutstanding := by
  obtain ⟨events, last, lastRun, rounds, isShown, ended⟩ :=
    chronicle.rounds_of_run answers isShown returned
  have first : Moment world.board (max limit 1) ([] : List (Event α κ ε))
      (.opening (max limit 1) world.board) := .begins
  obtain ⟨tickets, moment⟩ := rounds.moment first
  have books := rounds.books unused first (.begins limit _)
  have isPeak : IsPeak events lastRun.report.peakOutstanding := by
    rw [books.report_eq]
    exact (Occupancy.ofMoment unused moment).isPeak
  refine ⟨events, last, lastRun, rounds, isShown, rounds.history_eq,
    fun result same => (ended result same).2.1, { moments := ?_, asks := ?_, isPeak }⟩
  · intro past isPrefix
    obtain ⟨desk, pastMoment⟩ := moment.ofPrefix isPrefix
    have occupancy := Occupancy.ofMoment unused pastMoment
    refine ⟨desk, pastMoment, occupancy.occupied_eq,
      occupancy.occupied_eq ▸ occupancy.occupied_le, ?_, ?_⟩
    · obtain ⟨highest, isEarlier, same⟩ := occupancy.isPeak.1
      exact isPeak.2 ⟨highest, isEarlier.trans isPrefix, same⟩
    · rintro earlier admission rfl
      exact pastMoment.exists_slotAt?_of_admitted unused
  · intro past rest split
    exact rounds.room_of_asked unused first (.begins limit _) split

theorem crossedRun_bounds_outstanding :
    ∃ events last lastRun,
      Rounds (Rehearsal.operationsOf crossedPlan).mailboxes.size some
        { Rehearsal.worldOf crossedPlan .empty with
          board := (Rehearsal.operationsOf crossedPlan).openMailbox.1 }
        (Run.start 2 (Rehearsal.operationsOf crossedPlan).mailboxes.size) events last lastRun ∧
      Rehearsal.Shows crossedPlan crossedRun.2 last ∧
      last.history = (Rehearsal.worldOf crossedPlan .empty).history ++ events ∧
      (∀ result, crossedRun.1 = some result → result = lastRun.result) ∧
      StaysWithin (Rehearsal.operationsOf crossedPlan) (max 2 1) events
        lastRun.report.peakOutstanding :=
  run_bounds_outstanding (Rehearsal.chronicle crossedPlan _)
    (Rehearsal.chronicled_producer (by decide) _)
    (Rehearsal.unfired_operationsOf crossedPlan _)
    (Rehearsal.shows_stageOf (by decide))
    (returns_run _ (Rehearsal.stageOf crossedPlan .empty))

/-- A run reports what happened. If nothing failed, it counts every operation that it was
given as taken in and dispatched, all jobs of a list among them; otherwise it returns what
failed first, whatever failed later. After a failure it asks for nothing and launches
nothing. -/
theorem run_reports_first_failure
    {result : Except ε Report}
    (chronicle : Chronicle env shows world.board.mailboxes.size held)
    (answers : source.Chronicled shows world.board.mailboxes.size)
    (unused : ∀ id, world.board.unfired world.board.mailboxes.size id = [])
    (isShown : shows before world)
    (returned : Returns (source.run env limit fuel) before (some result) after) :
    ∃ events last, shows after last ∧ last.history = world.history ++ events ∧
      source.Reports events result := by
  obtain ⟨events, last, lastRun, rounds, isShown, ended⟩ :=
    chronicle.rounds_of_run answers isShown returned
  obtain ⟨isEmpty, isResult, accounts, noneGivenUp, launchesOnce⟩ := ended result rfl
  have first : Moment world.board (max limit 1) ([] : List (Event α κ ε))
      (.opening (max limit 1) world.board) := .begins
  obtain ⟨tickets, moment⟩ := rounds.moment first
  have ledger := Ledger.ofMoment unused moment
  have books : Books events lastRun := rounds.books unused first (.begins limit _)
  have noDiscard : failures events = [] → discards events = [] := by
    intro noFailure
    apply noneGivenUp
    rw [books.failure?_eq, noFailure]
    rfl
  have divides : source.Divides events :=
    accounts.divides launchesOnce (ledger.callbacks_perm_of_isEmpty isEmpty) noDiscard
  rw [books.result_eq] at isResult
  refine ⟨events, last, isShown, rounds.history_eq,
    { ofNoFailure := ?_, ofFailure := ?_, asks := ?_, divides }⟩
  · intro noFailure
    have allHandedOut := ledger.occupied
    rw [eq_of_beq isEmpty, Nat.zero_add] at allHandedOut
    rw [noFailure] at isResult
    refine ⟨lastRun.report, isResult, ?_⟩
    rw [books.report_eq]
    refine ⟨rfl, allHandedOut, ?_, ?_, ?_⟩
    · exact congrArg List.length (callbackFailures_eq_nil noFailure)
    · exact congrArg List.length (noDiscard noFailure)
    · rintro list rfl
      exact divides.length_eq noFailure
  · intro error later isFirst
    rw [isFirst] at isResult
    exact isResult
  · intro past rest split hasFailed isAsked
    obtain ⟨between, later, rfl⟩ := List.append_of_mem isAsked
    rw [← List.append_assoc] at split
    obtain ⟨-, noFailure, -⟩ := rounds.room_of_asked unused first (.begins limit _) split
    rw [List.nil_append, failures_append, List.append_eq_nil_iff] at noFailure
    exact hasFailed noFailure.1

theorem brokenRun_reports_first_failure :
    ∃ events last, Rehearsal.Shows brokenPlan brokenRun.2 last ∧
      last.history = (Rehearsal.worldOf brokenPlan brokenRegistry).history ++ events ∧
      (Source.jobs brokenJobs : Source _ _ String).Reports events (.error "broken") := by
  have hasReturned : brokenRun.1 = some (.error "broken") := by decide +kernel
  have returned := returns_run
    ((Source.jobs brokenJobs).run (Rehearsal.environment brokenPlan) 2 10)
    (Rehearsal.stageOf brokenPlan brokenRegistry)
  exact run_reports_first_failure (Rehearsal.chronicle brokenPlan _)
    (Rehearsal.chronicled_jobs (by decide) _ isPlanned_brokenJobs)
    (Rehearsal.unfired_operationsOf brokenPlan _)
    (Rehearsal.shows_stageOf (by decide)) (hasReturned ▸ returned)

end Runs

end Scheduler
end ScriptHost
