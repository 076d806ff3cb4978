import ScriptHost.Proofs.Scheduler.Chronicle
import ScriptHost.Proofs.Scheduler.Slots

/-!
# Rounds of a run

A run is a sequence of rounds: the host waits, is asked for an operation, is handed a
completion, or gives up a callback. One relation says what each round can do and when
it may happen; what the loops of a scheduler do is told as rounds once, and everything
else about runs is derived from the rounds.
-/

namespace ScriptHost
namespace Scheduler

variable {α κ ε : Type}

namespace Run

/-- A run hands out what its slots hand out. -/
theorem complete?_eq_some_iff
    {run next : Run κ ε}
    {board after : Board}
    {completion : Completion κ} :
    run.complete? board = some (completion, next, after) ↔
      ∃ slots signals,
        run.slots.complete? board (board.signals run.slots.mailbox) =
          some (completion, slots, signals) ∧
        next = { run with slots := slots } ∧
        after = board.setSignals run.slots.mailbox signals := by
  rw [complete?]
  cases run.slots.complete? board (board.signals run.slots.mailbox) with
  | none => simp
  | some announcement =>
      obtain ⟨announced, slots, signals⟩ := announcement
      constructor
      · intro same
        cases same
        exact ⟨slots, signals, rfl, rfl, rfl⟩
      · rintro ⟨_, _, same, rfl, rfl⟩
        cases same
        rfl

/-- Handing out leaves the operations as they are. -/
theorem resembles_complete?
    {run next : Run κ ε}
    {board after : Board}
    {completion : Completion κ}
    (announced : run.complete? board = some (completion, next, after)) :
    after.Resembles board := by
  obtain ⟨slots, signals, -, -, rfl⟩ := complete?_eq_some_iff.mp announced
  exact Board.resembles_setSignals ..

/-- Taking in leaves the operations as they are. -/
theorem resembles_occupy
    (run : Run κ ε)
    (board : Board)
    (admission : Admission κ) :
    (run.occupy board admission).2.Resembles board := by
  change (run.slots.occupy board admission).2.Resembles board
  rw [Slots.board_occupy]
  exact Board.resembles_listen ..

@[simp] theorem slots_record
    (run : Run κ ε)
    (result : Except ε Unit) :
    (run.record result).slots = run.slots := by
  cases result <;> rfl

end Run

/-- One round of a run, with all that happens in it. -/
inductive Round
    (mailbox : MailboxId)
    (held : κ → Option HandleKey) :
    World α κ ε → Run κ ε → List (Event α κ ε) → World α κ ε → Run κ ε → Prop
  | waits
      {world : World α κ ε}
      {run : Run κ ε}
      (list : List (Move α))
      (spares : ∀ move ∈ list, move.Spares mailbox)
      (silent : run.complete? world.board = none) :
      Round mailbox held world run (Stretch.waited list)
        (world.noteAll (Stretch.waited list)) run
  | admits
      {world noted : World α κ ε}
      {run : Run κ ε}
      (list : List (Move α))
      (admission : Admission κ)
      (spares : ∀ move ∈ list, move.Spares mailbox)
      (room : run.failure? = none ∧ run.slots.isFull = false)
      (isNoted : noted = world.noteAll (Stretch.answered list (.admitted admission)))
      (isHeld : noted.board.Holds admission.operation) :
      Round mailbox held world run (Stretch.answered list (.admitted admission))
        { noted with board := (run.occupy noted.board admission).2 }
        (run.occupy noted.board admission).1
  | finishes
      {world : World α κ ε}
      {run : Run κ ε}
      (list : List (Move α))
      (spares : ∀ move ∈ list, move.Spares mailbox)
      (room : run.failure? = none ∧ run.slots.isFull = false) :
      Round mailbox held world run (Stretch.answered list .finished)
        (world.noteAll (Stretch.answered list .finished)) run
  | refuses
      {world : World α κ ε}
      {run : Run κ ε}
      (list : List (Move α))
      (error : ε)
      (spares : ∀ move ∈ list, move.Spares mailbox)
      (room : run.failure? = none ∧ run.slots.isFull = false) :
      Round mailbox held world run (Stretch.answered list (.refused error))
        (world.noteAll (Stretch.answered list (.refused error))) (run.fail error)
  | delivers
      {world : World α κ ε}
      {run next : Run κ ε}
      {board : Board}
      (list : List (Move α))
      (completion : Completion κ)
      (result : Except ε Unit)
      (spares : ∀ move ∈ list, move.Spares mailbox)
      (usesUp : UsesUp held completion.callback list)
      (announced : run.complete? world.board = some (completion, next, board)) :
      Round mailbox held world run (Stretch.dispatched completion list result)
        ({ world with board := board }.noteAll (Stretch.dispatched completion list result))
        (next.record result)
  | discards
      {world : World α κ ε}
      {run : Run κ ε}
      (list : List (Move α))
      (callback : κ)
      (spares : ∀ move ∈ list, move.Spares mailbox)
      (usesUp : UsesUp held callback list) :
      Round mailbox held world run (Stretch.discarded callback list)
        (world.noteAll (Stretch.discarded callback list)) run.abandon

/-- Rounds one after the other. -/
inductive Rounds
    (mailbox : MailboxId)
    (held : κ → Option HandleKey) :
    World α κ ε → Run κ ε → List (Event α κ ε) → World α κ ε → Run κ ε → Prop
  | none
      (world : World α κ ε)
      (run : Run κ ε) :
      Rounds mailbox held world run [] world run
  | more
      {world next last : World α κ ε}
      {run nextRun lastRun : Run κ ε}
      {first rest : List (Event α κ ε)}
      (round : Round mailbox held world run first next nextRun)
      (rounds : Rounds mailbox held next nextRun rest last lastRun) :
      Rounds mailbox held world run (first ++ rest) last lastRun

namespace Rounds

variable {mailbox : MailboxId} {held : κ → Option HandleKey}

/-- One round is a sequence of rounds. -/
theorem one
    {world next : World α κ ε}
    {run nextRun : Run κ ε}
    {events : List (Event α κ ε)}
    (round : Round mailbox held world run events next nextRun) :
    Rounds mailbox held world run events next nextRun := by
  have rounds := Rounds.more round (.none next nextRun)
  rwa [List.append_nil] at rounds

/-- Rounds follow on each other. -/
theorem trans
    {world middle last : World α κ ε}
    {run middleRun lastRun : Run κ ε}
    {first second : List (Event α κ ε)}
    (before : Rounds mailbox held world run first middle middleRun)
    (after : Rounds mailbox held middle middleRun second last lastRun) :
    Rounds mailbox held world run (first ++ second) last lastRun := by
  induction before with
  | none => exact after
  | more round _ inductionHypothesis =>
      rw [List.append_assoc]
      exact Rounds.more round (inductionHypothesis after)

/-- A chronicle grows by what happens in the rounds. -/
theorem history_eq
    {world last : World α κ ε}
    {run lastRun : Run κ ε}
    {events : List (Event α κ ε)}
    (rounds : Rounds mailbox held world run events last lastRun) :
    last.history = world.history ++ events := by
  induction rounds with
  | none => exact (List.append_nil _).symm
  | more round _ inductionHypothesis =>
      rw [inductionHypothesis, ← List.append_assoc]
      congr 1
      cases round with
      | admits _ _ _ _ isNoted => rw [isNoted, World.history_noteAll]
      | _ => exact World.history_noteAll ..

end Rounds

/-- A failure is never forgotten. -/
theorem Round.failure?_eq_none
    {mailbox : MailboxId}
    {held : κ → Option HandleKey}
    {world next : World α κ ε}
    {run nextRun : Run κ ε}
    {events : List (Event α κ ε)}
    (round : Round mailbox held world run events next nextRun)
    (noFailure : nextRun.failure? = none) :
    run.failure? = none := by
  cases round with
  | refuses => cases noFailure
  | delivers list completion result spares usesUp announced =>
      obtain ⟨slots, signals, -, rfl, -⟩ := Run.complete?_eq_some_iff.mp announced
      cases result with
      | ok => exact noFailure
      | error error => cases noFailure
  | _ => exact noFailure

/-- Rounds that end without a failure began without one. -/
theorem Rounds.failure?_eq_none
    {mailbox : MailboxId}
    {held : κ → Option HandleKey}
    {world last : World α κ ε}
    {run lastRun : Run κ ε}
    {events : List (Event α κ ε)}
    (rounds : Rounds mailbox held world run events last lastRun)
    (noFailure : lastRun.failure? = Option.none) :
    run.failure? = Option.none := by
  induction rounds with
  | none => exact noFailure
  | more round _ inductionHypothesis => exact round.failure?_eq_none (inductionHypothesis noFailure)

/-! ## The loops of a scheduler -/

/-- Events in which the host is asked for nothing and nothing is given up. -/
structure IsDelivering (events : List (Event α κ ε)) : Prop where
  asks : asks events = 0
  admissions : admissions events = []
  discards : discards events = []

namespace IsDelivering

theorem nil : IsDelivering ([] : List (Event α κ ε)) :=
  ⟨rfl, rfl, rfl⟩

/-- What delivers twice delivers. -/
theorem append
    {first second : List (Event α κ ε)}
    (firstDelivering : IsDelivering first)
    (secondDelivering : IsDelivering second) :
    IsDelivering (first ++ second) where
  asks := by rw [asks_append, firstDelivering.asks, secondDelivering.asks]
  admissions := by
    rw [admissions_append, firstDelivering.admissions, secondDelivering.admissions,
      List.append_nil]
  discards := by
    rw [discards_append, firstDelivering.discards, secondDelivering.discards, List.append_nil]

theorem waited (list : List (Move α)) :
    IsDelivering (Stretch.waited list : List (Event α κ ε)) :=
  ⟨Stretch.asks_waited list, Stretch.admissions_waited list, Stretch.discards_waited list⟩

theorem dispatched
    (completion : Completion κ)
    (list : List (Move α))
    (result : Except ε Unit) :
    IsDelivering (Stretch.dispatched completion list result) :=
  ⟨Stretch.asks_dispatched .., Stretch.admissions_dispatched .., Stretch.discards_dispatched ..⟩

end IsDelivering

/-- Events in which the host launches some jobs, each on its own terms and only to be taken in,
and nothing is given up. -/
structure IsLaunching
    {m : Type → Type}
    (launched : List (Job m κ))
    (events : List (Event α κ ε)) : Prop where
  terms : (admissions events).map Admission.terms = launched.map Job.terms
  asks : asks events = (admissions events).length
  discards : discards events = []

/-- What delivers launches nothing. -/
theorem IsDelivering.launching
    {m : Type → Type}
    {events : List (Event α κ ε)}
    (delivering : IsDelivering events) :
    IsLaunching ([] : List (Job m κ)) events where
  terms := congrArg _ delivering.admissions
  asks := by rw [delivering.asks, delivering.admissions, List.length_nil]
  discards := delivering.discards

namespace IsLaunching

variable {m : Type → Type} {first second : List (Event α κ ε)}

/-- Jobs can be launched one sequence after the other. -/
theorem append
    {launched more : List (Job m κ)}
    (launchesFirst : IsLaunching launched first)
    (launchesSecond : IsLaunching more second) :
    IsLaunching (launched ++ more) (first ++ second) where
  terms := by
    rw [admissions_append, List.map_append, List.map_append, launchesFirst.terms,
      launchesSecond.terms]
  asks := by
    rw [asks_append, admissions_append, List.length_append, launchesFirst.asks,
      launchesSecond.asks]
  discards := by
    rw [discards_append, launchesFirst.discards, launchesSecond.discards, List.append_nil]

/-- An answer that admits an operation launches its job. -/
theorem answered
    (job : Job m κ)
    (list : List (Move α))
    (operation : OperationId) :
    IsLaunching [job] (Stretch.answered list
      (.admitted ⟨operation, job.type, job.callback⟩) : List (Event α κ ε)) where
  terms := by
    rw [Stretch.admissions_answered]
    rfl
  asks := by
    rw [Stretch.asks_answered, Stretch.admissions_answered]
    rfl
  discards := Stretch.discards_answered ..

end IsLaunching

section Loops

open Stateful

variable {m : Type → Type} [Monad m] {σ : Type} [Stateful m σ]
variable {env : Environment m κ ε} {shows : σ → World α κ ε → Prop}
variable {mailbox : MailboxId} {held : κ → Option HandleKey}

namespace Chronicle

/-- A run that waits for a completion lets the host wait until one is announced. -/
theorem rounds_waitNext
    (chronicle : Chronicle env shows mailbox held)
    {fuel : Nat}
    {run : Run κ ε}
    {answer? : Option (Completion κ × Run κ ε)}
    {before after : σ}
    {world : World α κ ε}
    (isShown : shows before world)
    (returned : Returns (waitNext env fuel run) before answer? after) :
    ∃ events last, Rounds mailbox held world run events last run ∧ IsDelivering events ∧
      (answer? = none → shows after last) ∧
      ∀ completion next, answer? = some (completion, next) →
        ∃ board, run.complete? last.board = some (completion, next, board) ∧
          shows after { last with board := board } := by
  induction fuel generalizing before world with
  | zero =>
      rw [waitNext, returns_pure_iff] at returned
      obtain ⟨rfl, rfl⟩ := returned
      exact ⟨[], world, .none .., .nil, fun _ => isShown,
        fun _ _ absurdity => nomatch absurdity⟩
  | succ fuel inductionHypothesis =>
      simp only [waitNext, returns_bind_iff] at returned
      obtain ⟨board, reading, hasRead, returned⟩ := returned
      obtain ⟨rfl, isShown⟩ := chronicle.board hasRead isShown
      cases announced : run.complete? world.board with
      | some announcement =>
          obtain ⟨completion, next, board⟩ := announcement
          simp only [announced, returns_bind_iff, returns_pure_iff] at returned
          obtain ⟨_, written, hasWritten, rfl, rfl⟩ := returned
          refine ⟨[], world, .none .., .nil, fun absurdity => (nomatch absurdity), ?_⟩
          intro _ _ same
          cases same
          exact ⟨board, announced,
            chronicle.setBoard hasWritten isShown (Run.resembles_complete? announced)⟩
      | none =>
          simp only [announced, returns_bind_iff] at returned
          obtain ⟨goesOn, waited, hasWaited, returned⟩ := returned
          obtain ⟨list, spares, isShown⟩ := chronicle.await hasWaited isShown
          cases goesOn with
          | false =>
              simp only [Bool.false_eq_true, if_false, returns_pure_iff] at returned
              obtain ⟨rfl, rfl⟩ := returned
              exact ⟨_, _, .one (.waits list spares announced), .waited list, fun _ => isShown,
                fun _ _ absurdity => nomatch absurdity⟩
          | true =>
              simp only [if_true] at returned
              obtain ⟨events, last, rounds, delivering, isShown, isNext⟩ :=
                inductionHypothesis isShown returned
              exact ⟨_, last, .more (.waits list spares announced) rounds,
                (IsDelivering.waited list).append delivering, isShown, isNext⟩

/-- A delivery is a round in which the host waits and one in which it dispatches. -/
theorem rounds_deliverNext
    (chronicle : Chronicle env shows mailbox held)
    {fuel : Nat}
    {run : Run κ ε}
    {next? : Option (Run κ ε)}
    {before after : σ}
    {world : World α κ ε}
    (isShown : shows before world)
    (returned : Returns (deliverNext env fuel run) before next? after) :
    ∃ events last lastRun, Rounds mailbox held world run events last lastRun ∧
      shows after last ∧ IsDelivering events ∧
      ∀ next, next? = some next → next = lastRun := by
  simp only [deliverNext, returns_bind_iff] at returned
  obtain ⟨waited?, waited, hasWaited, returned⟩ := returned
  obtain ⟨events, last, rounds, delivering, isShown, isNext⟩ :=
    chronicle.rounds_waitNext isShown hasWaited
  cases waited? with
  | none =>
      simp only [returns_pure_iff] at returned
      obtain ⟨rfl, rfl⟩ := returned
      exact ⟨events, last, run, rounds, isShown rfl, delivering,
        fun _ absurdity => nomatch absurdity⟩
  | some pair =>
      obtain ⟨completion, waitedRun⟩ := pair
      obtain ⟨board, announced, isShown⟩ := isNext completion waitedRun rfl
      simp only [returns_bind_iff, returns_pure_iff] at returned
      obtain ⟨result, dispatched, hasDispatched, rfl, rfl⟩ := returned
      obtain ⟨list, spares, usesUp, isShown⟩ := chronicle.dispatch hasDispatched isShown
      exact ⟨_, _, _, rounds.trans (.one (.delivers list _ result spares usesUp announced)),
        isShown, delivering.append (.dispatched completion list result),
        fun _ same => (Option.some.inj same).symm⟩

/-- An operation that is taken in is so on the board that the host shows. -/
theorem returns_occupyNext
    (chronicle : Chronicle env shows mailbox held)
    {run next : Run κ ε}
    {admission : Admission κ}
    {before after : σ}
    {world : World α κ ε}
    (isShown : shows before world)
    (returned : Returns (occupyNext env run admission) before next after) :
    next = (run.occupy world.board admission).1 ∧
      shows after { world with board := (run.occupy world.board admission).2 } := by
  simp only [occupyNext, returns_bind_iff, returns_pure_iff] at returned
  obtain ⟨board, reading, hasRead, _, written, hasWritten, rfl, rfl⟩ := returned
  obtain ⟨rfl, isShown⟩ := chronicle.board hasRead isShown
  exact ⟨rfl, chronicle.setBoard hasWritten isShown (Run.resembles_occupy ..)⟩

/-- A host that is asked while there is room answers with an operation, which is taken
in at once. -/
theorem round_of_answers
    (chronicle : Chronicle env shows mailbox held)
    {β : Type}
    {ask : m β}
    {answer : β → Event α κ ε}
    (answers : Answers shows mailbox ask answer)
    {run next : Run κ ε}
    {value : β}
    {admission : Admission κ}
    {before between after : σ}
    {world : World α κ ε}
    (room : run.failure? = none ∧ run.slots.isFull = false)
    (isShown : shows before world)
    (hasAnswered : Returns ask before value between)
    (isAdmission : answer value = .admitted admission)
    (returned : Returns (occupyNext env run admission) between next after) :
    ∃ list last, Round mailbox held world run (Stretch.answered list (.admitted admission))
        last next ∧ shows after last := by
  obtain ⟨list, spares, isShown, isHeld⟩ := answers hasAnswered isShown
  rw [isAdmission] at isShown
  obtain ⟨rfl, isShown⟩ := chronicle.returns_occupyNext isShown returned
  have held := isHeld admission isAdmission
  rw [isAdmission] at held
  exact ⟨list, _, .admits list admission spares room rfl held, isShown⟩

/-- What a producer yields is taken in until there is a failure or no more. -/
theorem rounds_pull
    (chronicle : Chronicle env shows mailbox held)
    {produce : m (Production κ ε)}
    (answers : Answers shows mailbox produce .ofProduction)
    {fuel : Nat}
    {run : Run κ ε}
    {answer? : Option (Run κ ε)}
    {before after : σ}
    {world : World α κ ε}
    (isShown : shows before world)
    (returned : Returns (pull env produce fuel run) before answer? after) :
    ∃ events last lastRun, Rounds mailbox held world run events last lastRun ∧
      shows after last ∧ discards events = [] ∧
      ∀ answer, answer? = some answer → answer = lastRun := by
  induction fuel generalizing before world run with
  | zero =>
      rw [pull, returns_pure_iff] at returned
      obtain ⟨rfl, rfl⟩ := returned
      exact ⟨[], world, run, .none .., isShown, rfl, fun _ absurdity => nomatch absurdity⟩
  | succ fuel inductionHypothesis =>
      rw [pull] at returned
      by_cases failed : run.failure?.isSome
      · rw [if_pos failed, returns_pure_iff] at returned
        obtain ⟨rfl, rfl⟩ := returned
        exact ⟨[], world, run, .none .., isShown, rfl, fun _ same => (Option.some.inj same).symm⟩
      · rw [if_neg failed] at returned
        by_cases isFull : run.slots.isFull
        · simp only [isFull, if_true, returns_bind_iff] at returned
          obtain ⟨delivered?, between, hasDelivered, returned⟩ := returned
          obtain ⟨events, middle, middleRun, rounds, isShown, delivering, isNext⟩ :=
            chronicle.rounds_deliverNext isShown hasDelivered
          cases delivered? with
          | none =>
              simp only [returns_pure_iff] at returned
              obtain ⟨rfl, rfl⟩ := returned
              exact ⟨events, middle, middleRun, rounds, isShown, delivering.discards,
                fun _ absurdity => nomatch absurdity⟩
          | some next =>
              obtain rfl := isNext next rfl
              obtain ⟨rest, last, lastRun, restRounds, isShown, noMore, isLast⟩ :=
                inductionHypothesis isShown returned
              refine ⟨events ++ rest, last, lastRun, rounds.trans restRounds, isShown, ?_, isLast⟩
              rw [discards_append, delivering.discards, noMore, List.append_nil]
        · have room : run.failure? = none ∧ run.slots.isFull = false :=
            ⟨by simpa using failed, by simpa using isFull⟩
          simp only [isFull, if_false, Bool.false_eq_true, returns_bind_iff] at returned
          obtain ⟨production, between, hasProduced, returned⟩ := returned
          cases production with
          | item admission =>
              simp only [returns_bind_iff] at returned
              obtain ⟨next, occupied, hasOccupied, returned⟩ := returned
              obtain ⟨list, middle, round, isShown⟩ := chronicle.round_of_answers answers
                room isShown hasProduced rfl hasOccupied
              obtain ⟨rest, last, lastRun, restRounds, isShown, noMore, isLast⟩ :=
                inductionHypothesis isShown returned
              refine ⟨_, last, lastRun, .more round restRounds, isShown, ?_, isLast⟩
              rw [discards_append, Stretch.discards_answered, noMore]
              rfl
          | finished =>
              simp only [returns_pure_iff] at returned
              obtain ⟨rfl, rfl⟩ := returned
              obtain ⟨list, spares, isShown, -⟩ := answers hasProduced isShown
              exact ⟨_, _, _, .one (.finishes list spares room), isShown,
                Stretch.discards_answered .., fun _ same => (Option.some.inj same).symm⟩
          | failed error =>
              obtain ⟨list, spares, isShown, -⟩ := answers hasProduced isShown
              obtain ⟨rest, last, lastRun, restRounds, isShown, noMore, isLast⟩ :=
                inductionHypothesis isShown returned
              refine ⟨_, last, lastRun, .more (.refuses list error spares room) restRounds,
                isShown, ?_, isLast⟩
              rw [discards_append, Stretch.discards_answered, noMore]
              rfl

/-- Jobs are taken in on their own terms, from the front of their list, until there is a
failure or no more. Without a failure none is left over. -/
theorem rounds_launch
    (chronicle : Chronicle env shows mailbox held)
    {jobs : List (Job m κ)}
    (answers : (Source.jobs jobs : Source m κ ε).Chronicled shows mailbox)
    {fuel : Nat}
    {run : Run κ ε}
    {answer? : Option (Run κ ε × List (Job m κ))}
    {before after : σ}
    {world : World α κ ε}
    (isShown : shows before world)
    (returned : Returns (launch env fuel jobs run) before answer? after) :
    ∃ events last lastRun launched rest, Rounds mailbox held world run events last lastRun ∧
      shows after last ∧ jobs = launched ++ rest ∧ IsLaunching launched events ∧
      ∀ answer, answer? = some answer →
        answer = (lastRun, rest) ∧ (lastRun.failure? = none → rest = []) := by
  induction fuel generalizing before world run jobs with
  | zero =>
      rw [launch, returns_pure_iff] at returned
      obtain ⟨rfl, rfl⟩ := returned
      exact ⟨[], world, run, [], jobs, .none .., isShown, rfl, IsDelivering.nil.launching,
        fun _ absurdity => nomatch absurdity⟩
  | succ fuel inductionHypothesis =>
      rw [launch.eq_def] at returned
      dsimp only at returned
      by_cases failed : run.failure?.isSome
      · rw [if_pos failed, returns_pure_iff] at returned
        obtain ⟨rfl, rfl⟩ := returned
        refine ⟨[], world, run, [], jobs, .none .., isShown, rfl, IsDelivering.nil.launching, ?_⟩
        intro _ same
        cases same
        refine ⟨rfl, fun noFailure => ?_⟩
        rw [noFailure] at failed
        cases failed
      · rw [if_neg failed] at returned
        by_cases isFull : run.slots.isFull
        · simp only [isFull, if_true, returns_bind_iff] at returned
          obtain ⟨delivered?, between, hasDelivered, returned⟩ := returned
          obtain ⟨events, middle, middleRun, rounds, isShown, delivering, isNext⟩ :=
            chronicle.rounds_deliverNext isShown hasDelivered
          cases delivered? with
          | none =>
              simp only [returns_pure_iff] at returned
              obtain ⟨rfl, rfl⟩ := returned
              exact ⟨events, middle, middleRun, [], jobs, rounds, isShown, rfl,
                delivering.launching, fun _ absurdity => nomatch absurdity⟩
          | some next =>
              obtain rfl := isNext next rfl
              obtain ⟨later, last, lastRun, launched, rest, laterRounds, isShown, split, launching,
                isLast⟩ := inductionHypothesis answers isShown returned
              exact ⟨events ++ later, last, lastRun, launched, rest, rounds.trans laterRounds,
                isShown, split, delivering.launching.append launching, isLast⟩
        · have room : run.failure? = none ∧ run.slots.isFull = false :=
            ⟨by simpa using failed, by simpa using isFull⟩
          simp only [isFull, if_false, Bool.false_eq_true] at returned
          cases jobs with
          | nil =>
              simp only [returns_pure_iff] at returned
              obtain ⟨rfl, rfl⟩ := returned
              refine ⟨[], world, run, [], [], .none .., isShown, rfl,
                IsDelivering.nil.launching, ?_⟩
              intro _ same
              cases same
              exact ⟨rfl, fun _ => rfl⟩
          | cons job jobs =>
              simp only [returns_bind_iff] at returned
              obtain ⟨operation, between, hasLaunched, next, occupied, hasOccupied, returned⟩ :=
                returned
              obtain ⟨list, middle, round, isShown⟩ := chronicle.round_of_answers
                (answers job List.mem_cons_self) room isShown hasLaunched rfl hasOccupied
              obtain ⟨later, last, lastRun, launched, rest, laterRounds, isShown, split, launching,
                isLast⟩ :=
                inductionHypothesis (fun other member => answers other (.tail _ member))
                  isShown returned
              exact ⟨_, last, lastRun, job :: launched, rest, .more round laterRounds, isShown,
                congrArg (job :: ·) split,
                (IsLaunching.answered job list operation).append launching, isLast⟩

/-- Draining takes nothing in and ends when nothing is outstanding. -/
theorem rounds_drain
    (chronicle : Chronicle env shows mailbox held)
    {fuel : Nat}
    {run : Run κ ε}
    {answer? : Option (Run κ ε)}
    {before after : σ}
    {world : World α κ ε}
    (isShown : shows before world)
    (returned : Returns (drain env fuel run) before answer? after) :
    ∃ events last lastRun, Rounds mailbox held world run events last lastRun ∧
      shows after last ∧ IsDelivering events ∧
      ∀ answer, answer? = some answer → answer = lastRun ∧ answer.slots.isEmpty = true := by
  induction fuel generalizing before world run with
  | zero =>
      rw [drain, returns_pure_iff] at returned
      obtain ⟨rfl, rfl⟩ := returned
      exact ⟨[], world, run, .none .., isShown, .nil, fun _ absurdity => nomatch absurdity⟩
  | succ fuel inductionHypothesis =>
      rw [drain] at returned
      by_cases isEmpty : run.slots.isEmpty
      · rw [if_pos isEmpty, returns_pure_iff] at returned
        obtain ⟨rfl, rfl⟩ := returned
        refine ⟨[], world, run, .none .., isShown, .nil, ?_⟩
        intro _ same
        cases same
        exact ⟨rfl, isEmpty⟩
      · rw [if_neg isEmpty, returns_bind_iff] at returned
        obtain ⟨delivered?, between, hasDelivered, returned⟩ := returned
        obtain ⟨events, middle, middleRun, rounds, isShown, delivering, isNext⟩ :=
          chronicle.rounds_deliverNext isShown hasDelivered
        cases delivered? with
        | none =>
            simp only [returns_pure_iff] at returned
            obtain ⟨rfl, rfl⟩ := returned
            exact ⟨events, middle, middleRun, rounds, isShown, delivering,
              fun _ absurdity => nomatch absurdity⟩
        | some next =>
            obtain rfl := isNext next rfl
            obtain ⟨rest, last, lastRun, restRounds, isShown, stillDelivering, isLast⟩ :=
              inductionHypothesis isShown returned
            exact ⟨events ++ rest, last, lastRun, rounds.trans restRounds, isShown,
              delivering.append stillDelivering, isLast⟩

/-- The callbacks of jobs that are never launched are given up in order. -/
theorem rounds_abandonAll
    (chronicle : Chronicle env shows mailbox held)
    {jobs : List (Job m κ)}
    {run last : Run κ ε}
    {before after : σ}
    {world : World α κ ε}
    (isShown : shows before world)
    (returned : Returns (abandonAll env jobs run) before last after) :
    ∃ events lastWorld, Rounds mailbox held world run events lastWorld last ∧
      shows after lastWorld ∧ asks events = 0 ∧ admissions events = [] ∧
      discards events = jobs.map Job.callback ∧ last.slots = run.slots := by
  induction jobs generalizing before world run with
  | nil =>
      rw [abandonAll, returns_pure_iff] at returned
      obtain ⟨rfl, rfl⟩ := returned
      exact ⟨[], world, .none .., isShown, rfl, rfl, rfl, rfl⟩
  | cons job jobs inductionHypothesis =>
      rw [abandonAll, returns_bind_iff] at returned
      obtain ⟨_, between, hasDiscarded, returned⟩ := returned
      obtain ⟨list, spares, usesUp, isShown⟩ := chronicle.discard hasDiscarded isShown
      obtain ⟨rest, lastWorld, rounds, isShown, noAsks, noAdmissions, discarded, sameSlots⟩ :=
        inductionHypothesis isShown returned
      refine ⟨_, lastWorld, .more (.discards list _ spares usesUp) rounds, isShown, ?_, ?_, ?_,
        sameSlots⟩
      · rw [asks_append, Stretch.asks_discarded, noAsks]
      · rw [admissions_append, Stretch.admissions_discarded, noAdmissions, List.append_nil]
      · rw [discards_append, Stretch.discards_discarded, discarded]
        rfl

/-- A run begins in a mailbox that it opens. -/
theorem returns_begin
    {world : World α κ ε}
    (chronicle : Chronicle env shows mailbox held)
    {limit : Nat}
    {run : Run κ ε}
    {before after : σ}
    (isShown : shows before world)
    (returned : Returns (begin env limit) before run after) :
    run = Run.start limit world.board.mailboxes.size ∧
      shows after { world with board := world.board.openMailbox.1 } := by
  simp only [begin, returns_bind_iff, returns_pure_iff] at returned
  obtain ⟨board, reading, hasRead, _, written, hasWritten, rfl, rfl⟩ := returned
  obtain ⟨rfl, isShown⟩ := chronicle.board hasRead isShown
  exact ⟨rfl, chronicle.setBoard hasWritten isShown (Board.resembles_openMailbox _)⟩

/-- A run goes through rounds from the mailbox that it opens. When it returns nothing is
outstanding, and its source is used up. Without a failure no callback is given up. No job is
launched but for an operation that is taken in. -/
theorem rounds_of_run
    {world : World α κ ε}
    (chronicle : Chronicle env shows world.board.mailboxes.size held)
    {source : Source m κ ε}
    (answers : source.Chronicled shows world.board.mailboxes.size)
    {limit fuel : Nat}
    {before after : σ}
    {result? : Option (Except ε Report)}
    (isShown : shows before world)
    (returned : Returns (source.run env limit fuel) before result? after) :
    ∃ events last lastRun,
      Rounds world.board.mailboxes.size held { world with board := world.board.openMailbox.1 }
        (Run.start limit world.board.mailboxes.size) events last lastRun ∧
      shows after last ∧
      ∀ result, result? = some result →
        lastRun.slots.isEmpty = true ∧ result = lastRun.result ∧ source.Accounts events ∧
          (lastRun.failure? = none → discards events = []) ∧ source.LaunchesOnce events := by
  cases source with
  | producer produce =>
      simp only [Source.run, runPull, returns_bind_iff] at returned
      obtain ⟨run, between, hasBegun, pulled?, pulled, hasPulled, returned⟩ := returned
      obtain ⟨rfl, isShown⟩ := chronicle.returns_begin isShown hasBegun
      obtain ⟨first, middle, middleRun, rounds, isShown, noDiscards, isPulled⟩ :=
        chronicle.rounds_pull answers isShown hasPulled
      cases pulled? with
      | none =>
          simp only [returns_pure_iff] at returned
          obtain ⟨rfl, rfl⟩ := returned
          exact ⟨first, middle, middleRun, rounds, isShown, fun _ absurdity => nomatch absurdity⟩
      | some pulledRun =>
          obtain rfl := isPulled pulledRun rfl
          simp only [returns_bind_iff] at returned
          obtain ⟨drained?, drained, hasDrained, returned⟩ := returned
          obtain ⟨second, last, lastRun, drainRounds, isShown, delivering, isDrained⟩ :=
            chronicle.rounds_drain isShown hasDrained
          cases drained? with
          | none =>
              simp only [returns_pure_iff] at returned
              obtain ⟨rfl, rfl⟩ := returned
              exact ⟨_, last, lastRun, rounds.trans drainRounds, isShown,
                fun _ absurdity => nomatch absurdity⟩
          | some drainedRun =>
              obtain ⟨rfl, isEmpty⟩ := isDrained drainedRun rfl
              simp only [returns_pure_iff] at returned
              obtain ⟨rfl, rfl⟩ := returned
              refine ⟨_, last, drainedRun, rounds.trans drainRounds, isShown, ?_⟩
              intro result same
              have noneGivenUp : discards (first ++ second) = [] := by
                rw [discards_append, noDiscards, delivering.discards, List.append_nil]
              exact ⟨isEmpty, (Option.some.inj same).symm, noneGivenUp, fun _ => noneGivenUp,
                trivial⟩
  | jobs list =>
      simp only [Source.run, runFanOut, returns_bind_iff] at returned
      obtain ⟨run, between, hasBegun, launched?, launched, hasLaunched, returned⟩ := returned
      obtain ⟨rfl, isShown⟩ := chronicle.returns_begin isShown hasBegun
      obtain ⟨first, middle, middleRun, launchedJobs, rest, rounds, isShown, rfl, launching,
        isLaunched⟩ := chronicle.rounds_launch answers isShown hasLaunched
      cases launched? with
      | none =>
          simp only [returns_pure_iff] at returned
          obtain ⟨rfl, rfl⟩ := returned
          exact ⟨first, middle, middleRun, rounds, isShown, fun _ absurdity => nomatch absurdity⟩
      | some pair =>
          obtain ⟨rfl, noneOver⟩ := isLaunched pair rfl
          simp only [returns_bind_iff] at returned
          obtain ⟨drained?, drained, hasDrained, returned⟩ := returned
          obtain ⟨second, next, nextRun, drainRounds, isShown, delivering, isDrained⟩ :=
            chronicle.rounds_drain isShown hasDrained
          cases drained? with
          | none =>
              simp only [returns_pure_iff] at returned
              obtain ⟨rfl, rfl⟩ := returned
              exact ⟨_, next, nextRun, rounds.trans drainRounds, isShown,
                fun _ absurdity => nomatch absurdity⟩
          | some drainedRun =>
              obtain ⟨rfl, isEmpty⟩ := isDrained drainedRun rfl
              simp only [returns_bind_iff, returns_pure_iff] at returned
              obtain ⟨lastRun, _, hasAbandoned, rfl, rfl⟩ := returned
              obtain ⟨third, last, abandonRounds, isShown, noAsks, noMore, discarded, sameSlots⟩ :=
                chronicle.rounds_abandonAll isShown hasAbandoned
              refine ⟨_, last, lastRun, (rounds.trans drainRounds).trans abandonRounds, isShown, ?_⟩
              have allLaunched := launching.append delivering.launching
              rw [List.append_nil] at allLaunched
              have givenUp : discards (first ++ second ++ third) = rest.map Job.callback := by
                rw [discards_append, allLaunched.discards, discarded, List.nil_append]
              have takenIn : admissions (first ++ second ++ third) =
                  admissions (first ++ second) := by
                rw [admissions_append, noMore, List.append_nil]
              intro result same
              refine ⟨sameSlots ▸ isEmpty, (Option.some.inj same).symm,
                ⟨launchedJobs, rest, rfl, ?_, givenUp⟩, ?_, ?_⟩
              · rw [takenIn, allLaunched.terms]
              · intro noFailure
                have noneLeftOver :=
                  noneOver ((drainRounds.trans abandonRounds).failure?_eq_none noFailure)
                rw [givenUp, noneLeftOver, List.map_nil]
              · change asks (first ++ second ++ third) =
                  (admissions (first ++ second ++ third)).length
                rw [asks_append, noAsks, takenIn, allLaunched.asks, Nat.add_zero]

end Chronicle
end Loops

end Scheduler
end ScriptHost
