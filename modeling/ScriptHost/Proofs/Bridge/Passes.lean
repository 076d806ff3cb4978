import ScriptHost.Proofs.Bridge.States
import ScriptHost.Proofs.Stateful

/-!
# Passes of a bridge

A pass knows nothing of the sink that it calls. While it is called, a sink may do to the
bridge what any link may do, in any order, and may try to start another pass, which does
nothing because the bridge is marked. What a pass does is told as a relation between what
there is before it and after it, once; everything else about passes is derived from this
relation.
-/

namespace ScriptHost
namespace Bridge

/-- Something that a bridge is told from outside. -/
inductive Input
  | connect (id : ConnectionId)
  | disconnect (id : ConnectionId)
  | receive (id : ConnectionId) (chunk : Bytes)
  | clear
  deriving DecidableEq

/-- The bridge after it is told something. -/
def Input.onBridge (bridge : Bridge) : Input → Bridge
  | connect id => bridge.onConnected id
  | disconnect id => bridge.onDisconnected id
  | receive id chunk => bridge.onBytesReceived id chunk
  | clear => bridge.clear

/-- Something that happens to a bridge: it is told something, it calls a sink, or the sink
returns and says whether it succeeded. -/
inductive Happening
  | told (input : Input)
  | delivered (id : ConnectionId) (event : ConnectionEvent)
  | answered (succeeded : Bool)
  deriving DecidableEq

/-- What happens to the bridge apart from what a pass does to it. -/
def Happening.onBridge (bridge : Bridge) : Happening → Bridge
  | told input => input.onBridge bridge
  | _ => bridge

/-- What a state of a host shows: its bridge, and all that has happened to it. -/
structure World where
  bridge : Bridge
  history : List Happening

namespace World

/-- Something happens. -/
def note
    (world : World)
    (happening : Happening) : World where
  bridge := happening.onBridge world.bridge
  history := world.history ++ [happening]

/-- Several things happen one after the other. -/
def noteAll
    (world : World)
    (happenings : List Happening) : World :=
  happenings.foldl note world

end World

@[simp] theorem dispatching_onBridge
    (happening : Happening)
    (bridge : Bridge) :
    (happening.onBridge bridge).dispatching = bridge.dispatching := by
  cases happening with
  | told input =>
      cases input with
      | connect id => exact (dispatching_update ..).trans (dispatching_track ..)
      | disconnect id => exact dispatching_update ..
      | receive id chunk => exact dispatching_update ..
      | clear => rfl
  | _ => rfl

@[simp] theorem limit_onBridge
    (happening : Happening)
    (bridge : Bridge) :
    (happening.onBridge bridge).limit = bridge.limit := by
  cases happening with
  | told input =>
      cases input with
      | connect id => exact (limit_update ..).trans (limit_track ..)
      | disconnect id => exact limit_update ..
      | receive id chunk => exact limit_update ..
      | clear => rfl
  | _ => rfl

@[simp] theorem World.history_noteAll
    (world : World)
    (happenings : List Happening) :
    (world.noteAll happenings).history = world.history ++ happenings := by
  unfold noteAll
  induction happenings generalizing world with
  | nil => exact (List.append_nil _).symm
  | cons happening happenings inductionHypothesis =>
      rw [List.foldl_cons, inductionHypothesis, note, List.append_assoc, List.singleton_append]

/-- Several things happen one after the other. -/
theorem World.noteAll_append
    (world : World)
    (first second : List Happening) :
    world.noteAll (first ++ second) = (world.noteAll first).noteAll second :=
  List.foldl_append ..

@[simp] theorem World.dispatching_noteAll
    (world : World)
    (happenings : List Happening) :
    (world.noteAll happenings).bridge.dispatching = world.bridge.dispatching := by
  unfold noteAll
  induction happenings generalizing world with
  | nil => rfl
  | cons happening happenings inductionHypothesis =>
      rw [List.foldl_cons, inductionHypothesis]
      exact dispatching_onBridge ..

/-- A delivery, from the call of the sink until it returns. -/
def delivery
    (id : ConnectionId)
    (event : ConnectionEvent)
    (inputs : List Input)
    (succeeded : Bool) : List Happening :=
  .delivered id event :: (inputs.map .told ++ [.answered succeeded])

/-- A delivery is a call of the sink, what it tells, and its answer. -/
theorem World.noteAll_delivery
    (world : World)
    (id : ConnectionId)
    (event : ConnectionEvent)
    (inputs : List Input)
    (succeeded : Bool) :
    world.noteAll (delivery id event inputs succeeded) =
      ((world.note (.delivered id event)).noteAll (inputs.map .told)).note
        (.answered succeeded) :=
  world.noteAll_append (.delivered id event :: inputs.map .told) [.answered succeeded]

/-! ## What a pass does -/

/-- The turn of a connection delivers the events of its state, up to a budget. -/
inductive Turn
    (id : ConnectionId)
    (key : StateKey) :
    Nat → World → PassReport → World → PassReport → Prop
  | spent
      (world : World)
      (report : PassReport) :
      Turn id key 0 world report world report
  | runsOut
      {world : World}
      (budget : Nat)
      (report : PassReport)
      (isEmpty : world.bridge.popAt key = none) :
      Turn id key (budget + 1) world report world report
  | delivers
      {world last : World}
      {bridge : Bridge}
      {event : ConnectionEvent}
      {budget : Nat}
      {report lastReport : PassReport}
      (inputs : List Input)
      (succeeded : Bool)
      (isNext : world.bridge.popAt key = some (event, bridge))
      (turn : Turn id key budget
        ({ world with bridge := bridge }.noteAll (delivery id event inputs succeeded))
        (report.record succeeded) last lastReport) :
      Turn id key (budget + 1) world report last lastReport

/-- A pass visits states in some order. The events queued when a turn starts are its
budget, and the connection may be forgotten at the end of it. -/
inductive Visit :
    List (ConnectionId × StateKey) → World → PassReport → World → PassReport → Prop
  | ends
      (world : World)
      (report : PassReport) :
      Visit [] world report world report
  | turns
      {id : ConnectionId}
      {key : StateKey}
      {rest : List (ConnectionId × StateKey)}
      {world middle last : World}
      {report middleReport lastReport : PassReport}
      (turn : Turn id key (world.bridge.stateAt key).queue.length world report
        middle middleReport)
      (visit : Visit rest { middle with bridge := middle.bridge.retireIfIdle id } middleReport
        last lastReport) :
      Visit ((id, key) :: rest) world report last lastReport

/-- A bridge that marks whether a pass is running. -/
def mark
    (bridge : Bridge)
    (dispatching : Bool) : Bridge :=
  { bridge with dispatching := dispatching }

/-- A pass visits all that is tracked when it begins. Within another pass it does
nothing. -/
inductive Pass : World → PassReport → World → Prop
  | nested
      {world : World}
      (isRunning : world.bridge.dispatching = true) :
      Pass world .zero world
  | runs
      {world last : World}
      {report : PassReport}
      {order : List (ConnectionId × StateKey)}
      (isIdle : world.bridge.dispatching = false)
      (isOrder : order.Perm world.bridge.tracked)
      (visit : Visit order { world with bridge := world.bridge.mark true } .zero last report) :
      Pass world report { last with bridge := last.bridge.mark false }

/-- The mark of a pass stays as it is in a turn. -/
theorem Turn.dispatching_eq
    {id : ConnectionId}
    {key : StateKey}
    {budget : Nat}
    {world last : World}
    {report lastReport : PassReport}
    (turn : Turn id key budget world report last lastReport) :
    last.bridge.dispatching = world.bridge.dispatching := by
  induction turn with
  | spent | runsOut => rfl
  | delivers inputs succeeded isNext turn inductionHypothesis =>
      obtain ⟨queue, -, rfl⟩ := popAt_eq_some_iff.mp isNext
      rw [inductionHypothesis, World.dispatching_noteAll]
      rfl

/-- A turn forgets nothing that has happened. -/
theorem Turn.history_prefix
    {id : ConnectionId}
    {key : StateKey}
    {budget : Nat}
    {world last : World}
    {report lastReport : PassReport}
    (turn : Turn id key budget world report last lastReport) :
    world.history <+: last.history := by
  induction turn with
  | spent | runsOut => exact List.prefix_refl _
  | delivers inputs succeeded isNext turn inductionHypothesis =>
      rw [World.history_noteAll] at inductionHypothesis
      exact (List.prefix_append _ _).trans inductionHypothesis

/-- A visit forgets nothing that has happened. -/
theorem Visit.history_prefix
    {order : List (ConnectionId × StateKey)}
    {world last : World}
    {report lastReport : PassReport}
    (visit : Visit order world report last lastReport) :
    world.history <+: last.history := by
  induction visit with
  | ends => exact List.prefix_refl _
  | turns turn visit inductionHypothesis => exact turn.history_prefix.trans inductionHypothesis

/-- A pass forgets nothing that has happened. -/
theorem Pass.history_prefix
    {world last : World}
    {report : PassReport}
    (pass : Pass world report last) :
    world.history <+: last.history := by
  cases pass with
  | nested => exact List.prefix_refl _
  | runs isIdle isOrder visit => exact visit.history_prefix

/-- A pass within a pass does nothing. -/
theorem Pass.eq_of_dispatching
    {world last : World}
    {report : PassReport}
    (pass : Pass world report last)
    (isRunning : world.bridge.dispatching = true) :
    last = world ∧ report = .zero := by
  cases pass with
  | nested => exact ⟨rfl, rfl⟩
  | runs isIdle => cases isRunning.symm.trans isIdle

section Laws

open Stateful

variable {m : Type → Type} [Monad m] {σ : Type} [Stateful m σ]

/-- The laws of a host: it holds the bridge, it may choose the order in which a pass visits
the states, and its sink, which is called in passes only, does nothing to the bridge but
tell it things. `shows` tells which worlds a state may show. -/
structure Access.Obeys
    (access : Access m)
    (shows : σ → World → Prop) : Prop where
  bridge : ∀ {before value after world}, Returns access.bridge before value after →
    shows before world → value = world.bridge ∧ shows after world
  setBridge : ∀ {bridge before value after world},
    Returns (access.setBridge bridge) before value after →
    shows before world → shows after { world with bridge := bridge }
  arrange : ∀ {list before order after world},
    Returns (access.arrange list) before order after →
    shows before world → order.Perm list ∧ shows after world
  sink : ∀ {id event before succeeded after world},
    Returns (access.sink id event) before succeeded after → shows before world →
    world.bridge.dispatching = true →
    ∃ inputs, shows after (world.noteAll (delivery id event inputs succeeded))

variable {access : Access m} {shows : σ → World → Prop} {before after : σ} {world : World}

namespace Access.Obeys

/-- What a lawful host does in a turn is a turn. -/
theorem turn
    (obeys : access.Obeys shows)
    {id : ConnectionId}
    {key : StateKey}
    {budget : Nat}
    {report lastReport : PassReport}
    (isShown : shows before world)
    (isRunning : world.bridge.dispatching = true)
    (returned : Returns (Bridge.turn access id key budget report) before lastReport after) :
    ∃ last, Turn id key budget world report last lastReport ∧ shows after last := by
  induction budget generalizing before world report with
  | zero =>
      rw [Bridge.turn, returns_pure_iff] at returned
      obtain ⟨rfl, rfl⟩ := returned
      exact ⟨world, .spent world lastReport, isShown⟩
  | succ budget inductionHypothesis =>
      rw [Bridge.turn, returns_bind_iff] at returned
      obtain ⟨bridge, reading, hasRead, returned⟩ := returned
      obtain ⟨rfl, isShown⟩ := obeys.bridge hasRead isShown
      cases isNext : world.bridge.popAt key with
      | none =>
          simp only [isNext, returns_pure_iff] at returned
          obtain ⟨rfl, rfl⟩ := returned
          exact ⟨world, .runsOut budget lastReport isNext, isShown⟩
      | some taken =>
          obtain ⟨event, bridge⟩ := taken
          simp only [isNext, returns_bind_iff] at returned
          obtain ⟨_, written, hasWritten, succeeded, called, hasCalled, returned⟩ := returned
          have isShown := obeys.setBridge hasWritten isShown
          have isStillRunning : bridge.dispatching = true := by
            obtain ⟨queue, -, rfl⟩ := popAt_eq_some_iff.mp isNext
            exact isRunning
          obtain ⟨inputs, isShown⟩ := obeys.sink hasCalled isShown isStillRunning
          obtain ⟨last, turn, isShown⟩ := inductionHypothesis isShown
            ((World.dispatching_noteAll ..).trans isStillRunning) returned
          exact ⟨last, .delivers inputs succeeded isNext turn, isShown⟩

/-- What a lawful host does in a visit is a visit. -/
theorem visit
    (obeys : access.Obeys shows)
    {order : List (ConnectionId × StateKey)}
    {report lastReport : PassReport}
    (isShown : shows before world)
    (isRunning : world.bridge.dispatching = true)
    (returned : Returns (Bridge.visit access order report) before lastReport after) :
    ∃ last, Visit order world report last lastReport ∧ shows after last := by
  induction order generalizing before world report with
  | nil =>
      rw [Bridge.visit, returns_pure_iff] at returned
      obtain ⟨rfl, rfl⟩ := returned
      exact ⟨world, .ends world lastReport, isShown⟩
  | cons entry rest inductionHypothesis =>
      obtain ⟨id, key⟩ := entry
      simp only [Bridge.visit, returns_bind_iff] at returned
      obtain ⟨bridge, reading, hasRead, middleReport, turned, hasTurned, later, rereading,
        hasReread, _, written, hasWritten, returned⟩ := returned
      obtain ⟨rfl, isShown⟩ := obeys.bridge hasRead isShown
      obtain ⟨middle, turn, isShown⟩ := obeys.turn isShown isRunning hasTurned
      obtain ⟨rfl, isShown⟩ := obeys.bridge hasReread isShown
      have isShown := obeys.setBridge hasWritten isShown
      have isStillRunning : (middle.bridge.retireIfIdle id).dispatching = true := by
        rw [dispatching_retireIfIdle, turn.dispatching_eq]
        exact isRunning
      obtain ⟨last, visit, isShown⟩ := inductionHypothesis isShown isStillRunning returned
      exact ⟨last, .turns turn visit, isShown⟩

/-- What a dispatch does is a pass. -/
theorem pass
    (obeys : access.Obeys shows)
    {report : PassReport}
    (isShown : shows before world)
    (returned : Returns (dispatch access) before report after) :
    ∃ last, Pass world report last ∧ shows after last := by
  rw [dispatch, returns_bind_iff] at returned
  obtain ⟨bridge, reading, hasRead, returned⟩ := returned
  obtain ⟨rfl, isShown⟩ := obeys.bridge hasRead isShown
  cases isRunning : world.bridge.dispatching with
  | true =>
      simp only [isRunning, if_true, returns_pure_iff] at returned
      obtain ⟨rfl, rfl⟩ := returned
      exact ⟨world, .nested isRunning, isShown⟩
  | false =>
      simp only [isRunning, Bool.false_eq_true, if_false, returns_bind_iff,
        returns_pure_iff] at returned
      obtain ⟨_, marked, hasMarked, order, arranged, hasArranged, visited, between, hasVisited,
        later, rereading, hasReread, _, written, hasWritten, rfl, rfl⟩ := returned
      have isShown := obeys.setBridge hasMarked isShown
      obtain ⟨isOrder, isShown⟩ := obeys.arrange hasArranged isShown
      obtain ⟨last, visit, isShown⟩ := obeys.visit isShown rfl hasVisited
      obtain ⟨rfl, isShown⟩ := obeys.bridge hasReread isShown
      exact ⟨_, .runs isRunning isOrder visit, obeys.setBridge hasWritten isShown⟩

end Access.Obeys

/-! ## Calls from outside -/

/-- A call on a bridge from outside: it is told something, or is to make a pass. -/
inductive Call (m : Type → Type)
  | tell (input : Input) (act : m Unit)
  | dispatch (access : Access m)

/-- Make a call. -/
def Call.run : Call m → m Unit
  | tell _ act => act
  | dispatch access => do
      let _ ← Bridge.dispatch access

/-- Make calls one after the other. -/
def runAll : List (Call m) → m Unit
  | [] => pure ()
  | call :: calls => do
      call.run
      runAll calls

/-- The laws of a call. -/
def Call.Obeys
    (shows : σ → World → Prop) : Call m → Prop
  | tell input act => ∀ ⦃before value after world⦄, Returns act before value after →
      shows before world → shows after (world.note (.told input))
  | dispatch access => access.Obeys shows

/-- The worlds that come about by calls. -/
inductive Life (start : World) : World → Prop
  | begins : Life start start
  | isTold
      {world : World}
      (life : Life start world)
      (input : Input) :
      Life start (world.note (.told input))
  | passes
      {world next : World}
      {report : PassReport}
      (life : Life start world)
      (pass : Pass world report next) :
      Life start next

/-- What lawful calls do to a bridge is a life of it. -/
theorem life_of_runAll
    {start : World}
    {calls : List (Call m)}
    (obeys : ∀ call ∈ calls, call.Obeys shows)
    (life : Life start world)
    (isShown : shows before world)
    (returned : Returns (runAll calls) before () after) :
    ∃ last, Life start last ∧ shows after last := by
  induction calls generalizing before world with
  | nil =>
      rw [runAll, returns_pure_iff] at returned
      obtain ⟨-, rfl⟩ := returned
      exact ⟨world, life, isShown⟩
  | cons call calls inductionHypothesis =>
      rw [runAll, returns_bind_iff] at returned
      obtain ⟨_, between, hasRun, returned⟩ := returned
      have obeysRest := fun other member => obeys other (List.mem_cons_of_mem _ member)
      have obeysFirst := obeys call List.mem_cons_self
      cases call with
      | tell input act =>
          exact inductionHypothesis obeysRest (life.isTold input)
            (obeysFirst hasRun isShown) returned
      | dispatch access =>
          rw [Call.run, returns_bind_iff] at hasRun
          obtain ⟨report, dispatched, hasDispatched, hasRun⟩ := hasRun
          rw [returns_pure_iff] at hasRun
          obtain ⟨-, rfl⟩ := hasRun
          obtain ⟨next, pass, isShown⟩ := Access.Obeys.pass obeysFirst isShown hasDispatched
          exact inductionHypothesis obeysRest (life.passes pass) isShown returned

end Laws

end Bridge
end ScriptHost
