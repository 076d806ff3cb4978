import ScriptHost.Proofs.Bridge.Offers

/-!
# Passes within passes

A sink may ask for another pass with a sink of its own, which may do the same, and so on. The
mark on the bridge is set as long as a pass is running, and a pass that finds it set leaves it
alone. So only the outermost pass ever calls a sink, all others might as well be left out, and
when it is over the bridge is ready for the next one.
-/

namespace ScriptHost
namespace Bridge

variable {m : Type → Type}

/-- What a sink does when it is called. It acts on what it finds, asks for further passes, whose
reports it hears, and in the end says whether it has succeeded. -/
inductive Reaction (m : Type → Type) : Type 1
  | answers (succeeded : Bool)
  | acts
      {α : Type}
      (action : m α)
      (next : α → Reaction m)
  | dispatches
      (sink : ConnectionId → ConnectionEvent → Reaction m)
      (next : PassReport → Reaction m)

/-- The same bridge, visited in the same order, with another sink. -/
def Access.withSink
    (access : Access m)
    (sink : ConnectionId → ConnectionEvent → m Bool) : Access m :=
  { access with sink := sink }

variable [Monad m]

namespace Reaction

/-- Carry out a reaction. The passes that it asks for are passes over the same bridge. -/
def run (access : Access m) : Reaction m → m Bool
  | answers succeeded => pure succeeded
  | acts action next => do
      let value ← action
      (next value).run access
  | dispatches sink next => do
      let report ← dispatch (access.withSink fun id event => (sink id event).run access)
      (next report).run access

/-- The reaction without its passes, as if they had delivered nothing. -/
def withoutPasses : Reaction m → Reaction m
  | answers succeeded => .answers succeeded
  | acts action next => .acts action fun value => (next value).withoutPasses
  | dispatches _ next => (next .zero).withoutPasses

end Reaction

/-- The access whose sink reacts. -/
def Access.reacting
    (access : Access m)
    (sink : ConnectionId → ConnectionEvent → Reaction m) : Access m :=
  access.withSink fun id event => (sink id event).run access

section Laws

open Stateful

variable {σ : Type} [Stateful m σ] {view : σ → World}

/-- A reaction does to the bridge what may happen to it. Nothing is asked of the sinks of its
passes. -/
def Reaction.Obeys (view : σ → World) : Reaction m → Prop
  | answers _ => True
  | acts action next =>
      (∀ before value after, Returns action before value after →
        ∃ happenings, view after = (view before).noteAll happenings) ∧
      ∀ value, (next value).Obeys view
  | dispatches _ next => ∀ report, (next report).Obeys view

/-- To read the bridge is to do nothing. -/
def Access.Reads
    (access : Access m)
    (view : σ → World) : Prop :=
  ∀ state, Concludes access.bridge state (view state).bridge state

variable {access : Access m}

/-- A pass on a bridge that is marked returns at once, and nothing has changed. Its sink might
be anything. -/
theorem Access.Reads.concludes_dispatch
    (reads : access.Reads view)
    {state : σ}
    (isRunning : (view state).bridge.dispatching = true)
    (sink : ConnectionId → ConnectionEvent → m Bool) :
    Concludes (dispatch (access.withSink sink)) state .zero state := by
  refine (reads state).bind ?_
  rw [if_pos isRunning]
  exact concludes_pure _ _

/-- While a pass is running, the passes of a reaction make no difference. -/
theorem Reaction.returns_withoutPasses_iff
    (reads : access.Reads view)
    (reaction : Reaction m)
    (obeys : reaction.Obeys view)
    {before after : σ}
    (isRunning : (view before).bridge.dispatching = true)
    (succeeded : Bool) :
    Returns (reaction.withoutPasses.run access) before succeeded after ↔
      Returns (reaction.run access) before succeeded after := by
  induction reaction generalizing before with
  | answers => rfl
  | acts action next inductionHypothesis =>
      obtain ⟨actionObeys, nextObeys⟩ := obeys
      rw [withoutPasses, run, run, returns_bind_iff, returns_bind_iff]
      refine exists_congr fun value => exists_congr fun between => ?_
      refine and_congr_right fun returned => ?_
      obtain ⟨happenings, isBetween⟩ := actionObeys _ _ _ returned
      apply inductionHypothesis value (nextObeys value)
      rw [isBetween, World.dispatching_noteAll]
      exact isRunning
  | dispatches sink next _ inductionHypothesis =>
      -- The pass finds the mark of the one that is running, and reports that nothing came of it.
      rw [withoutPasses, run, inductionHypothesis .zero (obeys .zero) isRunning, returns_bind_iff]
      have nested := reads.concludes_dispatch isRunning fun id event => (sink id event).run access
      constructor
      · exact fun returned => ⟨.zero, before, nested.returns, returned⟩
      · rintro ⟨report, between, hasDispatched, returned⟩
        obtain ⟨rfl, rfl⟩ := (nested report between).mp hasDispatched
        exact returned

/-! ## Sinks that cannot be told apart -/

/-- Two sinks do the same while a pass is running. -/
def SameSinks
    (view : σ → World)
    (first second : ConnectionId → ConnectionEvent → m Bool) : Prop :=
  ∀ ⦃id event before succeeded after⦄, (view before).bridge.dispatching = true →
    (Returns (first id event) before succeeded after ↔
      Returns (second id event) before succeeded after)

namespace SameSinks

variable {first second : ConnectionId → ConnectionEvent → m Bool} {before after : σ}
  {report lastReport : PassReport}

theorem symm (same : SameSinks view first second) : SameSinks view second first :=
  fun _ _ _ _ _ isRunning => (same isRunning).symm

/-- A sink that does the same as a lawful one is lawful. -/
theorem obeys
    (same : SameSinks view first second)
    (obeys : (access.withSink first).Obeys fun state world => world = view state) :
    (access.withSink second).Obeys fun state world => world = view state where
  bridge := obeys.bridge
  setBridge := obeys.setBridge
  arrange := obeys.arrange
  sink := by
    rintro id event before succeeded after _ returned rfl isRunning
    exact obeys.sink ((same isRunning).mpr returned) rfl isRunning

/-- Sinks that do the same have the same turns. -/
theorem turn
    (same : SameSinks view first second)
    (obeys : (access.withSink first).Obeys fun state world => world = view state)
    {id : ConnectionId}
    {key : StateKey}
    {budget : Nat}
    (isRunning : (view before).bridge.dispatching = true)
    (returned : Returns (Bridge.turn (access.withSink first) id key budget report)
      before lastReport after) :
    Returns (Bridge.turn (access.withSink second) id key budget report)
      before lastReport after := by
  induction budget generalizing before report with
  | zero => exact returned
  | succ budget inductionHypothesis =>
      rw [Bridge.turn, returns_bind_iff] at returned ⊢
      obtain ⟨bridge, reading, hasRead, returned⟩ := returned
      refine ⟨bridge, reading, hasRead, ?_⟩
      obtain ⟨rfl, isReading⟩ := obeys.bridge hasRead rfl
      rw [isReading] at isRunning returned ⊢
      cases isNext : (view reading).bridge.popAt key with
      | none =>
          simp only [isNext] at returned ⊢
          exact returned
      | some taken =>
          obtain ⟨event, bridge⟩ := taken
          simp only [isNext, returns_bind_iff] at returned ⊢
          obtain ⟨_, written, hasWritten, succeeded, called, hasCalled, returned⟩ := returned
          have isWritten := obeys.setBridge hasWritten rfl
          have isStillRunning : (view written).bridge.dispatching = true := by
            obtain ⟨queue, -, rfl⟩ := popAt_eq_some_iff.mp isNext
            rw [← isWritten]
            exact isRunning
          obtain ⟨inputs, isCalled⟩ := obeys.sink hasCalled rfl isStillRunning
          refine ⟨_, written, hasWritten, succeeded, called, (same isStillRunning).mp hasCalled,
            inductionHypothesis ?_ returned⟩
          rw [← isCalled, World.dispatching_noteAll]
          exact isStillRunning

/-- Sinks that do the same have the same visits. -/
theorem visit
    (same : SameSinks view first second)
    (obeys : (access.withSink first).Obeys fun state world => world = view state)
    {order : List (ConnectionId × StateKey)}
    (isRunning : (view before).bridge.dispatching = true)
    (returned : Returns (Bridge.visit (access.withSink first) order report)
      before lastReport after) :
    Returns (Bridge.visit (access.withSink second) order report) before lastReport after := by
  induction order generalizing before report with
  | nil => exact returned
  | cons entry rest inductionHypothesis =>
      obtain ⟨id, key⟩ := entry
      simp only [Bridge.visit, returns_bind_iff] at returned ⊢
      obtain ⟨bridge, reading, hasRead, middleReport, turned, hasTurned, later, rereading,
        hasReread, _, written, hasWritten, returned⟩ := returned
      obtain ⟨rfl, isReading⟩ := obeys.bridge hasRead rfl
      rw [isReading] at isRunning
      obtain ⟨_, hasTurn, rfl⟩ := obeys.turn rfl isRunning hasTurned
      obtain ⟨rfl, isRereading⟩ := obeys.bridge hasReread rfl
      have isWritten := obeys.setBridge hasWritten rfl
      refine ⟨_, reading, hasRead, middleReport, turned, ?_, _, rereading, hasReread, _, written,
        hasWritten, inductionHypothesis ?_ returned⟩
      · rw [isReading] at hasTurned ⊢
        exact same.turn obeys isRunning hasTurned
      · rw [← isWritten]
        exact (dispatching_retireIfIdle ..).trans (hasTurn.dispatching_eq.trans isRunning)

/-- Sinks that do the same have the same passes. -/
theorem dispatch
    (same : SameSinks view first second)
    (obeys : (access.withSink first).Obeys fun state world => world = view state)
    (returned : Returns (Bridge.dispatch (access.withSink first)) before report after) :
    Returns (Bridge.dispatch (access.withSink second)) before report after := by
  rw [Bridge.dispatch, returns_bind_iff] at returned ⊢
  obtain ⟨bridge, reading, hasRead, returned⟩ := returned
  refine ⟨bridge, reading, hasRead, ?_⟩
  cases isRunning : bridge.dispatching with
  | true =>
      simp only [isRunning, if_true] at returned ⊢
      exact returned
  | false =>
      simp only [isRunning, Bool.false_eq_true, if_false, returns_bind_iff] at returned ⊢
      obtain ⟨_, marked, hasMarked, order, arranged, hasArranged, visitReport, between,
        hasVisited, hasEnded⟩ := returned
      have isMarked := obeys.setBridge hasMarked rfl
      obtain ⟨-, isArranged⟩ := obeys.arrange hasArranged rfl
      refine ⟨_, marked, hasMarked, order, arranged, hasArranged, visitReport, between,
        same.visit obeys ?_ hasVisited, hasEnded⟩
      rw [← isArranged, ← isMarked]

end SameSinks

variable (m) in
/-- A pass may be made: no other one is running, and a pass delivers for each connection what
is queued for it when its turn starts. -/
def AcceptsPass
    (view : σ → World)
    (state : σ) : Prop :=
  (view state).bridge.dispatching = false ∧
    ∀ (access : Access m) (report : PassReport) (last : σ),
      access.Obeys (fun state world => world = view state) →
      Returns (dispatch access) state report last →
      ∃ events, (view last).history = (view state).history ++ events ∧
        ∀ id, deliveredFor id events = offered (view state).bridge id (beforeTurn id events)

/-- However deep sinks ask for passes of their own, a pass that begins while another is running
reports nothing delivered and leaves everything as it is, whatever its sink would do. The pass
that is running goes on as if it had never begun. When that pass is over, the next one may be
made. -/
theorem dispatch_ignores_nested
    {calls : List (Call m)}
    {sink : ConnectionId → ConnectionEvent → Reaction m}
    {limit : Nat}
    {start before : σ}
    (callsObey : ∀ call ∈ calls, call.Obeys fun state world => world = view state)
    (isNew : view start = ⟨.new limit, []⟩)
    (hasRun : Returns (runAll calls) start () before)
    (reads : access.Reads view)
    (obeys : (access.reacting sink).Obeys fun state world => world = view state)
    (reactionsObey : ∀ id event, (sink id event).Obeys view) :
    (∀ state inner, (view state).bridge.dispatching = true →
      Concludes (dispatch (access.withSink inner)) state .zero state) ∧
    (∀ report after, Returns (dispatch (access.reacting sink)) before report after ↔
      Returns (dispatch (access.reacting fun id event => (sink id event).withoutPasses))
        before report after) ∧
    ∀ report after, Returns (dispatch (access.reacting sink)) before report after →
      AcceptsPass m view after := by
  have same : SameSinks view (fun id event => (sink id event).run access)
      (fun id event => (sink id event).withoutPasses.run access) := by
    intro id event state succeeded called isRunning
    exact ((sink id event).returns_withoutPasses_iff reads (reactionsObey id event) isRunning
      succeeded).symm
  refine ⟨fun state inner isRunning => reads.concludes_dispatch isRunning inner,
    fun report after => ⟨same.dispatch obeys, same.symm.dispatch (same.obeys obeys)⟩, ?_⟩
  intro report after returned
  obtain ⟨world, life, rfl⟩ := life_of_runAll callsObey .begins rfl hasRun
  rw [isNew] at life
  obtain ⟨next, pass, rfl⟩ := obeys.pass rfl returned
  have lifeOn := life.passes pass
  obtain ⟨isIdle, -, known, -, faithful, -⟩ := lifeOn.remembers rfl (faithful_new limit)
  refine ⟨isIdle, ?_⟩
  intro other otherReport last otherObeys otherReturned
  obtain ⟨_, otherPass, rfl⟩ := otherObeys.pass rfl otherReturned
  obtain ⟨events, isHistory, -, isOffered⟩ := otherPass.delivers_offered isIdle faithful
  exact ⟨events, isHistory, isOffered⟩

end Laws

section Runs

open Stateful

/-- A sink that asks for a pass whose sink asks for another one, which would clear the bridge.
As nothing is delivered, it ends the connection, and fails. -/
def insistentSink
    (id : ConnectionId)
    (event : ConnectionEvent) : Reaction (StateM World) :=
  let clears : ConnectionId → ConnectionEvent → Reaction (StateM World) := fun _ _ =>
    .acts (modify fun world => world.note (.told .clear)) fun _ => .answers true
  .acts (modify fun world => world.note (.delivered id event)) fun _ =>
    .dispatches (fun _ _ => .dispatches clears fun _ => .answers true) fun report =>
      let input := if report = .zero then .disconnect id else .clear
      .acts (modify fun world => world.noteAll [.told input, .answered false]) fun _ =>
        .answers false

theorem reads_quietAccess : quietAccess.Reads fun world => world :=
  fun state => concludes_run quietAccess.bridge state

theorem obeys_insistentSink
    (id : ConnectionId)
    (event : ConnectionEvent) :
    (insistentSink id event).Obeys fun world => world := by
  refine ⟨?_, fun _ report => ⟨?_, fun _ => trivial⟩⟩
  · rintro before value after returned
    cases returned
    exact ⟨[.delivered id event], rfl⟩
  · rintro before value after returned
    cases returned
    exact ⟨_, rfl⟩

theorem obeys_reacting_insistentSink :
    (quietAccess.reacting insistentSink).Obeys fun state world => world = state where
  bridge := obeys_quietAccess.bridge
  setBridge := obeys_quietAccess.setBridge
  arrange := obeys_quietAccess.arrange
  sink := by
    rintro id event before succeeded after world returned rfl isRunning
    have returnedAlone := ((insistentSink id event).returns_withoutPasses_iff reads_quietAccess
      (obeys_insistentSink id event) isRunning succeeded).mpr returned
    cases returnedAlone
    exact ⟨[.disconnect id], rfl⟩

/-- A pass over a peer that has begun. -/
def insistentPass (world : World) : PassReport × World :=
  (dispatch (quietAccess.reacting insistentSink)).run world

/-- A sink that calls for passes within a pass is called as if it did not. -/
theorem insistentPass_ignores_nested :
    let before := ((runAll [tellCall (.connect ⟨"peer"⟩)]).run ⟨.new 64, []⟩).2
    let middle := (insistentPass before).2
    (∀ state : World, ∀ inner, state.bridge.dispatching = true →
      Concludes (dispatch (quietAccess.withSink inner)) state .zero state) ∧
    (∀ report after, Returns (dispatch (quietAccess.reacting insistentSink)) before report after ↔
      Returns (dispatch (quietAccess.reacting fun id event =>
        (insistentSink id event).withoutPasses)) before report after) ∧
    (insistentPass before).1 = ⟨1, 1⟩ ∧
      (middle.bridge.stateOf ⟨"peer"⟩).queue = [.disconnected] ∧
      AcceptsPass (StateM World) (fun world => world) middle := by
  intro before middle
  have callsObey : ∀ call ∈ [tellCall (.connect ⟨"peer"⟩)],
      call.Obeys fun state world => world = state :=
    List.forall_mem_singleton.mpr (obeys_tellCall _)
  have hasRun := returns_run (runAll [tellCall (.connect ⟨"peer"⟩)]) (World.mk (.new 64) [])
  have returned : Returns (dispatch (quietAccess.reacting insistentSink)) before
      (insistentPass before).1 middle :=
    returns_run (dispatch (quietAccess.reacting insistentSink)) before
  have ignores := dispatch_ignores_nested callsObey rfl hasRun reads_quietAccess
    obeys_reacting_insistentSink obeys_insistentSink
  exact ⟨ignores.1, ignores.2.1, by decide +kernel, by decide +kernel,
    ignores.2.2 _ middle returned⟩

end Runs

end Bridge
end ScriptHost
