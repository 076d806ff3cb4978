import ScriptHost.Proofs.Bridge.Queues
import ScriptHost.Proofs.Frame.Confinement
import Mathlib.Logic.Relation

/-!
# Peers cannot fill a bridge

Whatever happens to a bridge, and at any moment of a pass as well as between calls, every
decoder that it has ever made is confined: those of the connections that it tracks, and those
that a pass still holds after the bridge was cleared. For what a peer sends reaches a decoder by
pushes only, and all else that happens to a decoder is that it forgets what it holds.
-/

namespace ScriptHost
namespace Bridge

/-! ## Changes -/

/-- What happens to a bridge from one moment to the next, in a pass or outside: it is told
something, an event is taken from a state, a connection may be forgotten, and the mark of a
pass is set or taken away. -/
inductive Change : Bridge → Bridge → Prop
  | isTold
      (bridge : Bridge)
      (input : Input) :
      Change bridge (input.onBridge bridge)
  | takes
      {bridge next : Bridge}
      {key : StateKey}
      {event : ConnectionEvent}
      (isNext : bridge.popAt key = some (event, next)) :
      Change bridge next
  | retires
      (bridge : Bridge)
      (id : ConnectionId) :
      Change bridge (bridge.retireIfIdle id)
  | marks
      (bridge : Bridge)
      (dispatching : Bool) :
      Change bridge (bridge.mark dispatching)

/-- What happens to a bridge from one moment to a later one. -/
abbrev Changes : Bridge → Bridge → Prop :=
  Relation.ReflTransGen Change

/-- What happens to a bridge changes it by what it is told only. -/
theorem changes_note
    (world : World)
    (happening : Happening) :
    Changes world.bridge (world.note happening).bridge := by
  cases happening with
  | told input => exact .single (.isTold world.bridge input)
  | delivered | answered => exact .refl

theorem changes_noteAll
    (world : World)
    (happenings : List Happening) :
    Changes world.bridge (world.noteAll happenings).bridge := by
  induction happenings generalizing world with
  | nil => exact .refl
  | cons happening happenings inductionHypothesis =>
      exact (changes_note world happening).trans (inductionHypothesis (world.note happening))

/-- A turn is a sequence of changes. -/
theorem Turn.changes
    {id : ConnectionId}
    {key : StateKey}
    {budget : Nat}
    {world last : World}
    {report lastReport : PassReport}
    (turn : Turn id key budget world report last lastReport) :
    Changes world.bridge last.bridge := by
  induction turn with
  | spent | runsOut => exact .refl
  | @delivers world last next event budget report lastReport inputs succeeded isNext turn
      inductionHypothesis =>
      have handedOut : Changes next _ :=
        changes_noteAll { world with bridge := next } (delivery id event inputs succeeded)
      exact .head (.takes isNext) (handedOut.trans inductionHypothesis)

/-- A visit is a sequence of changes. -/
theorem Visit.changes
    {order : List (ConnectionId × StateKey)}
    {world last : World}
    {report lastReport : PassReport}
    (visit : Visit order world report last lastReport) :
    Changes world.bridge last.bridge := by
  induction visit with
  | ends => exact .refl
  | turns turn visit inductionHypothesis =>
      exact turn.changes.trans (.head (.retires _ _) inductionHypothesis)

/-- A pass is a sequence of changes. -/
theorem Pass.changes
    {world last : World}
    {report : PassReport}
    (pass : Pass world report last) :
    Changes world.bridge last.bridge := by
  cases pass with
  | nested => exact .refl
  | runs isIdle isOrder visit =>
      exact .head (.marks _ true) (visit.changes.tail (.marks _ false))

/-- The life of a bridge is a sequence of changes. -/
theorem Life.changes
    {start last : World}
    (life : Life start last) :
    Changes start.bridge last.bridge := by
  induction life with
  | begins => exact .refl
  | isTold life input inductionHypothesis => exact inductionHypothesis.tail (.isTold _ input)
  | passes life pass inductionHypothesis => exact inductionHypothesis.trans pass.changes

/-! ## Decoders -/

/-- Every decoder that a bridge has made is confined. -/
structure Confines
    (limit : Nat)
    (bridge : Bridge) : Prop where
  limit_eq : bridge.limit = limit
  isConfined : ∀ key, (bridge.stateAt key).decoder.IsConfined limit

theorem confines_new (limit : Nat) : (new limit).Confines limit where
  limit_eq := rfl
  isConfined _ := FrameDecoder.isConfined_new limit

namespace Confines

variable {limit : Nat} {bridge : Bridge}

/-- Decoders stay confined when a state is changed by what keeps its decoder confined. -/
theorem updateAt
    (confines : bridge.Confines limit)
    (key : StateKey)
    {change : ConnectionState → ConnectionState}
    (keeps : ∀ state : ConnectionState, state.decoder.IsConfined limit →
      (change state).decoder.IsConfined limit) :
    (bridge.updateAt key change).Confines limit where
  limit_eq := confines.limit_eq
  isConfined other := by
    rcases Nat.lt_or_ge key bridge.states.size with isMade | notMade
    · rw [stateAt_updateAt bridge isMade]
      split
      · exact keeps _ (confines.isConfined key)
      · exact confines.isConfined other
    · have unchanged : (bridge.updateAt key change).stateAt other = bridge.stateAt other := by
        unfold Bridge.updateAt stateAt
        rw [Array.getElem?_modify]
        split
        · rename_i same
          rw [← same, Array.getElem?_eq_none notMade]
          rfl
        · rfl
      rw [unchanged]
      exact confines.isConfined other

theorem update
    (confines : bridge.Confines limit)
    (id : ConnectionId)
    {change : ConnectionState → ConnectionState}
    (keeps : ∀ state : ConnectionState, state.decoder.IsConfined limit →
      (change state).decoder.IsConfined limit) :
    (bridge.update id change).Confines limit := by
  unfold Bridge.update
  split
  · exact confines.updateAt _ keeps
  · exact confines

/-- Decoders stay confined when a connection is tracked. -/
theorem track
    (confines : bridge.Confines limit)
    (id : ConnectionId) :
    (bridge.track id).Confines limit := by
  cases found : bridge.key? id with
  | some key => rwa [track_of_key?_eq_some found]
  | none =>
      rw [track_of_key?_eq_none found]
      refine ⟨confines.limit_eq, fun key => ?_⟩
      have isFresh : (ConnectionState.fresh bridge.limit).decoder.IsConfined limit :=
        confines.limit_eq ▸ FrameDecoder.isConfined_new bridge.limit
      unfold stateAt
      rw [Array.getElem?_push]
      split
      · exact isFresh
      · exact confines.isConfined key

/-- Decoders stay confined whatever a bridge is told. -/
theorem onBridge
    (confines : bridge.Confines limit)
    (input : Input) :
    (input.onBridge bridge).Confines limit := by
  cases input with
  | connect id =>
      refine (confines.track id).update id fun state confined => ?_
      unfold ConnectionState.connect
      split <;> exact confined
  | disconnect id =>
      refine confines.update id fun state confined => ?_
      unfold ConnectionState.disconnect
      simp only
      split <;> exact confined.clear
  | receive id chunk =>
      refine confines.update id fun state confined => ?_
      unfold ConnectionState.receive
      split
      · exact confined.push chunk
      · exact confined
  | clear => exact ⟨confines.limit_eq, confines.isConfined⟩

/-- Decoders stay confined in every change. -/
theorem changed
    (confines : bridge.Confines limit)
    {next : Bridge}
    (changed : Change bridge next) :
    next.Confines limit := by
  cases changed with
  | isTold input => exact confines.onBridge input
  | takes isNext =>
      obtain ⟨queue, -, rfl⟩ := popAt_eq_some_iff.mp isNext
      exact confines.updateAt _ fun _ confined => confined
  | retires id =>
      unfold retireIfIdle
      split
      · exact ⟨confines.limit_eq, confines.isConfined⟩
      · exact confines
  | marks dispatching => exact ⟨confines.limit_eq, confines.isConfined⟩

/-- Decoders stay confined in all changes. -/
theorem changes
    (confines : bridge.Confines limit)
    {later : Bridge}
    (changes : Changes bridge later) :
    later.Confines limit := by
  induction changes with
  | refl => exact confines
  | tail _ changed inductionHypothesis => exact inductionHypothesis.changed changed

end Confines

section Runs

open Stateful

variable {m : Type → Type} [Monad m] {σ : Type} [Stateful m σ] {view : σ → World}

/-- Whatever calls are made on a bridge, whatever the sinks do while they are called, and
whatever happens from then on until any later moment, every decoder that the bridge has made
endures what its peer sends. -/
theorem endures_of_runAll
    {calls : List (Call m)}
    {limit : Nat}
    {start before : σ}
    {later : Bridge}
    (callsObey : ∀ call ∈ calls, call.Obeys fun state world => world = view state)
    (isNew : view start = ⟨.new limit, []⟩)
    (hasRun : Returns (runAll calls) start () before)
    (changes : Changes (view before).bridge later)
    (key : StateKey) :
    (later.stateAt key).decoder.Endures limit := by
  obtain ⟨world, life, rfl⟩ := life_of_runAll callsObey .begins rfl hasRun
  rw [isNew] at life
  exact (((confines_new limit).changes life.changes).changes changes |>.isConfined key).endures

/-- A peer that sends half of a frame, is cleared away in the midst of a pass and begins anew,
and then sends a length that no frame may have after one that may come. -/
def hostilePeer : List (Call (StateM World)) :=
  [tellCall (.connect ⟨"peer"⟩), tellCall (.receive ⟨"peer"⟩ [8, 0, 0, 0, 1]),
    .dispatch (callingAccess (fun id _ => [tellCall .clear, tellCall (.connect id)])
      fun _ _ => true),
    tellCall (.receive ⟨"peer"⟩ [5, 0, 0, 0, 0, 255, 255, 255, 255, 0, 0])]

theorem obeys_hostilePeer :
    ∀ call ∈ hostilePeer, call.Obeys fun state world => world = state := by
  have sinkObeys : ∀ id : ConnectionId, ∀ call ∈ [tellCall .clear, tellCall (.connect id)],
      call.Obeys fun state world => world = state := by
    simp only [List.forall_mem_cons]
    exact fun _ => ⟨obeys_tellCall _, obeys_tellCall _, fun _ member => nomatch member⟩
  simp only [hostilePeer, List.forall_mem_cons]
  exact ⟨obeys_tellCall _, obeys_tellCall _, obeys_callingAccess (fun id _ => sinkObeys id) _,
    obeys_tellCall _, fun _ member => nomatch member⟩

/-- A peer that sends what is no packet leaves nothing behind but a few bytes. -/
theorem hostilePeer_endures :
    let before := ((runAll hostilePeer).run ⟨.new 64, []⟩).2
    let later := before.bridge.onBytesReceived ⟨"peer"⟩ [64, 0, 0]
    before.bridge.trackedConnections = 1 ∧ before.bridge.states.size = 2 ∧
      (later.stateOf ⟨"peer"⟩).decoder.buffer = [64, 0, 0] ∧
      ∀ key, (later.stateAt key).decoder.Endures 64 := by
  intro before later
  have hasRun := returns_run (runAll hostilePeer) (World.mk (.new 64) [])
  have endures := fun key => endures_of_runAll obeys_hostilePeer rfl hasRun
    (.single (.isTold before.bridge (.receive ⟨"peer"⟩ [64, 0, 0]))) key
  exact ⟨by decide +kernel, by decide +kernel, by decide +kernel, endures⟩

end Runs

end Bridge
end ScriptHost
