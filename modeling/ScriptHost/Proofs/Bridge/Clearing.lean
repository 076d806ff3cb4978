import ScriptHost.Proofs.Bridge.Offers

/-!
# Clearing a bridge

A bridge that is cleared is meant to forget everything. It does: what it tracks afterwards
tells only of what was reported after the clear, and so does every later pass. But a pass that
is running goes on with the states that it holds, and delivers what was queued in them before
the clear. So a clear is complete just if nothing is delivered in the rest of the pass.
-/

namespace ScriptHost
namespace Bridge

/-- A bridge is as good as new but for what happened since: what was delivered since, and what
is queued, tells of the epochs since. -/
def IsAnewSince
    (bridge : Bridge)
    (limit : Nat)
    (events : List Happening) : Prop :=
  ∀ id, (courseOf id events).Agrees limit (deliveredFor id events) (bridge.stateOf id)

/-! ## What is remembered after a clear -/

theorem sinceClear_append
    (early : List Happening)
    {late : List Happening}
    (isLast : .told .clear ∉ late) :
    sinceClear (early ++ .told .clear :: late) = late := by
  have isKept : ∀ happening ∈ late.reverse, (happening != .told .clear) = true := by
    intro happening member
    exact bne_iff_ne.mpr fun same => isLast (same ▸ List.mem_reverse.mp member)
  rw [sinceClear, List.rtakeWhile, List.reverse_append, List.reverse_cons, List.append_assoc,
    List.takeWhile_append_of_pos isKept, List.singleton_append,
    List.takeWhile_cons_of_neg (by simp), List.append_nil, List.reverse_reverse]

/-- Nothing is offered any more after a clear. -/
theorem offered_append_clear
    (start : Bridge)
    (id : ConnectionId)
    (early late : List Happening) :
    offered start id (early ++ .told .clear :: late) = offered start id early := by
  by_cases clears : .told .clear ∈ early
  · rw [offered, fullState_append_of_mem clears, offered]
  · have isNone : untilClear (.told .clear :: late) = [] := List.takeWhile_cons_of_neg (by simp)
    rw [offered, fullState_append_of_not_mem clears, isNone, offered]
    rfl

theorem deliveredFor_reports
    (id : ConnectionId)
    (events : List Happening) :
    deliveredFor id (reports events) = [] := by
  rw [deliveredFor, List.filterMap_eq_nil_iff]
  intro happening member
  cases happening with
  | delivered other event => cases (List.mem_filter.mp member).2
  | told | answered => rfl

theorem noticesFor_reports
    (id : ConnectionId)
    (events : List Happening) :
    noticesFor id (reports events) = noticesFor id events := by
  rw [noticesFor, reports, List.filterMap_filter]
  apply List.filterMap_congr
  intro happening _
  cases happening <;> rfl

/-- What a bridge has to know after a clear is what was reported since. -/
theorem remembered_append_clear
    (past early : List Happening)
    {late : List Happening}
    (isLast : .told .clear ∉ late) :
    remembered past (early ++ .told .clear :: late) = reports late := by
  rw [remembered, if_pos (List.mem_append_right _ List.mem_cons_self),
    sinceClear_append early isLast]

/-- A bridge that knows what was reported since a clear, and delivered later. -/
theorem Faithful.agrees_since
    {limit : Nat}
    {bridge : Bridge}
    {late later : List Happening}
    (faithful : Faithful limit ⟨bridge, reports late ++ later⟩)
    (id : ConnectionId) :
    (courseOf id (late ++ later)).Agrees limit (deliveredFor id later) (bridge.stateOf id) := by
  have sameCourse : courseOf id (reports late) = courseOf id late :=
    congrArg (List.foldl Course.step .empty) (noticesFor_reports id late)
  have agrees := faithful.agrees id
  rw [deliveredFor_append, deliveredFor_reports, List.nil_append, courseOf_append,
    sameCourse, ← courseOf_append] at agrees
  exact agrees

/-- If nothing but what was delivered in the rest of a pass is missing from what was delivered
since a clear, the bridge is as good as new just if nothing was delivered then. -/
theorem isAnewSince_iff
    {limit : Nat}
    {bridge : Bridge}
    {late later : List Happening}
    (agrees : ∀ id, (courseOf id (late ++ later)).Agrees limit (deliveredFor id later)
      (bridge.stateOf id)) :
    bridge.IsAnewSince limit (late ++ later) ↔ ∀ id, deliveredFor id late = [] := by
  constructor
  · intro isAnew id
    have isTold := (isAnew id).events_eq.trans (agrees id).events_eq.symm
    rw [deliveredFor_append] at isTold
    exact List.append_left_eq_self.mp (List.append_cancel_right isTold)
  · intro isNone id
    rw [deliveredFor_append, isNone id]
    exact agrees id

/-! ## Whole runs -/

section Runs

open Stateful

variable {m : Type → Type} [Monad m] {σ : Type} [Stateful m σ] {view : σ → World} {limit : Nat}

/-- What comes of a call on a bridge that knows what was reported: it knows that also
afterwards, and delivers nothing but what was queued until it was cleared. -/
theorem Call.Obeys.remembers
    {call : Call m}
    {before after : σ}
    {past : List Happening}
    (obeys : call.Obeys fun state world => world = view state)
    (returned : Returns call.run before () after)
    (isIdle : (view before).bridge.dispatching = false)
    (faithful : Faithful limit ⟨(view before).bridge, past⟩) :
    (view after).bridge.dispatching = false ∧
      ∃ events, (view after).history = (view before).history ++ events ∧
        Faithful limit ⟨(view after).bridge, remembered past events⟩ ∧
        (∀ id, deliveredFor id events <+: offered (view before).bridge id events) ∧
        ∀ access, call = .dispatch access → ∀ id,
          deliveredFor id events = offered (view before).bridge id (beforeTurn id events) := by
  cases call with
  | tell input act =>
      have isAfter : (view before).note (.told input) = view after := obeys returned rfl
      rw [← isAfter]
      refine ⟨(dispatching_onBridge (.told input) _).trans isIdle, [.told input], rfl, ?_,
        fun _ => List.nil_prefix, fun access same => nomatch same⟩
      by_cases isClear : input = .clear
      · subst isClear
        have isForgotten := remembered_concat_clear past []
        rw [List.nil_append] at isForgotten
        rw [isForgotten]
        exact faithful.clear
      · rw [remembered_of_not_mem (by simp [Ne.symm isClear])]
        exact faithful.tell isClear
  | dispatch access =>
      rw [Call.run, returns_bind_iff] at returned
      obtain ⟨report, dispatched, hasDispatched, returned⟩ := returned
      rw [returns_pure_iff] at returned
      obtain ⟨-, rfl⟩ := returned
      obtain ⟨last, pass, rfl⟩ := Access.Obeys.pass obeys rfl hasDispatched
      obtain ⟨events, isHistory, remembers, isOffered⟩ := pass.delivers_offered isIdle faithful
      refine ⟨pass.dispatching_eq isIdle, events, isHistory, remembers, ?_, fun _ _ => isOffered⟩
      intro id
      obtain ⟨rest, isRest⟩ := beforeTurn_isPrefix id events
      have isPrefix := offered_isPrefix (view before).bridge id (beforeTurn id events) rest
      rw [isRest] at isPrefix
      rw [isOffered id]
      exact isPrefix

/-- A bridge may be cleared at any time, also by a sink while a pass is running. What is
delivered in the rest of the pass was queued before. What is tracked from then on, and all that
later passes deliver, tells only of what was reported since, in each epoch with a new decoder.
So the clear makes the bridge as good as new just if nothing is delivered in the rest of the
pass, as always when it comes between passes. -/
theorem clear_isAnewSince_iff
    {calls more : List (Call m)}
    {call : Call m}
    {start before middle after : σ}
    {early late later : List Happening}
    (obeys : ∀ other ∈ calls ++ call :: more, other.Obeys fun state world => world = view state)
    (isNew : view start = ⟨.new limit, []⟩)
    (hasRun : Returns (runAll calls) start () before)
    (isMade : Returns call.run before () middle)
    (goesOn : Returns (runAll more) middle () after)
    (isCleared : (view middle).history =
      (view before).history ++ (early ++ .told .clear :: late))
    (isLater : (view after).history = (view middle).history ++ later) :
    (∀ id, deliveredFor id early ++ deliveredFor id late <+:
      offered (view before).bridge id early) ∧
    (∀ access, call = .dispatch access → ∀ id,
      deliveredFor id early ++ deliveredFor id late =
        offered (view before).bridge id (beforeTurn id (early ++ .told .clear :: late))) ∧
    (.told .clear ∉ late ++ later →
      (∀ id, (courseOf id (late ++ later)).Agrees limit (deliveredFor id later)
        ((view after).bridge.stateOf id)) ∧
      ((view after).bridge.IsAnewSince limit (late ++ later) ↔
        ∀ id, deliveredFor id late = [])) := by
  have obeysBefore := fun other member => obeys other (List.mem_append_left _ member)
  have obeysCall := obeys call (List.mem_append_right _ List.mem_cons_self)
  have obeysMore := fun other member =>
    obeys other (List.mem_append_right _ (List.mem_cons_of_mem _ member))
  obtain ⟨world, life, rfl⟩ := life_of_runAll obeysBefore .begins rfl hasRun
  rw [isNew] at life
  obtain ⟨isIdle, -, past, -, faithful, -⟩ := life.remembers rfl (faithful_new limit)
  obtain ⟨stillIdle, events, isHistory, remembers, isOffered, isExact⟩ :=
    obeysCall.remembers isMade isIdle faithful
  obtain rfl : early ++ .told .clear :: late = events :=
    List.append_cancel_left (isCleared.symm.trans isHistory)
  have isSplit : ∀ id, deliveredFor id (early ++ .told .clear :: late) =
      deliveredFor id early ++ deliveredFor id late := fun id => deliveredFor_append id early _
  refine ⟨?_, ?_, ?_⟩
  · intro id
    rw [← isSplit, ← offered_append_clear]
    exact isOffered id
  · intro access same id
    rw [← isSplit]
    exact isExact access same id
  · intro isLast
    rw [List.mem_append, not_or] at isLast
    obtain ⟨notLate, notLater⟩ := isLast
    obtain ⟨last, lifeOn, rfl⟩ := life_of_runAll obeysMore .begins rfl goesOn
    rw [remembered_append_clear past early notLate] at remembers
    obtain ⟨-, others, known, isOthers, remembersOn, isKnown⟩ :=
      lifeOn.remembers stillIdle remembers
    obtain rfl : later = others := List.append_cancel_left (isLater.symm.trans isOthers)
    obtain rfl := isKnown notLater
    exact ⟨remembersOn.agrees_since, isAnewSince_iff remembersOn.agrees_since⟩

/-- A peer that clears the bridge when it begins, and begins anew. -/
def startOver (id : ConnectionId) : ConnectionId → ConnectionEvent → List Input
  | _, .connected => [.clear, .connect id]
  | _, .received _ | _, .disconnected => []

/-- A peer that has begun and sent a packet, and the start of another one. -/
def talkativePeer : List (Call (StateM World)) :=
  [.connect ⟨"peer"⟩, .receive ⟨"peer"⟩ [6, 0, 0, 0, 0, 65, 6, 0]].map tellCall

/-- A pass in which the bridge is cleared. -/
def startOverCall : Call (StateM World) :=
  .dispatch (replyingAccess (startOver ⟨"peer"⟩))

/-- The peer sends another packet, and another pass is made. -/
def nextPacket : List (Call (StateM World)) :=
  [tellCall (.receive ⟨"peer"⟩ [6, 0, 0, 0, 0, 66]), .dispatch quietAccess]

theorem obeys_startOver :
    ∀ call ∈ talkativePeer ++ startOverCall :: nextPacket,
      call.Obeys fun state world => world = state := by
  intro call member
  rw [List.mem_append] at member
  rcases member with isTold | isLater
  · obtain ⟨input, -, rfl⟩ := List.mem_map.mp isTold
    exact obeys_tellCall input
  · rcases List.mem_cons.mp isLater with rfl | isLater
    · exact obeys_replyingAccess _
    · rcases List.mem_cons.mp isLater with rfl | isLast
      · exact obeys_tellCall _
      · rw [List.mem_singleton.mp isLast]
        exact obeys_quietAccess

theorem startOver_isAnewSince_iff :
    let before := ((runAll talkativePeer).run ⟨.new 64, []⟩).2
    let middle := (startOverCall.run.run before).2
    let after := ((runAll nextPacket).run middle).2
    let early := [.delivered ⟨"peer"⟩ .connected]
    let late := [.told (.connect ⟨"peer"⟩), .answered false] ++
      delivery ⟨"peer"⟩ (.received (.bytes [65])) [] false
    let later := .told (.receive ⟨"peer"⟩ [6, 0, 0, 0, 0, 66]) ::
      (delivery ⟨"peer"⟩ .connected [] true ++
        delivery ⟨"peer"⟩ (.received (.bytes [66])) [] true)
    middle.history = before.history ++ (early ++ .told .clear :: late) ∧
      after.history = middle.history ++ later ∧ .told .clear ∉ late ++ later ∧
      (∀ id, deliveredFor id early ++ deliveredFor id late <+:
        offered before.bridge id early) ∧
      (∀ id, deliveredFor id early ++ deliveredFor id late =
        offered before.bridge id (beforeTurn id (early ++ .told .clear :: late))) ∧
      (∀ id, (courseOf id (late ++ later)).Agrees 64 (deliveredFor id later)
        (after.bridge.stateOf id)) ∧
      (after.bridge.IsAnewSince 64 (late ++ later) ↔ ∀ id, deliveredFor id late = []) := by
  intro before middle after early late later
  have hasRun := returns_run (runAll talkativePeer) (World.mk (.new 64) [])
  have isMade : Returns startOverCall.run before () middle := returns_run startOverCall.run before
  have goesOn : Returns (runAll nextPacket) middle () after :=
    returns_run (runAll nextPacket) middle
  have isCleared : middle.history = before.history ++ (early ++ .told .clear :: late) := by
    decide +kernel
  have isLater : after.history = middle.history ++ later := by decide +kernel
  have isLast : .told .clear ∉ late ++ later := by decide +kernel
  -- Elaborated on its own, so that the view is known before the worlds are compared.
  have cleared := clear_isAnewSince_iff obeys_startOver rfl hasRun isMade goesOn isCleared isLater
  obtain ⟨isStale, isExact, sinceThen⟩ := cleared
  exact ⟨isCleared, isLater, isLast, isStale, isExact _ rfl, sinceThen isLast⟩

/-- What was received before the clear is delivered after it. -/
theorem not_isAnewSince_startOver :
    let after := ((runAll (talkativePeer ++ [startOverCall])).run ⟨.new 64, []⟩).2
    .told .clear ∈ after.history ∧
      ¬ after.bridge.IsAnewSince 64 (sinceClear after.history) := by
  intro after
  refine ⟨by decide +kernel, ?_⟩
  intro isAnew
  have isTold := (isAnew ⟨"peer"⟩).events_eq
  revert isTold
  decide +kernel

end Runs

end Bridge
end ScriptHost
