import ScriptHost.Registry
import ScriptHost.Scheduler

/-!
# Rehearsed scheduler runs

A rehearsal runs the scheduler against a plan: which operations there are and how
they end, what is taken in, what each callback does, and in which order operations
settle while the run waits. Everything that happens is logged in order.
-/

namespace ScriptHost
namespace Scheduler
namespace Rehearsal

/-- What a dispatch does with the handle of its callback. -/
inductive HandleUse
  | take
  | invoke
  | get
  | release
  deriving DecidableEq

/-- What a dispatch does. -/
structure CallbackPlan where
  use : HandleUse
  settles : List OperationId
  failure? : Option String
  releasesAll : Bool

/-- An operation to be taken in, and what follows from it. -/
structure ItemPlan where
  operation : OperationId
  type : ResultType
  settles : List OperationId
  callback : CallbackPlan

/-- Where a run takes its operations from. -/
inductive Discipline
  | pull
  | fanOut
  deriving DecidableEq

/-- A whole rehearsal. -/
structure Plan where
  discipline : Discipline
  limit? : Option Nat
  outcomes : Array Outcome
  items : Array ItemPlan
  ready : List OperationId
  order : List OperationId
  producerFailure? : Option String

/-- The limit that a plan asks for. -/
def Plan.limit (plan : Plan) : Nat :=
  max (plan.limit?.getD defaultConcurrency) 1

/-- Something that happened during a rehearsal. -/
inductive LogEntry
  | ready (operation : OperationId)
  | settled (operation : OperationId)
  | unblocked (operation : OperationId)
  | pulled (item : Nat)
  | producerEnded
  | producerFailed
  | launched (item : Nat)
  | dispatched
      (sequence : Nat)
      (callback : Option Int64)
      (result : Delivery)
      (used : Option Int64)
      (live : Nat)

/-- The state of a rehearsal. -/
structure Stage where
  board : Board
  registry : Registry Int64
  upcoming : List OperationId
  nextItem : Nat
  log : Array LogEntry

/-- A step of a rehearsal. -/
abbrev StageM := StateM Stage

/-- Append to the log. -/
def note (entry : LogEntry) : StageM Unit :=
  modify fun stage => { stage with log := stage.log.push entry }

/-- Settle an operation that is still pending and log it. The answer tells whether
it was pending. -/
def settle
    (plan : Plan)
    (entry : OperationId → LogEntry)
    (operation : OperationId) : StageM Bool := do
  let stage ← get
  match stage.board.status? operation, plan.outcomes[operation]? with
  | some .pending, some outcome =>
      note (entry operation)
      modify fun stage => { stage with board := stage.board.settle operation outcome }
      pure true
  | _, _ => pure false

/-- Settle operations one after the other. -/
def settleAll
    (plan : Plan)
    (entry : OperationId → LogEntry)
    (operations : List OperationId) : StageM Unit :=
  operations.forM fun operation => do
    let _ ← settle plan entry operation

/-- Settle the first pending operation of a list. The answer is what follows it, or
`none` if none is pending. -/
def settleFirst (plan : Plan) :
    List OperationId → StageM (Option (List OperationId))
  | [] => pure none
  | operation :: rest => do
      if ← settle plan .unblocked operation then pure (some rest)
      else settleFirst plan rest

/-- Let the next operation of the settlement order settle. -/
def await (plan : Plan) : StageM Bool := do
  match ← settleFirst plan (← get).upcoming with
  | none => pure false
  | some rest => do
      modify fun stage => { stage with upcoming := rest }
      pure true

/-- Park the number of an item in the registry. -/
def park (item : Nat) : StageM HandleKey := do
  let stage ← get
  let (registry, key) := stage.registry.register (Int64.ofNat item)
  set { stage with registry := registry }
  pure key

/-- End a registration. -/
def discard (key : HandleKey) : StageM Unit :=
  modify fun stage => { stage with registry := stage.registry.release key }

/-- Use the handle of a callback as its plan says. -/
def useHandle
    (use : HandleUse)
    (key : HandleKey) : StageM (Option Int64) := do
  let value? := (← get).registry.get? key
  match use with
  | .take => do
      discard key
      pure value?
  | .invoke => do
      discard key
      pure (value?.map (· + 1000))
  | .get => pure value?
  | .release => do
      discard key
      pure none

/-- The plan of the callback whose number was parked. -/
def Plan.callback?
    (plan : Plan)
    (number? : Option Int64) : Option CallbackPlan :=
  number?.bind fun number => plan.items[number.toInt.toNat]?.map ItemPlan.callback

/-- Follow the plan of a callback: clear the registry if it says so, use the handle, and
log the dispatch. -/
def followPlan
    (completion : Completion HandleKey)
    (number? : Option Int64)
    (callback : CallbackPlan) : StageM Unit := do
  if callback.releasesAll then
    modify fun stage => { stage with registry := stage.registry.releaseAll.2 }
  let used ← useHandle callback.use completion.callback
  let live := (← get).registry.size
  note (.dispatched completion.sequence number? completion.result used live)

/-- Dispatch a completion as the plan of its callback says. A callback whose number is
no longer parked has no plan: its dispatch is logged and nothing else happens. -/
def dispatch
    (plan : Plan)
    (completion : Completion HandleKey) : StageM (Except String Unit) := do
  let key := completion.callback
  let number? := (← get).registry.get? key
  match plan.callback? number? with
  | none => do
      note (.dispatched completion.sequence number? completion.result none (← get).registry.size)
      pure (.ok ())
  | some callback => do
      followPlan completion number? callback
      settleAll plan .settled callback.settles
      discard key
      match callback.failure? with
      | some reason => pure (.error reason)
      | none => pure (.ok ())

/-- The host that a rehearsal plays. -/
def environment (plan : Plan) : Environment StageM HandleKey String where
  board := do return (← get).board
  setBoard := fun board => modify fun stage => { stage with board := board }
  await := await plan
  dispatch := dispatch plan
  discard := discard

/-- Produce the next item of the plan. -/
def produce (plan : Plan) : StageM (Production HandleKey String) := do
  let stage ← get
  let index := stage.nextItem
  match plan.items[index]? with
  | some item => do
      set { stage with nextItem := index + 1 }
      note (.pulled index)
      settleAll plan .settled item.settles
      let key ← park index
      pure (.item ⟨item.operation, item.type, key⟩)
  | none =>
      match plan.producerFailure? with
      | some reason => do
          note .producerFailed
          pure (.failed reason)
      | none => do
          note .producerEnded
          pure .finished

/-- The job of an item. -/
def jobOf
    (plan : Plan)
    (index : Nat)
    (item : ItemPlan)
    (key : HandleKey) : Job StageM HandleKey where
  launch := do
    note (.launched index)
    settleAll plan .settled item.settles
    pure item.operation
  type := item.type
  callback := key

/-- The jobs of a plan, all of their callbacks parked beforehand. -/
def jobs (plan : Plan) : StageM (List (Job StageM HandleKey)) :=
  plan.items.toList.zipIdx.mapM fun (item, index) => do
    pure (jobOf plan index item (← park index))

/-- Enough fuel for every run of a plan: each round takes in an item, hands one out,
settles an operation or ends. -/
def Plan.fuel (plan : Plan) : Nat :=
  2 * plan.items.size + plan.outcomes.size + 4

/-- The outcome of a rehearsal. -/
structure Performance where
  limit : Nat
  log : List LogEntry
  result? : Option (Except String Report)
  live : Nat

/-- Play a plan from the start. -/
def perform (plan : Plan) : Performance :=
  let stage : Stage :=
    { board := (List.range plan.outcomes.size).foldl (fun board _ => board.create.1) .empty
      registry := .empty
      upcoming := plan.order ++ List.range plan.outcomes.size
      nextItem := 0
      log := #[] }
  let play : StageM (Option (Except String Report)) := do
    settleAll plan .ready plan.ready
    match plan.discipline with
    | .pull => runPull (environment plan) plan.limit (produce plan) plan.fuel
    | .fanOut => runFanOut (environment plan) plan.limit (← jobs plan) plan.fuel
  let (result?, stage) := play.run stage
  ⟨plan.limit, stage.log.toList, result?, stage.registry.size⟩

end Rehearsal
end Scheduler
end ScriptHost
