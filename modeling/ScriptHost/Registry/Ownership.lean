import ScriptHost.Registry

/-!
# Owning registered callables

An owner holds the handles that a registry gave it, numbered in order of
registration, and consumes each of them at most once. The callables here are
numbers; invoking one doubles it.
-/

namespace ScriptHost
namespace Registry

/-- A registry with the handles given so far; a consumed handle keeps its key for
the record only. -/
structure Owner where
  registry : Registry Int64
  handles : Array (HandleKey × Bool)

/-- What an owner does with a handle that it still holds. -/
inductive HandleRequest
  | get
  | describe
  | take
  | invoke
  | release
  deriving DecidableEq

/-- A request to an owner. -/
inductive Request
  | register (value : Int64)
  | releaseAll
  | share
  | contains (number : Nat)
  | key (number : Nat)
  | handle (number : Nat) (request : HandleRequest)

/-- The answer of a request. -/
inductive Answer
  | nothing
  | key (raw : Nat)
  | count (number : Nat)
  | flag (value : Bool)
  | text (value : String)
  | value (value? : Option Int64)
  | gone
  | noHandle

namespace Owner

/-- The owner of a new registry. -/
def empty : Owner :=
  ⟨.empty, #[]⟩

/-- Consume a handle: what it registered ends with it. -/
def consume
    (owner : Owner)
    (number : Nat)
    (key : HandleKey) : Owner :=
  ⟨owner.registry.release key, owner.handles.set! number (key, false)⟩

/-- Use a handle that is still held. -/
def useHandle
    (owner : Owner)
    (number : Nat)
    (key : HandleKey) : HandleRequest → Owner × Answer
  | .get => (owner, .value (owner.registry.get? key))
  | .describe => (owner, .text key.describe)
  | .take => (owner.consume number key, .value (owner.registry.get? key))
  | .invoke =>
      (owner.consume number key, .value ((owner.registry.get? key).map fun value => value + value))
  | .release => (owner.consume number key, .nothing)

/-- Answer a request. -/
def answer
    (owner : Owner) : Request → Owner × Answer
  | .register value =>
      let (registry, key) := owner.registry.register value
      (⟨registry, owner.handles.push (key, true)⟩, .key key.raw.toNat)
  | .releaseAll =>
      let (count, registry) := owner.registry.releaseAll
      ({ owner with registry := registry }, .count count)
  | .share => (owner, .nothing)
  | .contains number =>
      match owner.handles[number]? with
      | none => (owner, .noHandle)
      | some (key, _) => (owner, .flag (owner.registry.contains key))
  | .key number =>
      match owner.handles[number]? with
      | none => (owner, .noHandle)
      | some (key, _) => (owner, .text key.display)
  | .handle number request =>
      match owner.handles[number]? with
      | none => (owner, .noHandle)
      | some (_, false) => (owner, .gone)
      | some (key, true) => owner.useHandle number key request

/-- Answer requests one after the other, each with the number of live registrations
after it. -/
def answerAll
    (owner : Owner) : List Request → List (Answer × Nat)
  | [] => []
  | request :: requests =>
      let (owner, answer) := owner.answer request
      (answer, owner.registry.size) :: owner.answerAll requests

end Owner
end Registry
end ScriptHost
