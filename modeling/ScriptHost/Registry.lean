/-!
# Registry of callables

A registry parks callables under keys that it never gives twice. Whoever holds a
key owns the registration, which ends once: when the callable is taken out, when
the key is given up, or when the whole registry is released.
-/

namespace ScriptHost

/-- The key of a registration. -/
structure HandleKey where
  raw : UInt64
  deriving DecidableEq

namespace HandleKey

/-- The decimal text of a key. -/
def display (key : HandleKey) : String :=
  toString key.raw.toNat

/-- The description of the handle that holds a key. -/
def describe (key : HandleKey) : String :=
  "CallableHandle(HandleKey(" ++ key.display ++ "))"

end HandleKey

/-- Callables under their keys, with the key that comes next. -/
structure Registry (α : Type) where
  nextKey : UInt64
  entries : List (HandleKey × α)

namespace Registry

variable {α : Type}

/-- The registry that has never held anything. Keys start at one. -/
def empty : Registry α :=
  ⟨1, []⟩

instance : Inhabited (Registry α) :=
  ⟨empty⟩

/-- The callable under a key. -/
def get?
    (registry : Registry α)
    (key : HandleKey) : Option α :=
  registry.entries.lookup key

/-- A key has a live registration. -/
def contains
    (registry : Registry α)
    (key : HandleKey) : Bool :=
  (registry.get? key).isSome

/-- The number of live registrations. -/
def size (registry : Registry α) : Nat :=
  registry.entries.length

/-- End the registration under a key, if it is live. -/
def release
    (registry : Registry α)
    (key : HandleKey) : Registry α :=
  { registry with entries := registry.entries.filter fun entry => entry.1 != key }

/-- Park a callable under the next key. -/
def register
    (registry : Registry α)
    (callable : α) : Registry α × HandleKey :=
  let key : HandleKey := ⟨registry.nextKey⟩
  ({ nextKey := registry.nextKey + 1
     entries := (registry.release key).entries ++ [(key, callable)] }, key)

/-- End the registration under a key and hand its callable out. -/
def take
    (registry : Registry α)
    (key : HandleKey) : Option α × Registry α :=
  (registry.get? key, registry.release key)

/-- End every registration and tell how many there were. -/
def releaseAll (registry : Registry α) : Nat × Registry α :=
  (registry.size, { registry with entries := [] })

@[simp] theorem size_empty : (empty : Registry α).size = 0 := rfl

@[simp] theorem entries_releaseAll (registry : Registry α) :
    registry.releaseAll.2.entries = [] := rfl

end Registry
end ScriptHost
