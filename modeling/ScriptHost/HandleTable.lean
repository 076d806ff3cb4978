/-!
# Handle tables

A handle table stores values under numbers that scripts may hold. Numbers are
given in ascending order starting from one, skip zero when they wrap around, and
stay valid until their value is removed.
-/

namespace ScriptHost

/-- The number under which a script refers to a stored value. -/
structure ScriptHandle where
  raw : UInt32
  deriving DecidableEq

namespace ScriptHandle

/-- The decimal text of a handle. -/
def display (handle : ScriptHandle) : String :=
  toString handle.raw.toNat

end ScriptHandle

/-- Values under their handles, with the handle that comes next. -/
structure HandleTable (α : Type) where
  next : UInt32
  entries : List (ScriptHandle × α)

namespace HandleTable

variable {α : Type}

/-- The table that has never held anything. -/
def empty : HandleTable α :=
  ⟨1, []⟩

instance : Inhabited (HandleTable α) :=
  ⟨empty⟩

/-- The number that follows a handle: zero is never given. -/
def successor (raw : UInt32) : UInt32 :=
  if raw + 1 = 0 then 1 else raw + 1

/-- The value under a handle. -/
def get?
    (table : HandleTable α)
    (handle : ScriptHandle) : Option α :=
  table.entries.lookup handle

/-- The number of stored values. -/
def size (table : HandleTable α) : Nat :=
  table.entries.length

/-- Forget the value under a handle. -/
def erase
    (table : HandleTable α)
    (handle : ScriptHandle) : HandleTable α :=
  { table with entries := table.entries.filter fun entry => entry.1 != handle }

/-- The value that is still stored under the next handle. -/
def occupant? (table : HandleTable α) : Option α :=
  table.get? ⟨table.next⟩

/-- Store a value under the next handle, in place of a value still stored there. -/
def insert
    (table : HandleTable α)
    (value : α) : HandleTable α × ScriptHandle :=
  let handle : ScriptHandle := ⟨table.next⟩
  ({ next := successor table.next
     entries := (table.erase handle).entries ++ [(handle, value)] }, handle)

/-- Change the value under a handle. -/
def modify
    (table : HandleTable α)
    (handle : ScriptHandle)
    (change : α → α) : HandleTable α :=
  { table with
    entries := table.entries.map fun entry =>
      if entry.1 = handle then (entry.1, change entry.2) else entry }

/-- Take the value under a handle out of the table. -/
def remove
    (table : HandleTable α)
    (handle : ScriptHandle) : Option α × HandleTable α :=
  (table.get? handle, table.erase handle)

/-- Forget every value and tell how many there were. -/
def clear (table : HandleTable α) : Nat × HandleTable α :=
  (table.size, { table with entries := [] })

@[simp] theorem size_empty : (empty : HandleTable α).size = 0 := rfl

end HandleTable
end ScriptHost
