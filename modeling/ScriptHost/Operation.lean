/-!
# Asynchronous operations

An operation observes one unit of background work. It is pending until its
outcome is recorded, and keeps the first outcome for good. Listeners wait on a
pending operation in the order in which they were registered and fire when it
settles; a listener that comes later fires at once.
-/

namespace ScriptHost

/-- What a unit of work yields. Floating-point values are carried as bit patterns,
since they are moved and never computed with. -/
inductive OperationValue
  | void
  | int (value : Int32)
  | long (value : Int64)
  | float (bits : UInt32)
  | double (bits : UInt64)
  | bool (value : Bool)
  | text (value : String)
  deriving DecidableEq

/-- The kind of value that a consumer of an operation asks for. -/
inductive ResultType
  | void
  | int
  | long
  | float
  | double
  | bool
  | string
  deriving DecidableEq

namespace ResultType

/-- Every result type, in declaration order. -/
def all : List ResultType :=
  [void, int, long, float, double, bool, string]

/-- The name under which a script asks for a result type. -/
def name : ResultType → String
  | void => "void"
  | int => "int"
  | long => "long"
  | float => "float"
  | double => "double"
  | bool => "bool"
  | string => "string"

/-- The result type of a name, if it names one. -/
def ofName? (text : String) : Option ResultType :=
  all.find? fun type => type.name == text

/-- A value is of the kind that a result type asks for. Nothing is of kind `void`. -/
def Matches : ResultType → OperationValue → Bool
  | int, .int _ => true
  | long, .long _ => true
  | float, .float _ => true
  | double, .double _ => true
  | bool, .bool _ => true
  | string, .text _ => true
  | _, _ => false

/-- Deliver a value if it is of the kind asked for, and nothing otherwise. -/
def decode
    (type : ResultType)
    (value : OperationValue) : Option OperationValue :=
  if type.Matches value then some value else none

@[simp] theorem ofName?_name (type : ResultType) : ofName? type.name = some type := by
  cases type <;> decide

end ResultType

/-- A text that names no result type. -/
structure UnknownResultType where
  name : String
  deriving DecidableEq

namespace UnknownResultType

/-- The words in which an unknown result type is reported. -/
def message (unknown : UnknownResultType) : String :=
  "unknown result type '" ++ unknown.name ++ "'"

end UnknownResultType

/-- Why an operation yielded no value. -/
inductive OperationError
  | failed (reason : String)
  | abandoned
  deriving DecidableEq

namespace OperationError

/-- The words in which a failed operation is reported. -/
def message : OperationError → String
  | failed reason => reason
  | abandoned => "operation was abandoned before completing"

end OperationError

/-- The end of an operation. -/
abbrev Outcome := Except OperationError OperationValue

/-- What an observer sees of an operation without waiting for it. -/
inductive OperationStatus
  | pending
  | completed
  | failed
  deriving DecidableEq

namespace OperationStatus

/-- The name of a status in scripts. -/
def name : OperationStatus → String
  | pending => "pending"
  | completed => "completed"
  | failed => "failed"

/-- The name of a status in diagnostics. -/
def label : OperationStatus → String
  | pending => "Pending"
  | completed => "Completed"
  | failed => "Failed"

end OperationStatus

/-- An operation with listeners of type `ℓ`. -/
inductive Operation (ℓ : Type)
  | pending (listeners : List ℓ)
  | settled (outcome : Outcome)

namespace Operation

variable {ℓ : Type}

/-- An operation nobody has settled or listened to. -/
def fresh : Operation ℓ :=
  pending []

instance : Inhabited (Operation ℓ) :=
  ⟨fresh⟩

/-- The recorded outcome. -/
def outcome? : Operation ℓ → Option Outcome
  | pending _ => none
  | settled outcome => some outcome

/-- The listeners that still wait, in order of registration. -/
def waiting : Operation ℓ → List ℓ
  | pending listeners => listeners
  | settled _ => []

/-- An operation is complete once its outcome is recorded. -/
def isComplete (operation : Operation ℓ) : Bool :=
  operation.outcome?.isSome

/-- The status that observers see. -/
def status (operation : Operation ℓ) : OperationStatus :=
  match operation.outcome? with
  | none => .pending
  | some (.ok _) => .completed
  | some (.error _) => .failed

/-- Record the outcome of a pending operation. The second component holds the
listeners that fire, in order; a settled operation keeps its outcome and fires none. -/
def settle
    (outcome : Outcome) : Operation ℓ → Operation ℓ × List ℓ
  | pending listeners => (settled outcome, listeners)
  | settled first => (settled first, [])

/-- Register a listener. The second component tells whether it fires at once. -/
def listen
    (listener : ℓ) : Operation ℓ → Operation ℓ × Bool
  | pending listeners => (pending (listeners ++ [listener]), false)
  | settled outcome => (settled outcome, true)

/-- The description of an operation in diagnostics. -/
def describe (operation : Operation ℓ) : String :=
  "AsyncOperation \x7b status: " ++ operation.status.label ++ " \x7d"

@[simp] theorem outcome?_settle_pending
    (listeners : List ℓ)
    (outcome : Outcome) :
    ((pending listeners).settle outcome).1.outcome? = some outcome := rfl

@[simp] theorem settle_settled
    (first later : Outcome) :
    (settled first : Operation ℓ).settle later = (settled first, []) := rfl

theorem outcome?_listen
    (operation : Operation ℓ)
    (listener : ℓ) :
    (operation.listen listener).1.outcome? = operation.outcome? := by
  cases operation <;> rfl

end Operation
end ScriptHost
