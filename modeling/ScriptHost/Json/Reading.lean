import ScriptHost.Json.Token

/-!
# Reading JSON

What can be read of a text is a tree up to the first fault of the text. A fault stands
in the tree at the place where it is met, so whoever reads the tree from left to right
meets a value of the wrong kind and a fault of the text in the order in which they
stand in the text.
-/

namespace ScriptHost
namespace Json

/-- The tree of a text up to its first fault. An array or an object with a fault breaks
off after its last item; a broken value breaks off itself. -/
inductive Reading
  | null
  | bool (value : Bool)
  | number (numeral : Numeral)
  | string (body : Quoted)
  | array (items : List Reading) (fault? : Option Fault)
  | object (members : List (Quoted × Reading)) (fault? : Option Fault)
  | brokenNumber (fault : Fault)
  | broken (fault : Fault)

/-- The tree of a text, and the fault of what follows its value. -/
structure Document where
  root : Reading
  trailing? : Option Fault

namespace Reading

instance : Inhabited Reading := ⟨.null⟩

mutual

/-- The fault that is met when a value is skipped. A number that breaks off is
malformed then, even at the end of the text. -/
def skipFault? : Reading → Option Fault
  | .null => none
  | .bool _ => none
  | .number _ => none
  | .string body => body.fault?
  | .array items fault? => (skipItems items).or fault?
  | .object members fault? => (skipMembers members).or fault?
  | .brokenNumber _ => some .malformed
  | .broken fault => some fault

/-- The first fault that is met when items are skipped. -/
def skipItems : List Reading → Option Fault
  | [] => none
  | item :: rest => (skipFault? item).or (skipItems rest)

/-- The first fault that is met when members are skipped. -/
def skipMembers : List (Quoted × Reading) → Option Fault
  | [] => none
  | (name, value) :: rest => name.fault?.or ((skipFault? value).or (skipMembers rest))

end

/-! ## Building the tree -/

/-- An array or an object that is still open, its entries in reverse order. The name
of an object is that of the member whose value comes next. -/
inductive Frame
  | array (items : List Reading)
  | object (members : List (Quoted × Reading)) (name? : Option Quoted)

namespace Frame

/-- Put a value at the end. -/
def add (value : Reading) : Frame → Frame
  | .array items => .array (value :: items)
  | .object members (some name) => .object ((name, value) :: members) none
  | .object members none => .object members none

/-- Expect the value of a member. -/
def expect (name : Quoted) : Frame → Frame
  | .array items => .array items
  | .object members _ => .object members (some name)

/-- The tree of a frame in which nothing follows. -/
def close (fault? : Option Fault) : Frame → Reading
  | .array items => .array items.reverse fault?
  | .object members _ => .object members.reverse fault?

end Frame

/-- Close the open frames around a value after which nothing can be read. -/
def collapse
    (value : Reading)
    (stack : List Frame) : Reading :=
  stack.foldl (fun value frame => (frame.add value).close none) value

/-- Close the open frames where something else than a value is missing. -/
def breakOff
    (fault : Fault) : List Frame → Reading
  | [] => .broken fault
  | frame :: outer => collapse (frame.close (some fault)) outer

/-- What comes next: a value or, where that is allowed, the end of an array; a name or
the end of an object; a colon; a comma or an end. -/
inductive Mode
  | value (orClose : Bool)
  | name (orClose : Bool)
  | colon
  | next

/-- What a token is at the place of a value. -/
inductive Start
  | leaf (value : Reading)
  | array
  | object
  | fault (value : Reading)

/-- Read a token at the place of a value. -/
def start : Token → Start
  | .null => .leaf .null
  | .bool value => .leaf (.bool value)
  | .number numeral => .leaf (.number numeral)
  | .string body =>
      if body.fault?.isNone then .leaf (.string body) else .fault (.string body)
  | .openArray => .array
  | .openObject => .object
  | .brokenNumber fault => .fault (.brokenNumber fault)
  | .broken fault => .fault (.broken fault)
  | _ => .fault (.broken .malformed)

/-- Whether a token closes a frame. -/
def closes : Token → Frame → Bool
  | .closeArray, .array _ => true
  | .closeObject, .object _ _ => true
  | _, _ => false

/-- What follows a comma in a frame. -/
def afterComma : Frame → Mode
  | .array _ => .value false
  | .object _ _ => .name false

/-- Build the tree of a text from its tokens, below the frames that are open. -/
def build : Mode → List Frame → List Token → Document
  | .value orClose, stack, [] =>
      ⟨if orClose then breakOff .truncated stack else collapse (.broken .truncated) stack, none⟩
  | .name _, stack, [] => ⟨breakOff .truncated stack, none⟩
  | .colon, stack, [] => ⟨collapse (.broken .truncated) stack, none⟩
  | .next, [], [] => ⟨.null, none⟩
  | .next, frame :: outer, [] => ⟨breakOff .truncated (frame :: outer), none⟩
  | mode, stack, token :: rest =>
      let complete := fun (value : Reading) (stack : List Frame) =>
        match stack with
        | [] => ⟨value, if rest.isEmpty then none else some .malformed⟩
        | frame :: outer => build .next (frame.add value :: outer) rest
      let closing? :=
        match stack with
        | frame :: outer => if closes token frame then some (frame.close none, outer) else none
        | [] => none
      match mode, closing? with
      | .value true, some (value, outer) => complete value outer
      | .name true, some (value, outer) => complete value outer
      | .next, some (value, outer) => complete value outer
      | .value _, _ =>
          match start token with
          | .leaf value => complete value stack
          | .array => build (.value true) (.array [] :: stack) rest
          | .object => build (.name true) (.object [] none :: stack) rest
          | .fault value => ⟨collapse value stack, none⟩
      | .name _, _ =>
          match token, stack with
          | .string name, frame :: outer =>
              let stack := frame.expect name :: outer
              match name.fault? with
              | none => build .colon stack rest
              | some fault => ⟨collapse (.broken fault) stack, none⟩
          | _, _ => ⟨breakOff .malformed stack, none⟩
      | .colon, _ =>
          match token with
          | .colon => build (.value false) stack rest
          | _ => ⟨collapse (.broken .malformed) stack, none⟩
      | .next, none =>
          match token, stack with
          | .comma, frame :: outer => build (afterComma frame) (frame :: outer) rest
          | _, _ => ⟨breakOff .malformed stack, none⟩

end Reading

/-- Read a text. -/
def Document.read (chars : List Char) : Document :=
  Reading.build (.value false) [] (Token.scan chars)

end Json
end ScriptHost
