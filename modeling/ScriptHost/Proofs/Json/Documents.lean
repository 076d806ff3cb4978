import ScriptHost.Proofs.Json.Scanning

/-!
# Reading JSON documents

Every text of the grammar is read as the tree that it spells, wherever it stands: a value is put
into the innermost open array or object, and reading goes on after it.
-/

namespace ScriptHost
namespace Json

open Token Reading

variable {text rest : List Char} {stack outer : List Frame} {tokens : List Token} {orClose : Bool}

namespace Reading

/-- A value is read: it is the whole document or the next entry of the innermost frame. -/
def complete (value : Reading) : List Frame → List Token → Document
  | [], rest => ⟨value, if rest.isEmpty then none else some .malformed⟩
  | frame :: outer, rest => build .next (frame.add value :: outer) rest

/-! ## One token -/

/-- A token that stands for a value completes it. -/
theorem build_leaf
    {token : Token}
    {value : Reading}
    (isLeaf : start token = .leaf value) :
    build (.value orClose) stack (token :: tokens) = complete value stack tokens := by
  cases token
  case string body =>
    simp only [start] at isLeaf
    split_ifs at isLeaf with isWhole
    cases isLeaf
    cases orClose <;> rcases stack with _ | ⟨_ | _, _⟩ <;>
      simp [build, start, closes, complete, isWhole]
  all_goals cases isLeaf
  all_goals cases orClose <;> rcases stack with _ | ⟨_ | _, _⟩ <;> rfl

/-- After an opening bracket, the items of an array follow. -/
theorem build_openArray :
    build (.value orClose) stack (.openArray :: tokens) =
      build (.value true) (.array [] :: stack) tokens := by
  cases orClose <;> rcases stack with _ | ⟨_ | _, _⟩ <;> rfl

/-- After an opening brace, the members of an object follow. -/
theorem build_openObject :
    build (.value orClose) stack (.openObject :: tokens) =
      build (.name true) (.object [] none :: stack) tokens := by
  cases orClose <;> rcases stack with _ | ⟨_ | _, _⟩ <;> rfl

/-- A closing bracket completes the array. -/
theorem build_closeArray (items : List Reading) :
    build .next (.array items :: outer) (.closeArray :: tokens) =
      complete (.array items.reverse none) outer tokens := by
  cases outer <;> rfl

theorem build_closeEmptyArray :
    build (.value true) (.array [] :: outer) (.closeArray :: tokens) =
      complete (.array [] none) outer tokens := by
  cases outer <;> rfl

/-- A closing brace completes the object. -/
theorem build_closeObject (members : List (Quoted × Reading)) :
    build .next (.object members none :: outer) (.closeObject :: tokens) =
      complete (.object members.reverse none) outer tokens := by
  cases outer <;> rfl

theorem build_closeEmptyObject :
    build (.name true) (.object [] none :: outer) (.closeObject :: tokens) =
      complete (.object [] none) outer tokens := by
  cases outer <;> rfl

/-- After a comma, another item or member follows. -/
theorem build_comma (frame : Frame) :
    build .next (frame :: outer) (.comma :: tokens) =
      build (afterComma frame) (frame :: outer) tokens := by
  cases frame <;> rfl

/-- A name is followed by a colon and its value. -/
theorem build_name
    {body : Quoted}
    (isWhole : body.fault? = none)
    (members : List (Quoted × Reading))
    (name? : Option Quoted) :
    build (.name orClose) (.object members name? :: outer) (.string body :: .colon :: tokens) =
      build (.value false) (.object members (some body) :: outer) tokens := by
  cases orClose <;> simp [build, closes, isWhole, Frame.expect]

end Reading

/-! ## Values -/

/-- A string that is spelled out has no fault. -/
theorem SpellsString.fault?_eq_none
    {body : Quoted}
    (spells : SpellsString body text) :
    body.fault? = none := by
  cases spells
  rfl

theorem endsNumeral_nil : EndsNumeral [] :=
  fun _ isHead => absurd isHead (Option.not_mem_none _)

/-- A numeral ends before whatever cannot go on with it. -/
theorem endsNumeral_cons
    {char : Char}
    (isOther : char.isDigit = false ∧ char ≠ '.' ∧ char ≠ 'e' ∧ char ≠ 'E') :
    EndsNumeral (char :: rest) := by
  rintro _ ⟨⟩
  exact isOther

/-- Blanks do not continue a number. -/
theorem IsGap.endsNumeral
    (isGap : IsGap text)
    (ends : EndsNumeral rest) :
    EndsNumeral (text ++ rest) := by
  cases text with
  | nil => exact ends
  | cons char text =>
      refine endsNumeral_cons ?_
      have isBlank : isBlank char = true := isGap char List.mem_cons_self
      simp only [Token.isBlank, Bool.or_eq_true, decide_eq_true_eq] at isBlank
      rcases isBlank with ((rfl | rfl) | rfl) | rfl <;> decide

mutual

/-- A value is read where one may stand, and what follows it is read after it. -/
theorem Spells.build_append
    {value : Reading}
    {text rest : List Char}
    (spells : Spells value text)
    (ends : EndsNumeral rest)
    (stack : List Frame)
    (orClose : Bool) :
    build (.value orClose) stack (scan (text ++ rest)) = complete value stack (scan rest) := by
  match spells with
  | .null => exact (congrArg _ scan_null).trans (build_leaf rfl)
  | .true => exact (congrArg _ scan_true).trans (build_leaf rfl)
  | .false => exact (congrArg _ scan_false).trans (build_leaf rfl)
  | .number spells => rw [spells.scan_append ends, build_leaf rfl]
  | .string spells =>
      rw [spells.scan_append, build_leaf]
      rw [start, spells.fault?_eq_none]
      rfl
  | .emptyArray isGap =>
      rw [List.cons_append, scan_openArray, build_openArray, List.append_assoc, scan_gap isGap]
      exact (congrArg _ scan_closeArray).trans build_closeEmptyArray
  | .array spells =>
      rw [List.cons_append, scan_openArray, build_openArray, List.append_assoc]
      exact spells.build_append rest stack [] true
  | .emptyObject isGap =>
      rw [List.cons_append, scan_openObject, build_openObject, List.append_assoc, scan_gap isGap]
      exact (congrArg _ scan_closeObject).trans build_closeEmptyObject
  | .object spells =>
      rw [List.cons_append, scan_openObject, build_openObject, List.append_assoc]
      exact spells.build_append rest stack [] true

/-- The spelling of a value is built into that value. -/
theorem SpellsPadded.build_append
    {value : Reading}
    {text rest : List Char}
    (spells : SpellsPadded value text)
    (ends : EndsNumeral rest)
    (stack : List Frame)
    (orClose : Bool) :
    build (.value orClose) stack (scan (text ++ rest)) = complete value stack (scan rest) := by
  match spells with
  | .gaps isBefore spells isAfter =>
      rw [List.append_assoc, List.append_assoc, scan_gap isBefore,
        spells.build_append (isAfter.endsNumeral ends), scan_gap isAfter]

/-- Items are put after those that have been read, up to the end of the array. -/
theorem SpellsItems.build_append
    {items : List Reading}
    {text : List Char}
    (spells : SpellsItems items text)
    (rest : List Char)
    (outer : List Frame)
    (done : List Reading)
    (orClose : Bool) :
    build (.value orClose) (.array done :: outer) (scan (text ++ ']' :: rest)) =
      complete (.array (done.reverse ++ items) none) outer (scan rest) := by
  match spells with
  | .last spells =>
      rw [spells.build_append (endsNumeral_cons (by decide)), scan_closeArray]
      refine (build_closeArray (_ :: done)).trans ?_
      rw [List.reverse_cons]
  | .next spells spellsOthers =>
      rw [List.append_assoc, List.cons_append,
        spells.build_append (endsNumeral_cons (by decide)), scan_comma]
      refine (build_comma (.array (_ :: done))).trans ?_
      refine (spellsOthers.build_append rest outer (_ :: done) false).trans ?_
      rw [List.reverse_cons, List.append_assoc, List.singleton_append]

/-- The spelling of a member is built into that member. -/
theorem SpellsMember.build_append
    {member : Quoted × Reading}
    {text rest : List Char}
    (spells : SpellsMember member text)
    (ends : EndsNumeral rest)
    (outer : List Frame)
    (done : List (Quoted × Reading))
    (orClose : Bool) :
    build (.name orClose) (.object done none :: outer) (scan (text ++ rest)) =
      build .next (.object (member :: done) none :: outer) (scan rest) := by
  match spells with
  | .colon isBefore spellsName isAfter spells =>
      simp only [List.append_assoc, List.cons_append]
      rw [scan_gap isBefore, spellsName.scan_append, scan_gap isAfter, scan_colon,
        build_name spellsName.fault?_eq_none, spells.build_append ends]
      rfl

/-- The spelling of members up to the brace is built into the object. -/
theorem SpellsMembers.build_append
    {members : List (Quoted × Reading)}
    {text : List Char}
    (spells : SpellsMembers members text)
    (rest : List Char)
    (outer : List Frame)
    (done : List (Quoted × Reading))
    (orClose : Bool) :
    build (.name orClose) (.object done none :: outer) (scan (text ++ '\x7d' :: rest)) =
      complete (.object (done.reverse ++ members) none) outer (scan rest) := by
  match spells with
  | .last spells =>
      rw [spells.build_append (endsNumeral_cons (by decide)), scan_closeObject, build_closeObject,
        List.reverse_cons]
  | .next spells spellsOthers =>
      rw [List.append_assoc, List.cons_append,
        spells.build_append (endsNumeral_cons (by decide)), scan_comma, build_comma]
      refine (spellsOthers.build_append rest outer _ false).trans ?_
      rw [List.reverse_cons, List.append_assoc, List.singleton_append]

end

/-- Every text of the grammar is read as the tree that it spells. -/
theorem SpellsPadded.read_eq
    {value : Reading}
    (spells : SpellsPadded value text) :
    Document.read text = ⟨value, none⟩ := by
  have isRead := spells.build_append endsNumeral_nil [] false
  rwa [List.append_nil] at isRead

/-! ## Skipped values -/

mutual

/-- A value of the grammar can be skipped. -/
theorem Spells.skipFault?_eq_none
    {value : Reading}
    {text : List Char}
    (spells : Spells value text) :
    skipFault? value = none := by
  match spells with
  | .null | .true | .false | .number _ | .emptyArray _ | .emptyObject _ => rfl
  | .string spells => exact spells.fault?_eq_none
  | .array spells => rw [skipFault?, spells.skipItems_eq_none, Option.none_or]
  | .object spells => rw [skipFault?, spells.skipMembers_eq_none, Option.none_or]

/-- What is spelled out can be skipped without a fault. -/
theorem SpellsPadded.skipFault?_eq_none
    {value : Reading}
    {text : List Char}
    (spells : SpellsPadded value text) :
    skipFault? value = none := by
  match spells with
  | .gaps _ spells _ => exact spells.skipFault?_eq_none

/-- Items that are spelled out can be skipped. -/
theorem SpellsItems.skipItems_eq_none
    {items : List Reading}
    {text : List Char}
    (spells : SpellsItems items text) :
    skipItems items = none := by
  match spells with
  | .last spells => rw [skipItems, spells.skipFault?_eq_none, skipItems, Option.none_or]
  | .next spells spellsOthers =>
      rw [skipItems, spells.skipFault?_eq_none, spellsOthers.skipItems_eq_none, Option.none_or]

theorem SpellsMember.skipFault?_eq_none
    {member : Quoted × Reading}
    {text : List Char}
    (spells : SpellsMember member text) :
    member.1.fault? = none ∧ skipFault? member.2 = none := by
  match spells with
  | .colon _ spellsName _ spells => exact ⟨spellsName.fault?_eq_none, spells.skipFault?_eq_none⟩

/-- Members that are spelled out can be skipped. -/
theorem SpellsMembers.skipMembers_eq_none
    {members : List (Quoted × Reading)}
    {text : List Char}
    (spells : SpellsMembers members text) :
    skipMembers members = none := by
  match spells with
  | .last spells =>
      rw [skipMembers, spells.skipFault?_eq_none.1, spells.skipFault?_eq_none.2, skipMembers,
        Option.none_or, Option.none_or]
  | .next spells spellsOthers =>
      rw [skipMembers, spells.skipFault?_eq_none.1, spells.skipFault?_eq_none.2,
        spellsOthers.skipMembers_eq_none, Option.none_or, Option.none_or]

end

end Json
end ScriptHost
