import ScriptHost.Proofs.Settings.Overlay
import Mathlib.Logic.Relation
import Mathlib.Data.List.Forall2

/-!
# Documents that say the same

A record may be written in many ways: its members in any order, between them members of other
names, or only the values of its first fields as an array. None of this changes what a document
says, neither on the outside nor within a section.
-/

namespace ScriptHost
namespace Settings

open Json (Reading Quoted)

variable {α : Type} {name : String} {names : List String} {reading other : Reading}
  {entries others : List (String × Reading)} {inner : String → Reading → Reading → Prop}

/-! ## Changes of notation -/

/-- Two ways of writing a record whose fields have names. The values of a field may be written
in two ways themselves. -/
inductive Rearranges
    (names : List String)
    (inner : String → Reading → Reading → Prop) : Reading → Reading → Prop
  | permuted {members others : List (Quoted × Reading)} (isPermuted : members.Perm others) :
      Rearranges names inner (.object members none) (.object others none)
  | unknown (before after : List (Quoted × Reading)) {body : Quoted} (value : Reading)
      (isText : isText body = true)
      (isUnknown : nameOf body ∉ names) :
      Rearranges names inner (.object (before ++ after) none)
        (.object (before ++ (body, value) :: after) none)
  | listed {items : List Reading} {members : List (Quoted × Reading)}
      (fits : items.length ≤ names.length)
      (areTexts : ∀ member ∈ members, isText member.1 = true)
      (areNamed : members.map entryOf = names.zip items) :
      Rearranges names inner (.array items none) (.object members none)
  | within (before after : List (Quoted × Reading)) {body : Quoted} {value other : Reading}
      (isInner : inner (nameOf body) value other) :
      Rearranges names inner (.object (before ++ (body, value) :: after) none)
        (.object (before ++ (body, other) :: after) none)

/-- Two ways of writing a section, the fields of which hold no records. -/
def RearrangesSection
    (name : String)
    (reading other : Reading) : Prop :=
  Rearranges (fieldNames name) (fun _ _ _ => False) reading other

/-- Two ways of writing a document, with any number of changes of notation between them. -/
def SameContent : Reading → Reading → Prop :=
  Relation.EqvGen (Rearranges sectionNames RearrangesSection)

/-! ## What a record gives to its fields -/

/-- Whether a value is the only one does not depend on the order. -/
theorem only?_perm
    {values others : List (Option α)}
    (isPermuted : values.Perm others)
    (default : α) :
    only? default values = only? default others := by
  have sameLength := isPermuted.length_eq
  match values, others with
  | [], [] => rfl
  | [value], [other] => rw [List.singleton_perm_singleton.mp isPermuted]
  | _ :: _ :: _, _ :: _ :: _ => rfl

/-- Two records give the same to each of some names, up to how it is written. -/
def Agree
    (names : List String)
    (inner : String → Reading → Reading → Prop)
    (entries others : List (String × Reading)) : Prop :=
  ∀ name ∈ names, ∃ values, (valuesOf name entries).Perm values ∧
    List.Forall₂ (fun value other => value = other ∨ inner name value other) values
      (valuesOf name others)

theorem map_eq_of_forall₂
    {denotes? : Reading → Option α}
    {values others : List Reading}
    (sameMeaning : ∀ value other, inner name value other → denotes? value = denotes? other)
    (areInner : List.Forall₂ (fun value other => value = other ∨ inner name value other)
      values others) :
    values.map denotes? = others.map denotes? := by
  induction areInner with
  | nil => rfl
  | cons isSame _ inductionHypothesis =>
      rw [List.map_cons, List.map_cons, inductionHypothesis]
      rcases isSame with rfl | isInner
      · rfl
      · rw [sameMeaning _ _ isInner]

/-- Entries that agree on a name lay the same over a value. -/
theorem Agree.overlaid?_eq
    (agree : Agree names inner entries others)
    {denotes? : Reading → Option α}
    (isName : name ∈ names)
    (sameMeaning : ∀ value other, inner name value other → denotes? value = denotes? other)
    (default : α) :
    overlaid? denotes? entries name default = overlaid? denotes? others name default := by
  obtain ⟨values, isPermuted, areInner⟩ := agree name isName
  rw [overlaid?, overlaid?, only?_perm (isPermuted.map denotes?),
    map_eq_of_forall₂ sameMeaning areInner]

theorem forall₂_same (values : List Reading) :
    List.Forall₂ (fun value other => value = other ∨ inner name value other) values values :=
  List.forall₂_same.mpr fun _ _ => .inl rfl

/-- Entries with the same values agree. -/
theorem agree_of_valuesOf_eq
    (sameValues : ∀ name ∈ names, valuesOf name entries = valuesOf name others) :
    Agree names inner entries others := by
  intro name isName
  refine ⟨_, .refl _, ?_⟩
  rw [sameValues name isName]
  exact forall₂_same _

/-- The values of a name come in the order of its entries. -/
theorem valuesOf_append
    (name : String)
    (entries others : List (String × Reading)) :
    valuesOf name (entries ++ others) = valuesOf name entries ++ valuesOf name others := by
  simp [valuesOf]

theorem valuesOf_cons
    (name : String)
    (entry : String × Reading)
    (entries : List (String × Reading)) :
    valuesOf name (entry :: entries) =
      if entry.1 = name then entry.2 :: valuesOf name entries else valuesOf name entries := by
  rw [valuesOf, valuesOf, List.filter_cons]
  split_ifs <;> simp_all

/-- The names of members do not depend on their order or on the values. -/
theorem rel_entries?_object
    {members otherMembers : List (Quoted × Reading)}
    (sameTexts : (members.all fun member => isText member.1) =
      otherMembers.all fun member => isText member.1)
    (agree : Agree names inner (members.map entryOf) (otherMembers.map entryOf)) :
    Option.Rel (Agree names inner) (entries? names (.object members none))
      (entries? names (.object otherMembers none)) := by
  rw [entries?, entries?, sameTexts]
  split_ifs
  · exact .some agree
  · exact .none

/-- A change of notation leaves what each name is given. -/
theorem Rearranges.rel_entries?
    (rearranges : Rearranges names inner reading other) :
    Option.Rel (Agree names inner) (entries? names reading) (entries? names other) := by
  cases rearranges with
  | permuted isPermuted =>
      refine rel_entries?_object isPermuted.all_eq fun name _ => ?_
      exact ⟨_, ((isPermuted.map entryOf).filter _).map _, forall₂_same _⟩
  | unknown before after value isText isUnknown =>
      refine rel_entries?_object ?_ (agree_of_valuesOf_eq fun name isName => ?_)
      · rw [List.all_append, List.all_append, List.all_cons, isText, Bool.true_and]
      · have isOther : nameOf _ ≠ name := fun sameName => isUnknown (sameName ▸ isName)
        rw [List.map_append, List.map_append, List.map_cons, valuesOf_append, valuesOf_append,
          valuesOf_cons, entryOf, if_neg isOther]
  | listed fits areTexts areNamed =>
      rw [entries?, entries?, if_pos fits, if_pos (List.all_eq_true.mpr areTexts), areNamed]
      exact .some (agree_of_valuesOf_eq fun _ _ => rfl)
  | @within before after body value other isInner =>
      refine rel_entries?_object ?_ fun name _ => ⟨_, .refl _, ?_⟩
      · rw [List.all_append, List.all_append, List.all_cons, List.all_cons]
      · simp only [List.map_append, List.map_cons, valuesOf_append, valuesOf_cons, entryOf]
        refine List.rel_append (forall₂_same _) ?_
        split_ifs with isName
        · exact .cons (.inr (isName ▸ isInner)) (forall₂_same _)
        · exact forall₂_same _

/-! ## What a document says -/

/-- Related values have the same result if what is done with them has. -/
theorem bind_eq_of_rel
    {β γ : Type}
    {related : α → β → Prop}
    {first? : Option α}
    {second? : Option β}
    {first : α → Option γ}
    {second : β → Option γ}
    (areRelated : Option.Rel related first? second?)
    (sameResult : ∀ left right, related left right → first left = second right) :
    first?.bind first = second?.bind second := by
  cases areRelated with
  | none => rfl
  | some isRelated => exact sameResult _ _ isRelated

/-- A scheduler section that is rearranged denotes the same settings. -/
theorem Rearranges.scheduler?_eq
    (rearranges : Rearranges schedulerNames (fun _ _ _ => False) reading other) :
    scheduler? reading = scheduler? other := by
  refine bind_eq_of_rel rearranges.rel_entries? fun entries others agree => ?_
  rw [agree.overlaid?_eq (by decide) (fun _ _ => False.elim),
    agree.overlaid?_eq (by decide) (fun _ _ => False.elim)]

/-- A network section that is rearranged denotes the same settings. -/
theorem Rearranges.network?_eq
    (rearranges : Rearranges networkNames (fun _ _ _ => False) reading other) :
    network? reading = network? other := by
  refine bind_eq_of_rel rearranges.rel_entries? fun entries others agree => ?_
  rw [agree.overlaid?_eq (by decide) (fun _ _ => False.elim),
    agree.overlaid?_eq (by decide) (fun _ _ => False.elim),
    agree.overlaid?_eq (by decide) (fun _ _ => False.elim)]

/-- A runtime section that is rearranged denotes the same settings. -/
theorem Rearranges.runtime?_eq
    (rearranges : Rearranges runtimeNames (fun _ _ _ => False) reading other) :
    runtime? reading = runtime? other := by
  refine bind_eq_of_rel rearranges.rel_entries? fun entries others agree => ?_
  rw [agree.overlaid?_eq (by decide) (fun _ _ => False.elim)]

/-- Documents that are rearranged denote the same settings. -/
theorem Rearranges.settings?_eq
    (rearranges : Rearranges sectionNames RearrangesSection reading other) :
    settings? reading = settings? other := by
  have sameScheduler (value other : Reading) (isInner : RearrangesSection "scheduler" value other) :
      scheduler? value = scheduler? other :=
    scheduler?_eq isInner
  have sameNetwork (value other : Reading) (isInner : RearrangesSection "network" value other) :
      network? value = network? other :=
    network?_eq isInner
  have sameRuntime (value other : Reading) (isInner : RearrangesSection "runtime" value other) :
      runtime? value = runtime? other :=
    runtime?_eq isInner
  refine bind_eq_of_rel rearranges.rel_entries? fun entries others agree => ?_
  rw [agree.overlaid?_eq (by decide) sameScheduler, agree.overlaid?_eq (by decide) sameNetwork,
    agree.overlaid?_eq (by decide) sameRuntime]

/-- A document says the same however it is written. -/
theorem SameContent.settings?_eq
    (sameContent : SameContent reading other) :
    settings? reading = settings? other := by
  induction sameContent with
  | rel _ _ rearranges => exact rearranges.settings?_eq
  | refl _ => rfl
  | symm _ _ _ inductionHypothesis => exact inductionHypothesis.symm
  | trans _ _ _ _ _ first second => exact first.trans second

end Settings
end ScriptHost
