import ScriptHost.Proofs.Settings.Overlay
import Mathlib.Data.List.Nodup

/-!
# Fields that are read one after the other

The members of an object change a record one after the other, in the order in which they stand.
If fields do not disturb each other, this comes to giving each field its value in the order of
the fields instead, and the items of an array do the same.
-/

namespace ScriptHost
namespace Settings

open Json (Reading Quoted Fault)
open Document

variable {α σ : Type} {fields : List (Document.Field σ)} {name : String} {value : Reading}
  {entries others : List (String × Reading)} {record : σ}

/-! ## Values of a name -/

@[simp] theorem valuesOf_nil (name : String) : valuesOf name [] = [] := rfl

@[simp] theorem valuesOf_cons_self
    (name : String)
    (value : Reading)
    (entries : List (String × Reading)) :
    valuesOf name ((name, value) :: entries) = value :: valuesOf name entries := by
  simp [valuesOf]

/-- The entries of other names give no value. -/
theorem valuesOf_cons_of_ne
    {other : String}
    (isOther : other ≠ name) :
    valuesOf name ((other, value) :: entries) = valuesOf name entries := by
  simp [valuesOf, isOther]

/-- A name has no value if no entry bears it. -/
theorem valuesOf_eq_nil_iff :
    valuesOf name entries = [] ↔ ∀ entry ∈ entries, entry.1 ≠ name := by
  simp [valuesOf]

/-! ## Giving each field its value -/

@[simp] theorem toOption_error (problem : Problem) :
    (.error problem : Except Problem α).toOption = none := rfl

@[simp] theorem toOption_ok (result : α) :
    (.ok result : Except Problem α).toOption = some result := rfl

theorem toOption_bind
    {β : Type}
    (first : Except Problem α)
    (next : α → Except Problem β) :
    (first >>= next).toOption = first.toOption.bind fun result => (next result).toOption := by
  cases first <;> rfl

theorem toOption_map
    {β : Type}
    (change : α → β)
    (result : Except Problem α) :
    (change <$> result).toOption = result.toOption.map change := by
  cases result <;> rfl

/-- Give a field the only value of its name, if there is one. -/
def Document.Field.overlay
    (field : Document.Field σ)
    (entries : List (String × Reading))
    (record : σ) : Option σ :=
  match valuesOf field.name entries with
  | [] => some record
  | [value] => (field.read value record).toOption
  | _ => none

/-- Give fields their values, in the order of the fields. -/
def overlayAll
    (fields : List (Document.Field σ))
    (entries : List (String × Reading))
    (record : σ) : Option σ :=
  fields.foldlM (fun record field => field.overlay entries record) record

/-- Fields are laid over a record one after the other. -/
theorem overlayAll_cons
    (field : Document.Field σ)
    (fields : List (Document.Field σ))
    (entries : List (String × Reading))
    (record : σ) :
    overlayAll (field :: fields) entries record =
      (field.overlay entries record).bind (overlayAll fields entries) :=
  List.foldlM_cons

/-- What a field does depends on its own values only. -/
theorem overlay_congr
    {field : Document.Field σ}
    (sameValues : valuesOf field.name entries = valuesOf field.name others) :
    field.overlay entries = field.overlay others := by
  funext record
  rw [Field.overlay, Field.overlay, sameValues]

/-- A field that is not mentioned leaves the record as it is. -/
theorem overlay_of_unmentioned
    {field : Document.Field σ}
    (noValue : valuesOf field.name entries = []) :
    field.overlay entries = some := by
  funext record
  rw [Field.overlay, noValue]

/-- What fields do depends on their own values only. -/
theorem overlayAll_congr
    (sameValues : ∀ field ∈ fields, valuesOf field.name entries = valuesOf field.name others) :
    overlayAll fields entries = overlayAll fields others := by
  induction fields with
  | nil => rfl
  | cons field fields inductionHypothesis =>
      obtain ⟨sameValue, sameValues⟩ := List.forall_mem_cons.mp sameValues
      funext record
      rw [overlayAll_cons, overlayAll_cons, overlay_congr sameValue,
        inductionHypothesis sameValues]

/-- Without entries, nothing is laid over a record. -/
theorem overlayAll_nil (record : σ) : overlayAll fields [] record = some record := by
  induction fields with
  | nil => rfl
  | cons field fields inductionHypothesis =>
      rw [overlayAll_cons, overlay_of_unmentioned (valuesOf_nil _), Option.bind_some,
        inductionHypothesis]

/-- A field of which there are two values makes the record unreadable. -/
theorem overlayAll_of_repeated
    {field : Document.Field σ}
    (member : field ∈ fields)
    (isRepeated : 1 < (valuesOf field.name entries).length)
    (record : σ) :
    overlayAll fields entries record = none := by
  have isRefused (record : σ) : field.overlay entries record = none := by
    rw [Field.overlay]
    split
    next noValue => simp [noValue] at isRepeated
    next isSingle => simp [isSingle] at isRepeated
    next => rfl
  induction fields generalizing record with
  | nil => cases member
  | cons first fields inductionHypothesis =>
      rw [overlayAll_cons]
      rcases List.mem_cons.mp member with rfl | member
      · rw [isRefused, Option.bind_none]
      · cases first.overlay entries record with
        | none => rfl
        | some record => exact inductionHypothesis member record

/-! ## Fields that do not disturb each other -/

/-- Two fields may be read in either order. -/
def Commute (left right : Document.Field σ) : Prop :=
  ∀ (leftValue rightValue : Reading) (record : σ),
    (left.read leftValue record).toOption.bind (fun record =>
        (right.read rightValue record).toOption) =
      (right.read rightValue record).toOption.bind fun record =>
        (left.read leftValue record).toOption

/-- The fields of a record: their names differ, and they may be read in any order. -/
structure AreFields (fields : List (Document.Field σ)) : Prop where
  nodup : (fields.map Field.name).Nodup
  commute : fields.Pairwise Commute

/-- The fields after the first are fields of their own. -/
theorem AreFields.tail
    {field : Document.Field σ}
    (areFields : AreFields (field :: fields)) :
    AreFields fields where
  nodup := (List.nodup_cons.mp areFields.nodup).2
  commute := (List.pairwise_cons.mp areFields.commute).2

/-- No two fields have one name. -/
theorem AreFields.name_ne
    {field other : Document.Field σ}
    (areFields : AreFields (field :: fields))
    (member : other ∈ fields) :
    field.name ≠ other.name := by
  intro sameName
  exact (List.nodup_cons.mp areFields.nodup).1 (sameName ▸ List.mem_map_of_mem member)

/-- A value that one field reads can be read before another field has its value. -/
theorem overlay_bind_read
    {field other : Document.Field σ}
    (commute : Commute other field)
    (entries : List (String × Reading))
    (value : Reading)
    (record : σ) :
    (other.overlay entries record).bind (fun record => (field.read value record).toOption) =
      (field.read value record).toOption.bind (other.overlay entries) := by
  unfold Field.overlay
  split
  next => exact (Option.bind_fun_some _).symm
  next otherValue _ => exact commute otherValue value record
  next => cases (field.read value record).toOption <;> rfl

/-- The first of the values of a field can be read before everything else. -/
theorem overlayAll_cons_entry
    (areFields : AreFields fields)
    {field : Document.Field σ}
    (member : field ∈ fields)
    (noOther : valuesOf field.name entries = [])
    (value : Reading)
    (record : σ) :
    overlayAll fields ((field.name, value) :: entries) record =
      (field.read value record).toOption.bind (overlayAll fields entries) := by
  induction fields generalizing record with
  | nil => cases member
  | cons first fields inductionHypothesis =>
      have unfolded (record : σ) := overlayAll_cons first fields entries record
      rw [overlayAll_cons, funext unfolded]
      rcases List.mem_cons.mp member with rfl | member
      · have sameValues : ∀ other ∈ fields,
            valuesOf other.name ((field.name, value) :: entries) =
              valuesOf other.name entries :=
          fun other isOther => valuesOf_cons_of_ne (areFields.name_ne isOther)
        have isRead : field.overlay ((field.name, value) :: entries) record =
            (field.read value record).toOption := by
          rw [Field.overlay, valuesOf_cons_self, noOther]
        rw [overlayAll_congr sameValues, isRead, overlay_of_unmentioned noOther]
        rfl
      -- The first field has no part in the entry, but it is read before the entry's own field.
      · have isOther : field.name ≠ first.name := (areFields.name_ne member).symm
        have commute : Commute first field :=
          (List.pairwise_cons.mp areFields.commute).1 field member
        have areRead : overlayAll fields ((field.name, value) :: entries) = fun record =>
            (field.read value record).toOption.bind (overlayAll fields entries) :=
          funext (inductionHypothesis areFields.tail member)
        rw [overlay_congr (valuesOf_cons_of_ne isOther), areRead, ← Option.bind_assoc,
          overlay_bind_read commute, Option.bind_assoc]

/-! ## Reading -/

/-- The items of an array are given to the fields in their order. -/
theorem toOption_readItems
    (areFields : AreFields fields)
    (items : List Reading)
    (record : σ) :
    (readItems fields items none record).toOption =
      if items.length ≤ fields.length then
        overlayAll fields ((fields.map Field.name).zip items) record
      else none := by
  induction fields generalizing items record with
  | nil => cases items <;> rfl
  | cons field fields inductionHypothesis =>
      cases items with
      | nil =>
          rw [List.length_nil, if_pos (Nat.zero_le _), List.zip_nil_right, overlayAll_nil]
          rfl
      | cons item items =>
          have noOther : valuesOf field.name ((fields.map Field.name).zip items) = [] := by
            rw [valuesOf_eq_nil_iff]
            rintro entry member sameName
            have isName := List.of_mem_zip member
            exact (List.nodup_cons.mp areFields.nodup).1 (sameName ▸ isName.1)
          have isRead := overlayAll_cons_entry areFields List.mem_cons_self noOther item record
          have unfolded : overlayAll (field :: fields) ((fields.map Field.name).zip items) =
              overlayAll fields ((fields.map Field.name).zip items) := by
            funext record
            rw [overlayAll_cons, overlay_of_unmentioned noOther, Option.bind_some]
          rw [readItems, toOption_bind, List.map_cons, List.zip_cons_cons, isRead, unfolded,
            funext (inductionHypothesis areFields.tail items)]
          simp only [List.length_cons, Nat.add_le_add_iff_right]
          split_ifs
          · rfl
          · cases (field.read item record).toOption <;> rfl

/-- Members can be skipped if each of them can. -/
theorem skipMembers_cons_eq_none_iff
    {member : Quoted × Reading}
    {members : List (Quoted × Reading)} :
    Reading.skipMembers (member :: members) = none ↔
      member.1.fault? = none ∧ Reading.skipFault? member.2 = none ∧
        Reading.skipMembers members = none := by
  rw [Reading.skipMembers, Option.or_eq_none_iff, Option.or_eq_none_iff]

/-- A name that is text has characters. -/
theorem exists_characters_eq_ok
    {body : Quoted}
    (isText : isText body = true) :
    ∃ chars, characters body = .ok chars ∧ String.ofList chars = nameOf body := by
  cases decoded : body.decode with
  | error fault => simp [Settings.isText, decoded, Except.isOk, Except.toBool] at isText
  | ok chars => exact ⟨chars, by simp [characters, decoded], by simp [nameOf, decoded]⟩

/-- A member whose name is no text makes a document unreadable. -/
theorem readMembers_of_noText
    {body : Quoted}
    (noText : isText body = false)
    (value : Reading)
    (members : List (Quoted × Reading))
    (seen : List String)
    (record : σ) :
    (readMembers fields seen ((body, value) :: members) none record).toOption = none := by
  cases decoded : body.decode with
  | error fault =>
      rw [readMembers, toOption_bind, characters, decoded, toOption_error, Option.bind_none]
  | ok chars => simp [isText, decoded, Except.isOk, Except.toBool] at noText

/-- A member of another name is skipped. -/
theorem readMembers_of_unknown
    {body : Quoted}
    (isText : isText body = true)
    (isUnknown : (fields.find? fun field => field.name = nameOf body) = none)
    (noFault : value.skipFault? = none)
    (members : List (Quoted × Reading))
    (seen : List String)
    (record : σ) :
    readMembers fields seen ((body, value) :: members) none record =
      readMembers fields seen members none record := by
  obtain ⟨chars, areChars, isName⟩ := exists_characters_eq_ok isText
  simp only [readMembers, areChars, isName, isUnknown, noFault, check, bind, Except.bind]

/-- A member of a field is read, unless the field has been given a value. -/
theorem toOption_readMembers_of_known
    {body : Quoted}
    {field : Document.Field σ}
    (isText : isText body = true)
    (isKnown : (fields.find? fun field => field.name = nameOf body) = some field)
    (value : Reading)
    (members : List (Quoted × Reading))
    (seen : List String)
    (record : σ) :
    (readMembers fields seen ((body, value) :: members) none record).toOption =
      if nameOf body ∈ seen then none
      else (field.read value record).toOption.bind fun record =>
        (readMembers fields (nameOf body :: seen) members none record).toOption := by
  obtain ⟨chars, areChars, isName⟩ := exists_characters_eq_ok isText
  simp only [readMembers, areChars, toOption_bind, toOption_ok, Option.bind_some, isName, isKnown,
    List.contains_iff_mem]
  split_ifs
  · rfl
  · rw [toOption_bind]

/-- Whether members can be given to fields some of which have a value: all names are text, and
no field is named that has a value. -/
def Fits
    (fields : List (Document.Field σ))
    (seen : List String)
    (members : List (Quoted × Reading)) : Prop :=
  (∀ member ∈ members, isText member.1 = true) ∧
    ∀ field ∈ fields, field.name ∈ seen → valuesOf field.name (members.map entryOf) = []

/-- A document without members fits. -/
theorem fits_nil (seen : List String) : Fits fields seen [] :=
  ⟨fun _ member => absurd member List.not_mem_nil, fun _ _ _ => rfl⟩

/-- Unknown members fit wherever they stand. -/
theorem fits_cons_iff_of_unknown
    {member : Quoted × Reading}
    {members : List (Quoted × Reading)}
    (isText : isText member.1 = true)
    (isOther : ∀ field ∈ fields, nameOf member.1 ≠ field.name)
    (seen : List String) :
    Fits fields seen (member :: members) ↔ Fits fields seen members := by
  have sameValues (field : Document.Field σ) (isField : field ∈ fields) :
      valuesOf field.name ((member :: members).map entryOf) =
        valuesOf field.name (members.map entryOf) :=
    valuesOf_cons_of_ne (isOther field isField)
  simp +contextual only [Fits, List.forall_mem_cons, isText, sameValues, true_and]

/-- A member that is known fits if its field was not seen before and is not seen again. -/
theorem fits_cons_iff_of_known
    {field : Document.Field σ}
    {member : Quoted × Reading}
    {members : List (Quoted × Reading)}
    (isText : isText member.1 = true)
    (isField : field ∈ fields)
    (isName : nameOf member.1 = field.name)
    (seen : List String) :
    Fits fields seen (member :: members) ↔
      field.name ∉ seen ∧ Fits fields seen members := by
  have isGiven : valuesOf field.name ((member :: members).map entryOf) =
      member.2 :: valuesOf field.name (members.map entryOf) := by
    rw [List.map_cons, entryOf, isName, valuesOf_cons_self]
  constructor
  · rintro ⟨areTexts, noValues⟩
    refine ⟨fun isSeen => ?_, (List.forall_mem_cons.mp areTexts).2, fun other isOther isSeen => ?_⟩
    · have noValue := noValues field isField isSeen
      rw [isGiven] at noValue
      cases noValue
    · have noValue := noValues other isOther isSeen
      rw [valuesOf_eq_nil_iff] at noValue ⊢
      exact fun entry isEntry => noValue entry (List.mem_cons_of_mem _ isEntry)
  · rintro ⟨notSeen, areTexts, noValues⟩
    refine ⟨List.forall_mem_cons.mpr ⟨isText, areTexts⟩, fun other isOther isSeen => ?_⟩
    have isDifferent : nameOf member.1 ≠ other.name := by
      rw [isName]
      rintro sameName
      exact notSeen (sameName ▸ isSeen)
    rw [List.map_cons, entryOf, valuesOf_cons_of_ne isDifferent, noValues other isOther isSeen]

/-- Members fit behind a field if they do not mention it. -/
theorem fits_cons_seen_iff
    {field : Document.Field σ}
    (isField : field ∈ fields)
    (members : List (Quoted × Reading))
    (seen : List String) :
    Fits fields (field.name :: seen) members ↔
      valuesOf field.name (members.map entryOf) = [] ∧ Fits fields seen members := by
  constructor
  · rintro ⟨areTexts, noValues⟩
    exact ⟨noValues field isField List.mem_cons_self, areTexts,
      fun other isOther isSeen => noValues other isOther (List.mem_cons_of_mem _ isSeen)⟩
  · rintro ⟨noValue, areTexts, noValues⟩
    refine ⟨areTexts, fun other isOther isSeen => ?_⟩
    rcases List.mem_cons.mp isSeen with sameName | isSeen
    · rw [sameName, noValue]
    · exact noValues other isOther isSeen

/-- One member is read, and no other may have its name. -/
theorem bind_overlayAll
    (areFields : AreFields fields)
    {field : Document.Field σ}
    (isField : field ∈ fields)
    (entries : List (String × Reading))
    (value : Reading)
    (record : σ)
    {isSeen fits fitsOthers fitsAll : Prop}
    [Decidable isSeen]
    [Decidable fitsOthers]
    [Decidable fitsAll]
    (isOthers : fitsOthers ↔ valuesOf field.name entries = [] ∧ fits)
    (isAll : fitsAll ↔ ¬isSeen ∧ fits) :
    (if isSeen then none
      else (field.read value record).toOption.bind fun record =>
        if fitsOthers then overlayAll fields entries record else none) =
      if fitsAll then overlayAll fields ((field.name, value) :: entries) record else none := by
  by_cases isSeen
  case pos isSeen => simp [isSeen, isAll]
  case neg notSeen =>
    by_cases fits
    case neg noFit => simp [notSeen, noFit, isOthers, isAll]
    case pos fits =>
      simp only [notSeen, fits, isOthers, isAll, and_true, not_false_eq_true, if_true, if_false]
      by_cases noOther : valuesOf field.name entries = []
      · simp only [noOther, if_true]
        exact (overlayAll_cons_entry areFields isField noOther value record).symm
      · have isRepeated : 1 < (valuesOf field.name ((field.name, value) :: entries)).length := by
          simpa [List.length_pos_iff] using noOther
        simp only [noOther, if_false, overlayAll_of_repeated isField isRepeated]
        exact Option.bind_fun_none _

open Classical in
/-- The members of an object are given to the fields of their names, in whichever order they
stand. -/
theorem toOption_readMembers
    (areFields : AreFields fields)
    (members : List (Quoted × Reading))
    (noFault : Reading.skipMembers members = none)
    (seen : List String)
    (record : σ) :
    (readMembers fields seen members none record).toOption =
      if Fits fields seen members then overlayAll fields (members.map entryOf) record
      else none := by
  -- What has been seen grows with every known member, and the rest must not name it again.
  induction members generalizing seen record with
  | nil =>
      rw [if_pos (fits_nil seen), List.map_nil, overlayAll_nil]
      rfl
  | cons member members inductionHypothesis =>
      obtain ⟨body, value⟩ := member
      obtain ⟨-, noValueFault, noFault⟩ := skipMembers_cons_eq_none_iff.mp noFault
      cases isText : isText body with
      | false =>
          rw [readMembers_of_noText isText, if_neg]
          rintro ⟨areTexts, -⟩
          exact Bool.false_ne_true (isText.symm.trans (areTexts _ List.mem_cons_self))
      | true =>
          cases found : fields.find? fun field => field.name = nameOf body with
          | none =>
              have isOther : ∀ field ∈ fields, nameOf body ≠ field.name := by
                intro field isField sameName
                simpa [sameName] using List.find?_eq_none.mp found field isField
              have sameValues : ∀ field ∈ fields,
                  valuesOf field.name (((body, value) :: members).map entryOf) =
                    valuesOf field.name (members.map entryOf) :=
                fun field isField => valuesOf_cons_of_ne (isOther field isField)
              rw [readMembers_of_unknown isText found noValueFault, inductionHypothesis noFault,
                fits_cons_iff_of_unknown isText isOther, overlayAll_congr sameValues]
          | some field =>
              have isField : field ∈ fields := List.mem_of_find?_eq_some found
              have isName : field.name = nameOf body :=
                by simpa using List.find?_some found
              have areRead := fun record => inductionHypothesis noFault (field.name :: seen) record
              rw [toOption_readMembers_of_known isText found, ← isName, funext areRead,
                List.map_cons, entryOf, ← isName]
              exact bind_overlayAll areFields isField (members.map entryOf) value record
                (fits_cons_seen_iff isField members seen)
                (fits_cons_iff_of_known isText isField isName.symm seen)

/-- Reading a record gives each field its value. -/
theorem toOption_readRecord
    (areFields : AreFields fields)
    {reading : Reading}
    (noFault : reading.skipFault? = none)
    (record : σ) :
    (readRecord fields record reading).toOption =
      (entries? (fields.map Field.name) reading).bind fun entries =>
        overlayAll fields entries record := by
  cases reading
  case array items fault? =>
    obtain ⟨-, rfl⟩ := Option.or_eq_none_iff.mp noFault
    rw [readRecord, toOption_readItems areFields, entries?, List.length_map]
    split_ifs <;> rfl
  case object members fault? =>
    obtain ⟨noMemberFault, rfl⟩ := Option.or_eq_none_iff.mp noFault
    have isFit : Fits fields [] members ↔ (members.all fun member => isText member.1) = true := by
      simp [Fits]
    rw [readRecord, toOption_readMembers areFields members noMemberFault, entries?]
    simp only [isFit]
    split_ifs <;> rfl
  all_goals rfl

/-- A field reads its value from its entries, or keeps the one that the record has. -/
theorem overlay_field
    {decode : Decoder α}
    {put : α → σ → σ}
    (get : σ → α)
    (isKept : put (get record) record = record) :
    (field name decode put).overlay entries record =
      (overlaid? (fun reading => (decode reading).toOption) entries name (get record)).map
        (put · record) := by
  have isNamed : (field name decode put).name = name := rfl
  rw [Field.overlay, overlaid?, isNamed]
  cases valuesOf name entries with
  | nil => exact congrArg some isKept.symm
  | cons value others =>
      cases others with
      | nil => exact toOption_map _ _
      | cons => rfl

/-- Fields that are put into a record independently can be read in either order. -/
theorem commute_field
    {β : Type}
    {other : String}
    {decode : Decoder α}
    {decodeOther : Decoder β}
    {put : α → σ → σ}
    {putOther : β → σ → σ}
    (commute : ∀ value valueOther record,
      putOther valueOther (put value record) = put value (putOther valueOther record)) :
    Commute (field name decode put) (field other decodeOther putOther) := by
  intro leftValue rightValue record
  simp only [field]
  cases decode leftValue <;> cases decodeOther rightValue
  case ok.ok => exact congrArg some (commute _ _ _)
  all_goals rfl

/-- What is laid over a value depends on what the entries denote. -/
theorem overlaid?_congr
    {denotes? others? : Reading → Option α}
    (sameValues : ∀ entry ∈ entries, denotes? entry.2 = others? entry.2)
    (name : String)
    (default : α) :
    overlaid? denotes? entries name default = overlaid? others? entries name default := by
  rw [overlaid?, overlaid?, List.map_congr_left]
  intro value member
  obtain ⟨entry, isEntry, rfl⟩ := List.mem_map.mp member
  exact sameValues entry (List.mem_of_mem_filter isEntry)

/-- The first field has the value that it is given or the one that it has in the record. -/
theorem overlayAll_cons_field
    {decode : Decoder α}
    {put : α → σ → σ}
    {denotes? : Reading → Option α}
    (get : σ → α)
    (isKept : put (get record) record = record)
    (sameValues : ∀ entry ∈ entries, (decode entry.2).toOption = denotes? entry.2) :
    overlayAll (field name decode put :: fields) entries record =
      (overlaid? denotes? entries name (get record)).bind fun value =>
        overlayAll fields entries (put value record) := by
  rw [overlayAll_cons, overlay_field get isKept, Option.bind_map, overlaid?_congr sameValues]
  rfl

end Settings
end ScriptHost
