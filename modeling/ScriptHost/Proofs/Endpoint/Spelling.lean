import ScriptHost.Proofs.Endpoint.Numbers

/-!
# Spellings of an endpoint

An endpoint has many spellings: a port and a scope may begin with zeros, a group is written with
up to four hex digits of either case, any run of zero groups may be left out, and the last two
groups may stand as four bytes. Every spelling of an endpoint is read as this endpoint.
-/

namespace ScriptHost
namespace Endpoint

variable {text rest : List Char}

/-! ## Spellings -/

/-- Groups with colons between them, at least one. The flag tells whether four bytes stand for
the last two. -/
inductive SpellsGroups : (inBytes : Bool) → List UInt16 → List Char → Prop
  | last {group : UInt16} {text : List Char}
      (spells : groupForm.Spells group.toNat text) :
      SpellsGroups false [group] text
  | bytes (address : ShortAddress) :
      SpellsGroups true (shortGroups address) (shortText address)
  | next {group : UInt16} {text others : List Char} {inBytes : Bool} {groups : List UInt16}
      (spells : groupForm.Spells group.toNat text)
      (spellsOthers : SpellsGroups inBytes groups others) :
      SpellsGroups inBytes (group :: groups) (text ++ ':' :: others)

/-- Groups with colons between them, or nothing. -/
def SpellsPart
    (inBytes : Bool)
    (groups : List UInt16)
    (text : List Char) : Prop :=
  groups = [] ∧ text = [] ∨ SpellsGroups inBytes groups text

/-- The spellings of an address of eight groups: all of them, or two colons in place of some
zeros. Bytes can only stand at the end. -/
inductive SpellsLong (address : LongAddress) : List Char → Prop
  | whole {inBytes : Bool} {text : List Char}
      (spells : SpellsGroups inBytes address.groups text) :
      SpellsLong address text
  | elided {inBytes : Bool} {head tail : List UInt16} {headText tailText : List Char}
      (zeros : Nat)
      (areGroups : address.groups = head ++ List.replicate zeros 0 ++ tail)
      (isSome : 0 < zeros)
      (spellsHead : SpellsPart false head headText)
      (spellsTail : SpellsPart inBytes tail tailText) :
      SpellsLong address (headText ++ ':' :: ':' :: tailText)

/-- The spellings of a scope; zero may be left out. -/
inductive SpellsScope (scope : UInt32) : List Char → Prop
  | none (isZero : scope = 0) : SpellsScope scope []
  | some {text : List Char} (spells : scopeForm.Spells scope.toNat text) :
      SpellsScope scope ('%' :: text)

/-- The spellings of an endpoint. -/
inductive Spells : Endpoint → List Char → Prop
  | short (address : ShortAddress) {port : UInt16} {portText : List Char}
      (spellsPort : portForm.Spells port.toNat portText) :
      Spells (.short address port) (shortText address ++ ':' :: portText)
  | long {address : LongAddress} {scope : UInt32} {port : UInt16}
      {addressText scopeText portText : List Char}
      (spellsAddress : SpellsLong address addressText)
      (spellsScope : SpellsScope scope scopeText)
      (spellsPort : portForm.Spells port.toNat portText) :
      Spells (.long address scope port)
        ('[' :: addressText ++ scopeText ++ ']' :: ':' :: portText)

/-! ## Four bytes -/

@[simp] theorem expect_cons (char : Char) (rest : List Char) :
    expect char (char :: rest) = some ((), rest) := if_pos rfl

/-- A character that does not come next is not read. -/
theorem expect_of_head?_ne
    {char : Char}
    (isOther : rest.head? ≠ some char) :
    expect char rest = none := by
  cases rest with
  | nil => rfl
  | cons first rest => exact if_neg fun same => isOther (congrArg some same)

/-- A byte that is written in decimal is read as it is. -/
theorem readNumber_decimal
    {byte : UInt8}
    (noDigit : NoDigitAhead 10 rest) :
    readNumber byteForm (decimal byte.toNat ++ rest) = some (byte.toNat, rest) :=
  have isLess : byte.toNat < 256 := byte.toNat_lt
  readNumber_append (byteForm.spells_toDigits (by decide) (by decide) isLess fun most isMost => by
    cases isMost
    exact ⟨by decide, Nat.lt_of_lt_of_le isLess (by decide)⟩) noDigit

theorem noDigit_point : digit? 10 '.' = none := by decide

theorem noDigit_colon : digit? 16 ':' = none := by decide

/-- A short address that is written out is read as it is. -/
theorem readShort_append
    (address : ShortAddress)
    (noDigit : NoDigitAhead 10 rest) :
    readShort (shortText address ++ rest) = some (address, rest) := by
  have next {others : List Char} : NoDigitAhead 10 ('.' :: others) :=
    noDigitAhead_cons noDigit_point
  simp only [readShort, shortText, List.append_assoc, List.cons_append,
    readNumber_decimal next, readNumber_decimal noDigit, expect_cons, Option.bind_eq_bind,
    Option.bind_some, UInt8.ofNat_toNat]
  rfl

/-- What is left of a number is what follows its digits. -/
theorem eq_snd_digits_of_readNumber
    {form : NumberForm}
    {value : Nat}
    {others : List Char}
    (isRead : readNumber form rest = some (value, others)) :
    others = (digits form.base rest).2 := by
  simp only [readNumber] at isRead
  split_ifs at isRead
  cases isRead
  rfl

/-- Four bytes are not read unless a point follows the first digits. -/
theorem readShort_eq_none
    (noPoint : (digits 10 rest).2.head? ≠ some '.') :
    readShort rest = none := by
  cases isRead : readNumber byteForm rest with
  | none => simp [readShort, isRead]
  | some found =>
      obtain ⟨value, others⟩ := found
      have isOther : others.head? ≠ some '.' := by
        rwa [eq_snd_digits_of_readNumber isRead]
      simp [readShort, isRead, expect_of_head?_ne isOther]

/-- Hex digits are not the beginning of four bytes unless a point follows. -/
theorem head?_digits_ne_point
    (areDigits : ∀ char ∈ text, (digit? 16 char).isSome = true)
    (noDigit : NoDigitAhead 16 rest)
    (noPoint : rest.head? ≠ some '.') :
    (digits 10 (text ++ rest)).2.head? ≠ some '.' := by
  induction text with
  | nil =>
      have noDecimal : NoDigitAhead 10 rest := fun char isHead =>
        digit?_eq_none_of_le (by decide) (noDigit char isHead)
      rwa [List.nil_append, digits_of_noDigitAhead noDecimal]
  | cons char text inductionHypothesis =>
      rw [List.forall_mem_cons] at areDigits
      rw [List.cons_append, digits]
      split
      next =>
        rintro isPoint
        cases isPoint
        exact absurd areDigits.1 (by decide)
      next => exact inductionHypothesis areDigits.2

/-! ## Groups -/

/-- What may follow groups: neither another group nor something that would belong to the last
one. -/
structure EndsGroups (rest : List Char) : Prop where
  noDigit : NoDigitAhead 16 rest
  noPoint : rest.head? ≠ some '.'
  noGroup : afterColon false (readNumber groupForm) rest = none
  noBytes : afterColon false readShort rest = none

/-- Without a point, a group in hexadecimal is no short address. -/
theorem readShort_of_noDigitAhead
    (noDigit : NoDigitAhead 16 rest)
    (noPoint : rest.head? ≠ some '.') :
    readShort rest = none := by
  refine readShort_eq_none ?_
  have noDecimal : NoDigitAhead 10 rest := fun char isHead =>
    digit?_eq_none_of_le (by decide) (noDigit char isHead)
  rwa [digits_of_noDigitAhead noDecimal]

/-- Groups end where neither a digit, a point nor a colon follows. -/
theorem endsGroups_of_noColon
    (noDigit : NoDigitAhead 16 rest)
    (noPoint : rest.head? ≠ some '.')
    (noColon : rest.head? ≠ some ':') :
    EndsGroups rest where
  noDigit := noDigit
  noPoint := noPoint
  noGroup := by
    simp only [afterColon, expect_of_head?_ne noColon]
    rfl
  noBytes := by
    simp only [afterColon, expect_of_head?_ne noColon]
    rfl

/-- Groups end before two colons. -/
theorem endsGroups_colons (rest : List Char) : EndsGroups (':' :: ':' :: rest) where
  noDigit := noDigitAhead_cons noDigit_colon
  noPoint := by simp
  noGroup := by
    simp only [afterColon, expect_cons, Option.bind_eq_bind, Option.bind_some]
    have noDigit : NoDigitAhead groupForm.base (':' :: rest) := noDigitAhead_cons noDigit_colon
    exact readNumber_of_noDigitAhead noDigit
  noBytes := by
    simp only [afterColon, expect_cons, Option.bind_eq_bind, Option.bind_some]
    exact readShort_of_noDigitAhead (noDigitAhead_cons noDigit_colon) (by simp)

/-- What stands in front of groups that are not the first ones. -/
def colonUnless : Bool → List Char
  | true => []
  | false => [':']

/-- A group is read after the colon before it, if it needs one. -/
theorem afterColon_append
    {α : Type}
    (first : Bool)
    (read : Reader α)
    (rest : List Char) :
    afterColon first read (colonUnless first ++ rest) = read rest := by
  cases first
  · simp [afterColon, colonUnless]
  · rfl

/-- A group is read where it stands, and what follows it is read after it. -/
theorem readGroups_group
    (first : Bool)
    (count : Nat)
    {group : UInt16}
    (spells : groupForm.Spells group.toNat text)
    (noDigit : NoDigitAhead 16 rest)
    (noPoint : rest.head? ≠ some '.') :
    readGroups first (count + 1) (colonUnless first ++ (text ++ rest)) =
      (group :: (readGroups false count rest).1, (readGroups false count rest).2) := by
  have noBytes : readShort (text ++ rest) = none :=
    readShort_eq_none (head?_digits_ne_point (fun _ => spells.isSome_digit?) noDigit noPoint)
  have notShort : (if count = 0 then none else readShort (text ++ rest)) = none := by
    rw [noBytes, ite_self]
  rw [readGroups, afterColon_append, afterColon_append, notShort,
    readNumber_append spells noDigit]
  simp only [UInt16.ofNat_toNat]

/-- No group is read where groups end. -/
theorem readGroups_of_endsGroups
    (count : Nat)
    (ends : EndsGroups rest) :
    readGroups false count rest = ([], false, rest) := by
  cases count with
  | zero => rfl
  | succ count =>
      rw [readGroups, ends.noBytes, ends.noGroup]
      simp only [ite_self]

/-- A short address in the last place stands for two groups. -/
theorem readGroups_bytes
    (first : Bool)
    (count : Nat)
    (address : ShortAddress)
    (noDigit : NoDigitAhead 10 rest) :
    readGroups first (count + 2) (colonUnless first ++ (shortText address ++ rest)) =
      (shortGroups address, true, rest) := by
  rw [readGroups, if_neg (Nat.succ_ne_zero count), afterColon_append,
    readShort_append address noDigit]

/-- Spelled groups are read as a whole if there are not too many. -/
theorem SpellsGroups.readGroups_append
    {inBytes : Bool}
    {groups : List UInt16}
    (spells : SpellsGroups inBytes groups text)
    (ends : EndsGroups rest)
    (first : Bool)
    {count : Nat}
    (fits : groups.length ≤ count) :
    readGroups first count (colonUnless first ++ (text ++ rest)) = (groups, inBytes, rest) := by
  induction spells generalizing first count with
  | last spells =>
      obtain ⟨count, rfl⟩ : ∃ others, count = others + 1 := Nat.exists_eq_add_of_le' fits
      rw [readGroups_group first count spells ends.noDigit ends.noPoint,
        readGroups_of_endsGroups count ends]
  | bytes address =>
      obtain ⟨count, rfl⟩ : ∃ others, count = others + 2 := Nat.exists_eq_add_of_le' fits
      exact readGroups_bytes first count address fun char isHead =>
        digit?_eq_none_of_le (by decide) (ends.noDigit char isHead)
  | @next group text others inBytes groups spells _ inductionHypothesis =>
      obtain ⟨count, rfl⟩ : ∃ others, count = others + 1 :=
        Nat.exists_eq_add_of_le' (Nat.one_le_of_lt fits)
      have areRead := inductionHypothesis false (Nat.le_of_succ_le_succ fits)
      rw [List.append_assoc, List.cons_append,
        readGroups_group first count spells (noDigitAhead_cons noDigit_colon) (by simp)]
      exact congrArg (fun found => (group :: found.1, found.2)) areRead

/-- No first group is read where groups end. -/
theorem readGroups_nothing
    (count : Nat)
    (ends : EndsGroups rest) :
    readGroups true count rest = ([], false, rest) := by
  cases count with
  | zero => rfl
  | succ count =>
      have noNumber : readNumber groupForm rest = none := readNumber_of_noDigitAhead ends.noDigit
      have noBytes : readShort rest = none := readShort_of_noDigitAhead ends.noDigit ends.noPoint
      have sameReader {α : Type} (read : Reader α) : afterColon true read rest = read rest := rfl
      rw [readGroups, sameReader, sameReader, noBytes, noNumber]
      simp only [ite_self]

/-- The part of a long address that is spelled out is read as its groups. -/
theorem SpellsPart.readGroups_append
    {inBytes : Bool}
    {groups : List UInt16}
    (spells : SpellsPart inBytes groups text)
    (ends : EndsGroups rest)
    {count : Nat}
    (fits : groups.length ≤ count) :
    ∃ found, (inBytes = false → found = false) ∧
      readGroups true count (text ++ rest) = (groups, found, rest) := by
  rcases spells with ⟨rfl, rfl⟩ | spells
  · exact ⟨false, fun _ => rfl, readGroups_nothing count ends⟩
  · exact ⟨inBytes, id, spells.readGroups_append ends true fits⟩

/-! ## Addresses of eight groups -/

/-- An address is made of its groups. -/
theorem longOfGroups?_groups (address : LongAddress) :
    longOfGroups? address.groups = some address :=
  dif_pos address.length_groups

/-- A long address is read as what its spelling says. -/
theorem SpellsLong.readLong_append
    {address : LongAddress}
    (spells : SpellsLong address text)
    (ends : EndsGroups rest) :
    readLong (text ++ rest) = some (address, rest) := by
  cases spells with
  | whole spells =>
      have areRead := spells.readGroups_append ends true (Nat.le_of_eq address.length_groups)
      rw [colonUnless, List.nil_append] at areRead
      simp only [readLong, areRead, address.length_groups, if_true, longOfGroups?_groups]
      rfl
  | @elided inBytes head tail headText tailText zeros areGroups isSome spellsHead spellsTail =>
      have lengths : head.length + zeros + tail.length = 8 := by
        rw [← address.length_groups, areGroups, List.length_append, List.length_append,
          List.length_replicate]
      have headFits : head.length ≤ 8 := by omega
      have tailFits : tail.length ≤ 7 - head.length := by omega
      have zerosLeft : 8 - head.length - tail.length = zeros := by omega
      -- The zeros are what the two parts leave of eight groups, whatever their number.
      obtain ⟨found, isFound, headRead⟩ :=
        spellsHead.readGroups_append (endsGroups_colons (tailText ++ rest)) headFits
      obtain ⟨_, -, tailRead⟩ := spellsTail.readGroups_append ends tailFits
      have isAddress : longOfGroups? (head ++ (List.replicate zeros 0 ++ tail)) = some address := by
        rw [← List.append_assoc, ← areGroups, longOfGroups?_groups]
      simp only [readLong, List.append_assoc, List.cons_append, headRead, isFound rfl]
      rw [if_neg (by omega)]
      simp only [Bool.false_eq_true, if_false, expect_cons, Option.bind_eq_bind, Option.bind_some,
        tailRead, zerosLeft, isAddress]
      rfl

/-! ## Endpoints -/

/-- A scope is read as what its spelling says, up to the bracket. -/
theorem SpellsScope.readScope_append
    {scope : UInt32}
    (spells : SpellsScope scope text)
    (rest : List Char) :
    readScope (text ++ ']' :: rest) = (scope, ']' :: rest) := by
  cases spells with
  | none isZero =>
      rw [isZero]
      rfl
  | some spells =>
      have noDigit : NoDigitAhead scopeForm.base (']' :: rest) := noDigitAhead_cons (by decide)
      simp only [readScope, List.cons_append, expect_cons, readNumber_append spells noDigit,
        UInt32.ofNat_toNat]

/-- After an address comes its scope or the bracket, and no group. -/
theorem SpellsScope.endsGroups
    {scope : UInt32}
    (spells : SpellsScope scope text)
    (rest : List Char) :
    EndsGroups (text ++ ']' :: rest) := by
  cases spells with
  | none isZero => exact endsGroups_of_noColon (noDigitAhead_cons (by decide)) (by simp) (by simp)
  | some spells => exact endsGroups_of_noColon (noDigitAhead_cons (by decide)) (by simp) (by simp)

/-- A port is read behind its colon. -/
theorem readPort_colon
    {port : UInt16}
    (spells : portForm.Spells port.toNat text) :
    readPort (':' :: text) = some (port, []) := by
  have isRead := readNumber_append spells noDigitAhead_nil
  rw [List.append_nil] at isRead
  simp [readPort, isRead]

/-- Every spelling of an endpoint is read as this endpoint. -/
theorem Spells.ofChars?_eq
    {endpoint : Endpoint}
    (spells : Spells endpoint text) :
    ofChars? text = some endpoint := by
  cases spells with
  | @short address port portText spellsPort =>
      have noDigit : NoDigitAhead 10 (':' :: portText) := noDigitAhead_cons (by decide)
      have isRead := readShort_append address noDigit
      simp [ofChars?, readShortEndpoint, isRead, readPort_colon spellsPort]
  | @long address scope port addressText scopeText portText spellsAddress spellsScope spellsPort =>
      have isRead := spellsAddress.readLong_append (spellsScope.endsGroups (':' :: portText))
      have noShort (others : List Char) : readShort ('[' :: others) = none :=
        readShort_of_noDigitAhead (noDigitAhead_cons (by decide)) (by simp)
      simp [ofChars?, readShortEndpoint, noShort, readLongEndpoint, isRead,
        spellsScope.readScope_append, readPort_colon spellsPort]

end Endpoint
end ScriptHost
