import ScriptHost.Text.Utf8
import Mathlib.Tactic.SplitIfs

/-!
# Reading and writing undo each other

The bytes that write a code point are read as this code point, whatever follows them. So
reading the bytes of a text yields the text, and nothing in it is replaced. The bytes that
are read as a code point are also the only ones that write it, so bytes in which nothing is
replaced are those of the text that they are read as.
-/

namespace ScriptHost
namespace Utf8

/-! ## Single bytes -/

/-- A byte is within bounds if its number is. -/
theorem within_iff
    (low high : Nat)
    (byte : UInt8) :
    within low high byte = true ↔ low ≤ byte.toNat ∧ byte.toNat ≤ high := by
  rw [within, Bool.and_eq_true, decide_eq_true_iff, decide_eq_true_iff]

/-- A continuation byte holds the six lowest bits. -/
theorem toNat_continuation (value : Nat) :
    (continuation value).toNat = 0x80 + value % 0x40 :=
  UInt8.toNat_ofNat_of_lt' (by change _ < 256; omega)

theorem isContinuation_continuation (value : Nat) :
    isContinuation (continuation value) = true := by
  rw [isContinuation, within_iff, toNat_continuation]
  omega

theorem payloadBits_continuation (value : Nat) :
    payloadBits (continuation value) = value % 0x40 := by
  rw [payloadBits, toNat_continuation]
  omega

/-! ## Code points of two, three and four bytes -/

variable {first : UInt8} {value : Nat}

/-- Two bytes are read as the character that they encode. -/
theorem readTwo_continuation
    (isFirst : first.toNat = 0xC0 + value / 0x40)
    (isTwo : value < 0x800)
    (rest : Bytes) :
    readTwo first (continuation value :: rest) = ⟨some (Char.ofNat value), 1⟩ := by
  have isValue : first.toNat % 0x20 * 0x40 + value % 0x40 = value := by omega
  rw [readTwo, if_pos (isContinuation_continuation value), payloadBits_continuation, isValue]

/-- Three bytes do not write what two bytes write, nor half of a surrogate pair. -/
theorem secondOfThree_continuation
    (isFirst : first.toNat = 0xE0 + value / 0x1000)
    (isThree : 0x800 ≤ value ∧ value < 0x10000)
    (isValid : value.isValidChar) :
    secondOfThree first (continuation (value / 0x40)) = true := by
  unfold secondOfThree
  split_ifs
  · rw [within_iff, toNat_continuation]
    omega
  · rw [within_iff, toNat_continuation]
    rcases isValid with isLow | isHigh <;> omega
  · exact isContinuation_continuation _

/-- Three bytes are read as the character that they encode. -/
theorem readThree_continuation
    (isFirst : first.toNat = 0xE0 + value / 0x1000)
    (isThree : 0x800 ≤ value ∧ value < 0x10000)
    (isValid : value.isValidChar)
    (rest : Bytes) :
    readThree first (continuation (value / 0x40) :: continuation value :: rest) =
      ⟨some (Char.ofNat value), 2⟩ := by
  have isValue : (first.toNat % 0x10 * 0x40 + value / 0x40 % 0x40) * 0x40 + value % 0x40 =
      value := by
    omega
  rw [readThree, if_pos (secondOfThree_continuation isFirst isThree isValid)]
  rw [if_pos (isContinuation_continuation value), payloadBits_continuation,
    payloadBits_continuation, isValue]

/-- Four bytes do not write what three bytes write, nor anything beyond the last code
point. -/
theorem secondOfFour_continuation
    (isFirst : first.toNat = 0xF0 + value / 0x40000)
    (isFour : 0x10000 ≤ value ∧ value < 0x110000) :
    secondOfFour first (continuation (value / 0x1000)) = true := by
  unfold secondOfFour
  split_ifs
  · rw [within_iff, toNat_continuation]
    omega
  · rw [within_iff, toNat_continuation]
    omega
  · exact isContinuation_continuation _

/-- Four bytes are read as the character that they encode. -/
theorem readFour_continuation
    (isFirst : first.toNat = 0xF0 + value / 0x40000)
    (isFour : 0x10000 ≤ value ∧ value < 0x110000)
    (rest : Bytes) :
    readFour first (continuation (value / 0x1000) :: continuation (value / 0x40) ::
        continuation value :: rest) =
      ⟨some (Char.ofNat value), 3⟩ := by
  have isValue : ((first.toNat % 0x08 * 0x40 + value / 0x1000 % 0x40) * 0x40 +
      value / 0x40 % 0x40) * 0x40 + value % 0x40 = value := by
    omega
  rw [readFour, if_pos (secondOfFour_continuation isFirst isFour)]
  rw [if_pos (isContinuation_continuation (value / 0x40)),
    if_pos (isContinuation_continuation value), payloadBits_continuation,
    payloadBits_continuation, payloadBits_continuation, isValue]

/-! ## Texts -/

/-- The bytes of a code point are read as this code point, whatever follows them. -/
theorem readings_encodeChar_append
    (char : Char)
    (rest : Bytes) :
    readings (encodeChar char ++ rest) = some char :: readings rest := by
  have isValid : char.toNat.isValidChar := char.valid
  have isLess : char.toNat < 0x110000 := by
    rcases isValid with isLow | isHigh <;> omega
  simp only [encodeChar]
  split_ifs with isOne isTwo isThree
  · have isFirst : (UInt8.ofNat char.toNat).toNat = char.toNat :=
      UInt8.toNat_ofNat_of_lt' (by change _ < 256; omega)
    rw [List.singleton_append, readings_cons, read, isFirst, if_pos isOne, Char.ofNat_toNat]
    rfl
  · have isFirst : (UInt8.ofNat (0xC0 + char.toNat / 0x40)).toNat = 0xC0 + char.toNat / 0x40 :=
      UInt8.toNat_ofNat_of_lt' (by change _ < 256; omega)
    rw [List.cons_append, readings_cons, read, if_neg (by rw [isFirst]; omega),
      if_pos ((within_iff ..).mpr (by rw [isFirst]; omega)), List.singleton_append,
      readTwo_continuation isFirst isTwo, Char.ofNat_toNat]
    rfl
  · have isFirst : (UInt8.ofNat (0xE0 + char.toNat / 0x1000)).toNat =
        0xE0 + char.toNat / 0x1000 :=
      UInt8.toNat_ofNat_of_lt' (by change _ < 256; omega)
    rw [List.cons_append, readings_cons, read, if_neg (by rw [isFirst]; omega),
      if_neg (by rw [within_iff, isFirst]; omega),
      if_pos ((within_iff ..).mpr (by rw [isFirst]; omega)), List.cons_append,
      List.singleton_append, readThree_continuation isFirst (by omega) isValid,
      Char.ofNat_toNat]
    rfl
  · have isFirst : (UInt8.ofNat (0xF0 + char.toNat / 0x40000)).toNat =
        0xF0 + char.toNat / 0x40000 :=
      UInt8.toNat_ofNat_of_lt' (by change _ < 256; omega)
    rw [List.cons_append, readings_cons, read, if_neg (by rw [isFirst]; omega),
      if_neg (by rw [within_iff, isFirst]; omega), if_neg (by rw [within_iff, isFirst]; omega),
      if_pos ((within_iff ..).mpr (by rw [isFirst]; omega)), List.cons_append,
      List.cons_append, List.singleton_append, readFour_continuation isFirst (by omega),
      Char.ofNat_toNat]
    rfl

/-- What was encoded is read character by character. -/
theorem readings_encodeChars (chars : List Char) :
    readings (encodeChars chars) = chars.map some := by
  induction chars with
  | nil => exact readings_nil
  | cons char chars inductionHypothesis =>
      rw [encodeChars, List.flatMap_cons, readings_encodeChar_append, List.map_cons]
      exact congrArg _ inductionHypothesis

/-- Reading the bytes of a text yields the text. -/
theorem decodeLossy_encode (text : String) : decodeLossy (encode text) = text := by
  have isRead : (readings (encode text)).map (fun reading => reading.getD replacement) =
      text.toList := by
    rw [encode, readings_encodeChars, List.map_map]
    exact List.map_id _
  rw [decodeLossy, isRead, String.ofList_toList]

/-! ## Writing undoes reading -/

variable {char : Char} {rest : Bytes}

theorem toNat_ofNat (isValid : value.isValidChar) : (Char.ofNat value).toNat = value := by
  rw [Char.ofNat, dif_pos isValid]
  rfl

theorem ofNat_eq
    (byte : UInt8)
    (same : value = byte.toNat) :
    UInt8.ofNat value = byte := by
  rw [same, UInt8.ofNat_toNat]

/-- A byte that may follow another continues every value that has its bits. -/
theorem continuation_eq
    {byte : UInt8}
    (isNext : isContinuation byte = true)
    (same : value % 0x40 = payloadBits byte) :
    continuation value = byte := by
  rw [isContinuation, within_iff] at isNext
  rw [payloadBits] at same
  exact ofNat_eq _ (by omega)

/-- A byte carries six bits of payload. -/
theorem payloadBits_lt (byte : UInt8) : payloadBits byte < 0x40 :=
  Nat.mod_lt _ (by decide)

/-- A character that is read from two bytes is encoded by them. -/
theorem encodeChar_readTwo
    (isFirst : within 0xC2 0xDF first = true)
    (isRead : (readTwo first rest).char? = some char) :
    first :: rest = encodeChar char ++ rest.drop (readTwo first rest).following := by
  rw [within_iff] at isFirst
  unfold readTwo at isRead ⊢
  split at isRead
  next second rest =>
    split_ifs at isRead with isSecond
    cases isRead
    rw [if_pos isSecond]
    generalize isValue : first.toNat % 0x20 * 0x40 + payloadBits second = value
    have secondBits := payloadBits_lt second
    have isChar : (Char.ofNat value).toNat = value := toNat_ofNat (.inl (by omega))
    simp only [encodeChar, isChar]
    rw [if_neg (by omega), if_pos (by omega), ofNat_eq first (by omega),
      continuation_eq isSecond (by omega)]
    rfl
  next => cases isRead

/-- A second byte of three keeps the value clear of two bytes and of the surrogates. -/
theorem bounds_of_secondOfThree
    {second : UInt8}
    (isFirst : within 0xE0 0xEF first = true)
    (isSecond : secondOfThree first second = true) :
    isContinuation second = true ∧
      0x20 ≤ first.toNat % 0x10 * 0x40 + payloadBits second ∧
      ¬(0x360 ≤ first.toNat % 0x10 * 0x40 + payloadBits second ∧
        first.toNat % 0x10 * 0x40 + payloadBits second < 0x380) := by
  rw [within_iff] at isFirst
  unfold secondOfThree at isSecond
  rw [isContinuation]
  split_ifs at isSecond with isLowest isSurrogate <;>
    simp only [isContinuation, within_iff, payloadBits] at isSecond ⊢ <;> omega

/-- A character that is read from three bytes is encoded by them. -/
theorem encodeChar_readThree
    (isFirst : within 0xE0 0xEF first = true)
    (isRead : (readThree first rest).char? = some char) :
    first :: rest = encodeChar char ++ rest.drop (readThree first rest).following := by
  unfold readThree at isRead ⊢
  split at isRead
  next second rest =>
    split_ifs at isRead with isSecond
    split at isRead
    next third rest =>
      split_ifs at isRead with isThird
      cases isRead
      obtain ⟨secondContinues, isLeast, notSurrogate⟩ := bounds_of_secondOfThree isFirst isSecond
      rw [within_iff] at isFirst
      rw [if_pos isSecond]
      simp only [if_pos isThird]
      have secondBits := payloadBits_lt second
      have thirdBits := payloadBits_lt third
      generalize isValue : (first.toNat % 0x10 * 0x40 + payloadBits second) * 0x40 +
        payloadBits third = value
      have isValid : value.isValidChar := by
        rcases Nat.lt_or_ge value 0xD800 with isLow | isHigh
        · exact .inl isLow
        · exact .inr ⟨by omega, by omega⟩
      simp only [encodeChar, toNat_ofNat isValid]
      rw [if_neg (by omega), if_neg (by omega), if_pos (by omega),
        ofNat_eq first (by omega), continuation_eq secondContinues (by omega),
        continuation_eq isThird (by omega)]
      rfl
    next => cases isRead
  next => cases isRead

/-- A second byte of four keeps the value clear of three bytes and within the code points. -/
theorem bounds_of_secondOfFour
    {second : UInt8}
    (isFirst : within 0xF0 0xF4 first = true)
    (isSecond : secondOfFour first second = true) :
    isContinuation second = true ∧
      0x10 ≤ first.toNat % 0x08 * 0x40 + payloadBits second ∧
      first.toNat % 0x08 * 0x40 + payloadBits second < 0x110 := by
  rw [within_iff] at isFirst
  unfold secondOfFour at isSecond
  rw [isContinuation]
  split_ifs at isSecond with isLowest isHighest <;>
    simp only [isContinuation, within_iff, payloadBits] at isSecond ⊢ <;> omega

/-- A character that is read from four bytes is encoded by them. -/
theorem encodeChar_readFour
    (isFirst : within 0xF0 0xF4 first = true)
    (isRead : (readFour first rest).char? = some char) :
    first :: rest = encodeChar char ++ rest.drop (readFour first rest).following := by
  unfold readFour at isRead ⊢
  split at isRead
  next second rest =>
    split_ifs at isRead with isSecond
    split at isRead
    next third rest =>
      split_ifs at isRead with isThird
      split at isRead
      next fourth rest =>
        split_ifs at isRead with isFourth
        cases isRead
        obtain ⟨secondContinues, isLeast, isMost⟩ := bounds_of_secondOfFour isFirst isSecond
        rw [within_iff] at isFirst
        rw [if_pos isSecond]
        simp only [if_pos isThird, if_pos isFourth]
        have secondBits := payloadBits_lt second
        have thirdBits := payloadBits_lt third
        have fourthBits := payloadBits_lt fourth
        generalize isValue : ((first.toNat % 0x08 * 0x40 + payloadBits second) * 0x40 +
          payloadBits third) * 0x40 + payloadBits fourth = value
        have isValid : value.isValidChar := .inr ⟨by omega, by omega⟩
        simp only [encodeChar, toNat_ofNat isValid]
        rw [if_neg (by omega), if_neg (by omega), if_neg (by omega),
          ofNat_eq first (by omega), continuation_eq secondContinues (by omega),
          continuation_eq isThird (by omega), continuation_eq isFourth (by omega)]
        rfl
      next => cases isRead
    next => cases isRead
  next => cases isRead

/-- The bytes that are read as a code point are those that write it. -/
theorem encodeChar_read
    (isRead : (read first rest).char? = some char) :
    first :: rest = encodeChar char ++ rest.drop (read first rest).following := by
  unfold read at isRead ⊢
  split_ifs at isRead ⊢ with isOne isTwo isThree isFour
  · cases isRead
    have isChar : (Char.ofNat first.toNat).toNat = first.toNat := toNat_ofNat (.inl (by omega))
    simp only [encodeChar, isChar]
    rw [if_pos isOne, UInt8.ofNat_toNat]
    rfl
  · exact encodeChar_readTwo isTwo isRead
  · exact encodeChar_readThree isThree isRead
  · exact encodeChar_readFour isFour isRead

/-- Bytes that are read without replacing anything are those that write what was read. -/
theorem encodeChars_eq_iff
    (chars : List Char)
    (bytes : Bytes) :
    encodeChars chars = bytes ↔ readings bytes = chars.map some := by
  constructor
  · rintro rfl
    exact readings_encodeChars chars
  · intro areRead
    induction chars generalizing bytes with
    | nil =>
        cases bytes with
        | nil => rfl
        | cons first rest =>
            rw [readings_cons] at areRead
            cases areRead
    | cons char chars inductionHypothesis =>
        cases bytes with
        | nil =>
            rw [readings_nil] at areRead
            cases areRead
        | cons first rest =>
            rw [readings_cons, List.map_cons] at areRead
            obtain ⟨isRead, othersRead⟩ := List.cons.inj areRead
            rw [encodeChars, List.flatMap_cons, encodeChar_read isRead]
            exact congrArg _ (inductionHypothesis _ othersRead)

/-- Readings are those of characters if each of them is. -/
theorem mapM_id_eq_some_iff
    (readings : List (Option Char))
    (chars : List Char) :
    readings.mapM id = some chars ↔ readings = chars.map some := by
  induction readings generalizing chars with
  | nil => cases chars <;> simp
  | cons reading readings inductionHypothesis =>
      cases reading with
      | none => cases chars <;> simp [List.mapM_cons]
      | some char =>
          cases chars with
          | nil => simp [List.mapM_cons, Option.bind_eq_some_iff]
          | cons other chars =>
              simpa [List.mapM_cons, Option.bind_eq_some_iff, inductionHypothesis] using and_comm

/-- The strict reading of bytes yields a text exactly if the bytes are those of the text. -/
theorem decode?_eq_some_iff
    (bytes : Bytes)
    (text : String) :
    decode? bytes = some text ↔ encode text = bytes := by
  rw [decode?, encode, encodeChars_eq_iff, ← mapM_id_eq_some_iff, Option.map_eq_some_iff]
  constructor
  · rintro ⟨chars, areRead, rfl⟩
    rwa [String.toList_ofList]
  · intro areRead
    exact ⟨_, areRead, String.ofList_toList⟩

/-- Where the strict reading succeeds, the forgiving one replaces nothing. -/
theorem decodeLossy_of_decode?
    {bytes : Bytes}
    {text : String}
    (isText : decode? bytes = some text) :
    decodeLossy bytes = text := by
  rw [← (decode?_eq_some_iff bytes text).mp isText, decodeLossy_encode]

end Utf8
end ScriptHost
