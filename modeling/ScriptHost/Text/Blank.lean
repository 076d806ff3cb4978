/-!
# Blank characters

The characters with the Unicode property White_Space.
-/

namespace ScriptHost
namespace Text

/-- The ranges of the Unicode property White_Space, both ends included. -/
def blankRanges : List (Nat × Nat) := [
  (0x0009, 0x000d),
  (0x0020, 0x0020),
  (0x0085, 0x0085),
  (0x00a0, 0x00a0),
  (0x1680, 0x1680),
  (0x2000, 0x200a),
  (0x2028, 0x2029),
  (0x202f, 0x202f),
  (0x205f, 0x205f),
  (0x3000, 0x3000)]

/-- Whether a character is white space. -/
def isBlank (char : Char) : Bool :=
  blankRanges.any fun (low, high) => low ≤ char.toNat && char.toNat ≤ high

/-- The double quote is not blank. -/
@[simp] theorem isBlank_quote : isBlank '"' = false := by decide

end Text
end ScriptHost
