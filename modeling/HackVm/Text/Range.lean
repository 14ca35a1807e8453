/-!
# Ranges of code points

Properties of characters are given as lists of inclusive ranges of code points, the way the
character database lists them. A property holds of a character when one of its ranges holds
the character's code point.
-/
namespace HackVm.Text

/-- An inclusive range of code points. -/
structure CodeRange where
  /-- Least code point of the range. -/
  first : Nat
  /-- Greatest code point of the range. -/
  last : Nat
deriving DecidableEq, Repr

namespace CodeRange

/-- Whether the range holds a character. -/
def contains (range : CodeRange) (char : Char) : Bool :=
  range.first ≤ char.toNat && char.toNat ≤ range.last

/-- Whether one of the ranges holds a character. -/
def anyContains (ranges : List CodeRange) (char : Char) : Bool :=
  ranges.any (·.contains char)

/-- Some range holds a character exactly when its code point lies between the ends of one. -/
theorem anyContains_iff {ranges : List CodeRange} {char : Char} :
    anyContains ranges char = true ↔
      ∃ range ∈ ranges, range.first ≤ char.toNat ∧ char.toNat ≤ range.last := by
  simp [anyContains, contains]

end CodeRange

end HackVm.Text
