import HackVm.Text.Range

/-!
# Blank characters and words

A character is blank when it has the Unicode property `White_Space`. Blanks separate the words
of a line and are trimmed from its ends. Line feeds and carriage returns are blanks like any
other here: where a line ends is decided before its text is looked at.
-/
namespace HackVm.Text

/-- The code points with the property `White_Space`. -/
def blankRanges : List CodeRange :=
  [⟨0x0009, 0x000D⟩, ⟨0x0020, 0x0020⟩, ⟨0x0085, 0x0085⟩, ⟨0x00A0, 0x00A0⟩, ⟨0x1680, 0x1680⟩,
   ⟨0x2000, 0x200A⟩, ⟨0x2028, 0x2029⟩, ⟨0x202F, 0x202F⟩, ⟨0x205F, 0x205F⟩, ⟨0x3000, 0x3000⟩]

/-- Whether a character separates words. -/
def isBlank (char : Char) : Bool := CodeRange.anyContains blankRanges char

/-- The maximal runs of characters that are not blank, in order. -/
def words (chars : List Char) : List (List Char) :=
  (chars.splitOnP isBlank).filter (!·.isEmpty)

/-- The characters without the blanks at either end. -/
def trim (chars : List Char) : List Char :=
  ((chars.dropWhile isBlank).reverse.dropWhile isBlank).reverse

/-- Nothing has no words. -/
@[simp]
theorem words_nil : words [] = [] := by
  simp [words]

/-- A word is a word of its own. -/
theorem words_eq_singleton {chars : List Char} (nonempty : chars ≠ [])
    (solid : ∀ char ∈ chars, isBlank char = false) : words chars = [chars] := by
  simp [words, List.splitOnP_eq_singleton solid, nonempty]

/-- A blank ends the word before it. -/
theorem words_append_blank (front back : List Char) {blank : Char} (separates : isBlank blank) :
    words (front ++ blank :: back) = words front ++ words back := by
  simp [words, List.splitOnP_append_cons front back separates]

end HackVm.Text
