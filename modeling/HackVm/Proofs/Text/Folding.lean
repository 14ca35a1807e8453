import HackVm.Proofs.Text.Lowering

/-!
# Lowercasing word by word

A word looks the same in lowercase wherever it stands. Blanks are neither cased nor case-ignorable,
so the neighbours that decide the form of a capital sigma are found in its own word:
`words_lowercase` says that the words of a text in lowercase are its words in lowercase. Nor does
the case of the ASCII letters in a word matter, to its own letters or to a sigma among them:
`lowercase_map_toLower`.
-/
namespace HackVm.Text

/-- No blank is cased or case-ignorable. -/
theorem blankRanges_apart_cased : ∀ blanks ∈ blankRanges,
    (∀ range ∈ casedRanges, range.last < blanks.first ∨ blanks.last < range.first) ∧
      ∀ range ∈ caseIgnorableRanges, range.last < blanks.first ∨ blanks.last < range.first := by
  decide +kernel

/-- Ranges that are apart from a range hold no character of it. -/
theorem anyContains_of_apart {ranges : List CodeRange} {within : CodeRange} {char : Char}
    (low : within.first ≤ char.toNat) (high : char.toNat ≤ within.last)
    (apart : ∀ range ∈ ranges, range.last < within.first ∨ within.last < range.first) :
    CodeRange.anyContains ranges char = false := by
  rw [← Bool.not_eq_true, CodeRange.anyContains_iff]
  rintro ⟨range, listed, first, last⟩
  have beside := apart range listed
  omega

/-- A blank is neither cased nor case-ignorable. -/
theorem uncased_of_isBlank {char : Char} (blank : isBlank char = true) :
    isCased char = false ∧ isCaseIgnorable char = false := by
  obtain ⟨blanks, listed, low, high⟩ := isBlank_iff.mp blank
  obtain ⟨cased, ignorable⟩ := blankRanges_apart_cased blanks listed
  exact ⟨anyContains_of_apart low high cased, anyContains_of_apart low high ignorable⟩

/-- A character that is no capital sigma has one lowercase form. -/
theorem lowersTo_lowerChar {char : Char} (notSigma : char ≠ 'Σ') :
    LowersTo char (lowerChar char) := by
  rw [LowersTo, if_neg notSigma]

/-- The lowercase form of an ASCII character is its small letter. -/
theorem lowerChar_of_ascii {char : Char} (ascii : char.toNat < 128) :
    lowerChar char = [char.toLower] := by
  have notSigma : char ≠ 'Σ' := by
    rintro rfl
    revert ascii
    decide
  exact toLower_of_lowersTo (lowersTo_lowerChar notSigma) ascii

variable {blank : Char}

/-- What stands behind a blank makes no difference to whether a text starts with a cased
character. -/
theorem startsCased_append_blank (separates : isBlank blank = true) (front back : List Char) :
    startsCased (front ++ blank :: back) = startsCased front := by
  obtain ⟨uncased, notIgnored⟩ := uncased_of_isBlank separates
  rw [startsCased, startsCased, List.dropWhile_append]
  cases rest : front.dropWhile isCaseIgnorable with
  | nil => simp [notIgnored, uncased]
  | cons first others => simp

/-- A blank stays where it is in lowercase, and the texts on its two sides do not see each other. -/
theorem lowercaseFrom_append_blank (separates : isBlank blank = true) (afterCased : Bool)
    (front back : List Char) :
    lowercaseFrom afterCased (front ++ blank :: back) =
      lowercaseFrom afterCased front ++ blank :: lowercase back := by
  induction front generalizing afterCased with
  | nil =>
    obtain ⟨uncased, notIgnored⟩ := uncased_of_isBlank separates
    have notSigma : blank ≠ 'Σ' := by
      rintro rfl
      revert separates
      decide
    have small : lowerChar blank = [blank] :=
      eq_of_lowersTo (lowersTo_lowerChar notSigma) separates
    simp only [List.nil_append, lowercaseFrom, if_neg notSigma, small, notIgnored, uncased]
    rfl
  | cons char rest ih =>
    rw [List.cons_append, lowercaseFrom, lowercaseFrom, ih, smallSigma, smallSigma,
      startsCased_append_blank separates, List.append_assoc]

/-- A text without blanks has none in lowercase. -/
theorem solid_lowering {chars small : List Char} (lowers : Lowering chars small)
    (solid : ∀ char ∈ chars, isBlank char = false) : ∀ part ∈ small, isBlank part = false := by
  induction lowers with
  | nil => exact solid
  | @cons char chars small smalls first rest ih =>
    have here := (solid_of_lowersTo first (solid char List.mem_cons_self)).2
    have later := ih fun other listed => solid other (List.mem_cons_of_mem char listed)
    intro part listed
    rcases List.mem_append.mp listed with inFirst | inRest
    · exact here part inFirst
    · exact later part inRest

/-- A change of texts that keeps blanks apart from other characters, and does not see across a
blank, changes a text word by word. -/
theorem words_wordwise {change : List Char → List Char} (nothing : change [] = [])
    (solid : ∀ chars, chars ≠ [] → (∀ char ∈ chars, isBlank char = false) →
      change chars ≠ [] ∧ ∀ char ∈ change chars, isBlank char = false)
    (parted : ∀ front blank back, isBlank blank = true → ∃ other, isBlank other = true ∧
      change (front ++ blank :: back) = change front ++ other :: change back)
    (chars : List Char) : words (change chars) = (words chars).map change := by
  by_cases word : ∀ char ∈ chars, isBlank char = false
  · by_cases empty : chars = []
    · rw [empty, nothing, words_nil, List.map_nil]
    · obtain ⟨nonempty, changed⟩ := solid chars empty word
      rw [words_eq_singleton empty word, words_eq_singleton nonempty changed, List.map_singleton]
  · -- A blank parts the text into two that are shorter.
    push Not at word
    obtain ⟨blank, listed, notSolid⟩ := word
    have separates : isBlank blank = true := by simpa using notSolid
    obtain ⟨front, back, rfl⟩ := List.append_of_mem listed
    obtain ⟨other, also, parts⟩ := parted front blank back separates
    have before := words_wordwise nothing solid parted front
    have behind := words_wordwise nothing solid parted back
    rw [parts, words_append_blank _ _ also, words_append_blank _ _ separates, before, behind,
      List.map_append]
termination_by chars.length

/-- The words of a text in lowercase are its words in lowercase. -/
theorem words_lowercase (chars : List Char) :
    words (lowercase chars) = (words chars).map lowercase := by
  refine words_wordwise rfl ?_ ?_ chars
  · intro word nonempty solid
    have lowers : Lowering word (lowercase word) := lowering_lowercaseFrom false word
    refine ⟨?_, solid_lowering lowers solid⟩
    intro nothing
    have same := isEmpty_lowering lowers
    simp [nothing, nonempty] at same
  · intro front blank back separates
    exact ⟨blank, separates, lowercaseFrom_append_blank separates false front back⟩

/-- The capitals of ASCII. -/
def asciiCapitals : CodeRange := ⟨0x41, 0x5A⟩

/-- The small letters of ASCII. -/
def asciiSmalls : CodeRange := ⟨0x61, 0x7A⟩

/-- The letters of ASCII are cased. -/
theorem asciiLetters_cased : asciiCapitals ∈ casedRanges ∧ asciiSmalls ∈ casedRanges := by
  decide +kernel

/-- The letters of ASCII are not case-ignorable. -/
theorem asciiLetters_apart_caseIgnorable : ∀ range ∈ caseIgnorableRanges,
    (range.last < asciiCapitals.first ∨ asciiCapitals.last < range.first) ∧
      (range.last < asciiSmalls.first ∨ asciiSmalls.last < range.first) := by
  decide +kernel

/-- The letters of ASCII are no blanks. -/
theorem asciiLetters_apart_blank : ∀ range ∈ blankRanges,
    (range.last < asciiCapitals.first ∨ asciiCapitals.last < range.first) ∧
      (range.last < asciiSmalls.first ∨ asciiSmalls.last < range.first) := by
  decide +kernel

/-- A character is a capital of ASCII. -/
structure IsCapital (char : Char) : Prop where
  /-- It is among the capitals. -/
  low : asciiCapitals.first ≤ char.toNat
  /-- It is among the capitals. -/
  high : char.toNat ≤ asciiCapitals.last
  /-- Its small letter is among the small letters. -/
  smallLow : asciiSmalls.first ≤ char.toLower.toNat
  /-- Its small letter is among the small letters. -/
  smallHigh : char.toLower.toNat ≤ asciiSmalls.last

/-- Only a capital of ASCII has another small letter in the sense of ASCII. -/
theorem toLower_cases (char : Char) : char.toLower = char ∨ IsCapital char := by
  have known : ∀ code < 128, (Char.ofNat code).toLower = Char.ofNat code ∨
      65 ≤ (Char.ofNat code).toNat ∧ (Char.ofNat code).toNat ≤ 90 ∧
        97 ≤ (Char.ofNat code).toLower.toNat ∧ (Char.ofNat code).toLower.toNat ≤ 122 := by
    decide +kernel
  by_cases inside : char.toNat < 128
  · have here := known char.toNat inside
    rw [Char.ofNat_toNat] at here
    rcases here with same | ⟨low, high, smallLow, smallHigh⟩
    · exact .inl same
    · exact .inr ⟨low, high, smallLow, smallHigh⟩
  · exact .inl (toLower_of_ge (Nat.le_of_not_lt inside))

/-- The small letter of a letter is cased like it. -/
@[simp]
theorem isCased_toLower (char : Char) : isCased char.toLower = isCased char := by
  rcases toLower_cases char with same | capital
  · rw [same]
  · have small : isCased char.toLower = true := CodeRange.anyContains_iff.mpr
      ⟨asciiSmalls, asciiLetters_cased.2, capital.smallLow, capital.smallHigh⟩
    have great : isCased char = true := CodeRange.anyContains_iff.mpr
      ⟨asciiCapitals, asciiLetters_cased.1, capital.low, capital.high⟩
    rw [small, great]

/-- The small letter of a letter is case-ignorable like it. -/
@[simp]
theorem isCaseIgnorable_toLower (char : Char) :
    isCaseIgnorable char.toLower = isCaseIgnorable char := by
  rcases toLower_cases char with same | capital
  · rw [same]
  · have small : isCaseIgnorable char.toLower = false :=
      anyContains_of_apart capital.smallLow capital.smallHigh fun range listed =>
        (asciiLetters_apart_caseIgnorable range listed).2
    have great : isCaseIgnorable char = false :=
      anyContains_of_apart capital.low capital.high fun range listed =>
        (asciiLetters_apart_caseIgnorable range listed).1
    rw [small, great]

/-- The small letter of a letter is no blank, and a blank stays one. -/
@[simp]
theorem isBlank_toLower (char : Char) : isBlank char.toLower = isBlank char := by
  rcases toLower_cases char with same | capital
  · rw [same]
  · have small : isBlank char.toLower = false :=
      anyContains_of_apart capital.smallLow capital.smallHigh fun range listed =>
        (asciiLetters_apart_blank range listed).2
    have great : isBlank char = false :=
      anyContains_of_apart capital.low capital.high fun range listed =>
        (asciiLetters_apart_blank range listed).1
    rw [small, great]

/-- A character before or behind all letters of ASCII is the small letter of no other. -/
theorem toLower_eq_iff {char other : Char}
    (outside : other.toNat < asciiCapitals.first ∨ asciiSmalls.last < other.toNat) :
    char.toLower = other ↔ char = other := by
  rcases toLower_cases char with same | capital
  · rw [same]
  · have low : asciiCapitals.first ≤ asciiSmalls.first := by decide
    have high : asciiCapitals.last ≤ asciiSmalls.last := by decide
    obtain ⟨least, most, smallLeast, smallMost⟩ := capital
    constructor
    · rintro rfl
      omega
    · rintro rfl
      omega

/-- The small letter of a letter has the same lowercase form. -/
@[simp]
theorem lowerChar_toLower (char : Char) : lowerChar char.toLower = lowerChar char := by
  rcases toLower_cases char with same | capital
  · rw [same]
  · have again : char.toLower.toLower = char.toLower := by
      rcases toLower_cases char.toLower with same | other
      · exact same
      · have great : asciiCapitals.last < asciiSmalls.first := by decide
        have least := capital.smallLow
        have most := other.high
        omega
    have smallAscii : char.toLower.toNat < 128 := Nat.lt_of_le_of_lt capital.smallHigh (by decide)
    have ascii : char.toNat < 128 := Nat.lt_of_le_of_lt capital.high (by decide)
    rw [lowerChar_of_ascii smallAscii, lowerChar_of_ascii ascii, again]

/-- The case of ASCII letters makes no difference to whether a text starts with a cased
character. -/
theorem startsCased_map_toLower (chars : List Char) :
    startsCased (chars.map Char.toLower) = startsCased chars := by
  have ignored : isCaseIgnorable ∘ Char.toLower = isCaseIgnorable :=
    funext isCaseIgnorable_toLower
  rw [startsCased, startsCased, List.dropWhile_map, ignored, List.head?_map, Option.any_map]
  simp only [isCased_toLower]

/-- The case of ASCII letters makes no difference to a text that is lowercased behind another. -/
theorem lowercaseFrom_map_toLower (afterCased : Bool) (chars : List Char) :
    lowercaseFrom afterCased (chars.map Char.toLower) = lowercaseFrom afterCased chars := by
  induction chars generalizing afterCased with
  | nil => rfl
  | cons char rest ih =>
    have sigma : char.toLower = 'Σ' ↔ char = 'Σ' := toLower_eq_iff (by decide)
    simp only [List.map_cons, lowercaseFrom, ih, smallSigma, startsCased_map_toLower, sigma,
      lowerChar_toLower, isCased_toLower, isCaseIgnorable_toLower]

/-- The case of ASCII letters makes no difference to a text in lowercase. -/
theorem lowercase_map_toLower (chars : List Char) :
    lowercase (chars.map Char.toLower) = lowercase chars :=
  lowercaseFrom_map_toLower false chars

/-- The words of a text with small ASCII letters are its words with small ASCII letters. -/
theorem words_map_toLower (chars : List Char) :
    words (chars.map Char.toLower) = (words chars).map (List.map Char.toLower) := by
  refine words_wordwise rfl ?_ ?_ chars
  · intro word nonempty solid
    refine ⟨by simpa using nonempty, ?_⟩
    intro part listed
    obtain ⟨char, inside, rfl⟩ := List.mem_map.mp listed
    rw [isBlank_toLower]
    exact solid char inside
  · intro front blank back separates
    exact ⟨blank.toLower, by rw [isBlank_toLower, separates], by simp⟩

end HackVm.Text
