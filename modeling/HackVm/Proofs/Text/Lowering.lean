import HackVm.Text.Blank
import HackVm.Text.Lowercase
import Mathlib.Data.List.Forall2

/-!
# Words in lowercase text

Lowercasing a text neither joins nor splits its words, and a word becomes a plain one, of ASCII
characters other than `k`, only if it is that word up to the case of ASCII letters. Both are read
off the runs of capitals: no capital and no small letter of a run is a blank, and outside ASCII only
the Kelvin sign has an ASCII letter for its small form. The small form of a capital sigma depends on
its neighbours, so `Lowering` relates a text to all forms it may take.
-/
namespace HackVm.Text

/-- The capitals of the runs are not blanks, and neither are their small letters. -/
theorem caseRuns_apart_blankRanges : ∀ run ∈ caseRuns, ∀ range ∈ blankRanges,
    (run.last < range.first ∨ range.last < run.first) ∧
      (run.target + (run.last - run.first) < range.first ∨ range.last < run.target) := by
  decide +kernel

/-- The small letters of the runs are characters. -/
theorem caseRuns_valid : ∀ run ∈ caseRuns,
    run.target + (run.last - run.first) < 0xD800 ∨
      0xDFFF < run.target ∧ run.target + (run.last - run.first) < 0x110000 := by
  decide +kernel

/-- Outside ASCII only the Kelvin sign has a small letter in ASCII. -/
theorem caseRuns_ascii : ∀ run ∈ caseRuns,
    run.last < 128 ∨ 128 ≤ run.target ∨ run = ⟨0x212A, 0x212A, 1, 0x006B⟩ := by
  decide +kernel

/-- The capitals of ASCII are the first run, and no other run has a capital in ASCII. -/
theorem caseRuns_eq_cons :
    ∃ others, caseRuns = ⟨0x0041, 0x005A, 1, 0x0061⟩ :: others ∧
      ∀ run ∈ others, 128 ≤ run.first :=
  ⟨caseRuns.tail, rfl, by decide +kernel⟩

/-- A code point is its own small letter, or has one by a run. -/
theorem lowerCode_cases (code : Nat) :
    (∀ run ∈ caseRuns, run.lower? code = none) ∧ lowerCode code = code ∨
      ∃ run ∈ caseRuns, run.first ≤ code ∧ code ≤ run.last ∧
        lowerCode code = run.target + (code - run.first) := by
  cases found : caseRuns.findSome? (·.lower? code) with
  | none => exact .inl ⟨List.findSome?_eq_none_iff.mp found, by rw [lowerCode, found]; rfl⟩
  | some small =>
    obtain ⟨run, listed, lowered⟩ := List.exists_of_findSome?_eq_some found
    rw [CaseRun.lower?] at lowered
    split at lowered
    · rename_i inside
      obtain rfl := Option.some.inj lowered
      exact .inr ⟨run, listed, inside.1, inside.2.1, by rw [lowerCode, found]; rfl⟩
    · contradiction

/-- A code point is blank when a range of blanks holds it. -/
def BlankCode (code : Nat) : Prop := ∃ range ∈ blankRanges, range.first ≤ code ∧ code ≤ range.last

/-- A character is blank exactly when its code point is. -/
theorem isBlank_iff {char : Char} : isBlank char = true ↔ BlankCode char.toNat :=
  CodeRange.anyContains_iff

/-- A blank is its own small letter. -/
theorem lowerCode_of_blank {code : Nat} (blank : BlankCode code) : lowerCode code = code := by
  obtain ⟨-, same⟩ | ⟨run, listed, least, most, -⟩ := lowerCode_cases code
  · exact same
  · obtain ⟨range, blanks, first, last⟩ := blank
    have apart := (caseRuns_apart_blankRanges run listed range blanks).1
    omega

/-- No other code point has a blank for its small letter. -/
theorem blank_of_lowerCode {code : Nat} (blank : BlankCode (lowerCode code)) : BlankCode code := by
  obtain ⟨-, same⟩ | ⟨run, listed, least, most, lowered⟩ := lowerCode_cases code
  · rwa [same] at blank
  · obtain ⟨range, blanks, first, last⟩ := blank
    have apart := (caseRuns_apart_blankRanges run listed range blanks).2
    omega

/-- The small letter of a character is a character. -/
theorem toNat_ofNat_lowerCode (char : Char) :
    (Char.ofNat (lowerCode char.toNat)).toNat = lowerCode char.toNat := by
  have valid : (lowerCode char.toNat).isValidChar := by
    obtain ⟨-, same⟩ | ⟨run, listed, least, most, lowered⟩ := lowerCode_cases char.toNat
    · rw [same]
      exact char.valid
    · have bounds := caseRuns_valid run listed
      rw [Nat.isValidChar]
      omega
  rw [Char.ofNat, dif_pos valid]
  rfl

/-- Outside ASCII only the Kelvin sign has a small letter in ASCII. -/
theorem lowerCode_of_ge {code : Nat} (great : 128 ≤ code) :
    128 ≤ lowerCode code ∨ lowerCode code = 'k'.toNat := by
  obtain ⟨-, same⟩ | ⟨run, listed, least, most, lowered⟩ := lowerCode_cases code
  · exact .inl (by omega)
  · rcases caseRuns_ascii run listed with low | high | rfl
    · omega
    · exact .inl (by omega)
    · have kelvin : code = 0x212A := by
        simp only at least most
        omega
      exact .inr (by rw [lowered, kelvin]; rfl)

/-- In ASCII the small letters are those of the twenty-six capitals. -/
theorem lowerCode_of_lt {code : Nat} (ascii : code < 128) :
    lowerCode code = if 65 ≤ code ∧ code ≤ 90 then code + 32 else code := by
  obtain ⟨others, runs, high⟩ := caseRuns_eq_cons
  obtain ⟨outside, same⟩ | ⟨run, listed, least, most, lowered⟩ := lowerCode_cases code
  · have first : CaseRun.lower? ⟨0x0041, 0x005A, 1, 0x0061⟩ code = none := by
      apply outside
      rw [runs]
      exact List.mem_cons_self
    have small : ¬(65 ≤ code ∧ code ≤ 90) := by
      intro capital
      rw [CaseRun.lower?, if_pos ⟨capital.1, capital.2, Nat.mod_one _⟩] at first
      contradiction
    rw [same, if_neg small]
  · rw [runs, List.mem_cons] at listed
    rcases listed with rfl | other
    · have capital : 65 ≤ code ∧ code ≤ 90 := ⟨least, most⟩
      rw [lowered, if_pos capital]
      simp only
      omega
    · have greater := high run other
      omega

/-- The small letters of ASCII are those that the library knows. -/
theorem ofNat_lowerCode {code : Nat} (ascii : code < 128) :
    Char.ofNat (lowerCode code) = (Char.ofNat code).toLower := by
  have known : ∀ code < 128, Char.ofNat (if 65 ≤ code ∧ code ≤ 90 then code + 32 else code) =
      (Char.ofNat code).toLower := by
    decide +kernel
  rw [lowerCode_of_lt ascii, known code ascii]

/-- The forms that a character may take in lowercase text. -/
def LowersTo (char : Char) (small : List Char) : Prop :=
  if char = 'Σ' then small = ['ς'] ∨ small = ['σ'] else small = lowerChar char

variable {char : Char} {small : List Char}

/-- A blank stays as it is. -/
theorem eq_of_lowersTo (lowers : LowersTo char small) (blank : isBlank char = true) :
    small = [char] := by
  have notSigma : char ≠ 'Σ' := by
    rintro rfl
    revert blank
    decide
  have notDotted : char ≠ 'İ' := by
    rintro rfl
    revert blank
    decide
  rw [LowersTo, if_neg notSigma, lowerChar, if_neg notDotted,
    lowerCode_of_blank (isBlank_iff.mp blank), Char.ofNat_toNat] at lowers
  exact lowers

/-- A character that is no blank becomes characters that are no blanks. -/
theorem solid_of_lowersTo (lowers : LowersTo char small) (solid : isBlank char = false) :
    small ≠ [] ∧ ∀ part ∈ small, isBlank part = false := by
  by_cases sigma : char = 'Σ'
  · rw [LowersTo, if_pos sigma] at lowers
    rcases lowers with rfl | rfl
    · refine ⟨List.cons_ne_nil _ _, fun part listed => ?_⟩
      rw [List.mem_singleton.mp listed]
      decide
    · refine ⟨List.cons_ne_nil _ _, fun part listed => ?_⟩
      rw [List.mem_singleton.mp listed]
      decide
  · rw [LowersTo, if_neg sigma, lowerChar] at lowers
    by_cases dotted : char = 'İ'
    · rw [if_pos dotted] at lowers
      subst lowers
      refine ⟨List.cons_ne_nil _ _, fun part listed => ?_⟩
      rcases List.mem_cons.mp listed with rfl | mark
      · decide
      · rw [List.mem_singleton.mp mark]
        decide
    · rw [if_neg dotted] at lowers
      subst lowers
      refine ⟨List.cons_ne_nil _ _, ?_⟩
      intro part listed
      rw [List.mem_singleton] at listed
      subst listed
      rw [← Bool.not_eq_true, isBlank_iff, toNat_ofNat_lowerCode]
      intro blank
      have also := isBlank_iff.mpr (blank_of_lowerCode blank)
      rw [solid] at also
      contradiction

/-- An ASCII character becomes its small letter. -/
theorem toLower_of_lowersTo (lowers : LowersTo char small) (ascii : char.toNat < 128) :
    small = [char.toLower] := by
  have notSigma : char ≠ 'Σ' := by
    rintro rfl
    revert ascii
    decide
  have notDotted : char ≠ 'İ' := by
    rintro rfl
    revert ascii
    decide
  rw [LowersTo, if_neg notSigma, lowerChar, if_neg notDotted, ofNat_lowerCode ascii,
    Char.ofNat_toNat] at lowers
  exact lowers

/-- A character is plain when it is in ASCII and not the small form of the Kelvin sign. -/
def Plain (char : Char) : Prop := char.toNat < 128 ∧ char ≠ 'k'

/-- Only ASCII characters become plain. -/
theorem ascii_of_lowersTo (lowers : LowersTo char small) (plain : ∀ part ∈ small, Plain part) :
    char.toNat < 128 := by
  by_cases sigma : char = 'Σ'
  · rw [LowersTo, if_pos sigma] at lowers
    rcases lowers with rfl | rfl
    · have ascii := (plain 'ς' (by decide)).1
      exact absurd ascii (by decide)
    · have ascii := (plain 'σ' (by decide)).1
      exact absurd ascii (by decide)
  · rw [LowersTo, if_neg sigma, lowerChar] at lowers
    by_cases dotted : char = 'İ'
    · rw [if_pos dotted] at lowers
      subst lowers
      have ascii := (plain '\u0307' (by decide)).1
      exact absurd ascii (by decide)
    · rw [if_neg dotted] at lowers
      subst lowers
      obtain ⟨ascii, other⟩ := plain _ List.mem_cons_self
      rw [toNat_ofNat_lowerCode] at ascii
      by_contra great
      rcases lowerCode_of_ge (Nat.le_of_not_lt great) with high | kelvin
      · omega
      · apply other
        rw [← Char.toNat_inj, toNat_ofNat_lowerCode, kelvin]

/-- A text and a form it may take when it is lowercased, character by character. -/
inductive Lowering : List Char → List Char → Prop where
  /-- Nothing stays nothing. -/
  | nil : Lowering [] []
  /-- Every character takes one of its forms. -/
  | cons {char : Char} {chars small smalls : List Char} (first : LowersTo char small)
    (rest : Lowering chars smalls) : Lowering (char :: chars) (small ++ smalls)

/-- The lowercase form of a text is one it may take. -/
theorem lowering_lowercaseFrom (afterCased : Bool) (chars : List Char) :
    Lowering chars (lowercaseFrom afterCased chars) := by
  induction chars generalizing afterCased with
  | nil => exact .nil
  | cons char rest ih =>
    rw [lowercaseFrom]
    refine .cons ?_ (ih _)
    by_cases sigma : char = 'Σ'
    · rw [LowersTo, if_pos sigma, if_pos sigma, smallSigma]
      split
      · exact .inl rfl
      · exact .inr rfl
    · rw [LowersTo, if_neg sigma, if_neg sigma]

/-- What stands before the first separator belongs to the first piece. -/
theorem splitOnP_append_solid {α : Type} {separates : α → Bool} {front : List α}
    (solid : ∀ part ∈ front, separates part = false) (back : List α) :
    (front ++ back).splitOnP separates = (back.splitOnP separates).modifyHead (front ++ ·) := by
  induction front with
  | nil =>
    obtain ⟨first, rest, pieces⟩ :=
      List.exists_cons_of_ne_nil (List.splitOnP_ne_nil separates back)
    rw [List.nil_append, pieces]
    rfl
  | cons part front ih =>
    have first := solid part List.mem_cons_self
    have later := ih fun other listed => solid other (List.mem_cons_of_mem part listed)
    rw [List.cons_append, List.splitOnP_cons_eq_if_modifyHead, later, first,
      List.modifyHead_modifyHead]
    rfl

/-- Related lists stay related when their first elements are changed in a related way. -/
theorem forall₂_modifyHead {α β : Type} {related : α → β → Prop} {f : α → α} {g : β → β}
    (keeps : ∀ left right, related left right → related (f left) (g right)) {lefts : List α}
    {rights : List β} (all : List.Forall₂ related lefts rights) :
    List.Forall₂ related (lefts.modifyHead f) (rights.modifyHead g) := by
  cases all with
  | nil => exact .nil
  | cons first rest => exact .cons (keeps _ _ first) rest

/-- Lowercasing keeps the pieces between blanks apart. -/
theorem splitOnP_lowering {chars small : List Char} (lowers : Lowering chars small) :
    List.Forall₂ Lowering (chars.splitOnP isBlank) (small.splitOnP isBlank) := by
  induction lowers with
  | nil => exact .cons .nil .nil
  | @cons char chars small smalls first rest ih =>
    rw [List.splitOnP_cons_eq_if_modifyHead]
    cases blank : isBlank char with
    | true =>
      obtain rfl := eq_of_lowersTo first blank
      rw [List.singleton_append, List.splitOnP_cons_eq_if_modifyHead, blank, if_pos rfl, if_pos rfl]
      exact .cons .nil ih
    | false =>
      obtain ⟨-, solid⟩ := solid_of_lowersTo first blank
      rw [splitOnP_append_solid solid, if_neg Bool.false_ne_true]
      exact forall₂_modifyHead (fun _ _ piece => .cons first piece) ih

/-- Lowercasing does not empty a text. -/
theorem isEmpty_lowering {chars small : List Char} (lowers : Lowering chars small) :
    chars.isEmpty = small.isEmpty := by
  cases lowers with
  | nil => rfl
  | @cons char chars small smalls first rest =>
    have nonempty : small ≠ [] := by
      cases blank : isBlank char with
      | true =>
        rw [eq_of_lowersTo first blank]
        exact List.cons_ne_nil _ _
      | false => exact (solid_of_lowersTo first blank).1
    simp [nonempty]

/-- Lowercasing neither joins nor splits words. -/
theorem words_lowering {chars small : List Char} (lowers : Lowering chars small) :
    List.Forall₂ Lowering (words chars) (words small) := by
  refine List.rel_filter ?_ (splitOnP_lowering lowers)
  intro piece smallPiece piecewise
  simp only [isEmpty_lowering piecewise]

variable {word smallWord name : List Char}

/-- A word of ASCII characters becomes its small letters. -/
theorem eq_map_of_lowering (lowers : Lowering word smallWord)
    (ascii : ∀ char ∈ word, char.toNat < 128) : smallWord = word.map Char.toLower := by
  induction lowers with
  | nil => rfl
  | cons first rest ih =>
    have here := toLower_of_lowersTo first (ascii _ List.mem_cons_self)
    have later := ih fun char listed => ascii char (List.mem_cons_of_mem _ listed)
    rw [here, later]
    rfl

/-- Only a word of ASCII characters becomes plain. -/
theorem ascii_of_lowering (lowers : Lowering word smallWord)
    (plain : ∀ char ∈ smallWord, Plain char) : ∀ char ∈ word, char.toNat < 128 := by
  induction lowers with
  | nil => exact fun _ listed => absurd listed List.not_mem_nil
  | cons first rest ih =>
    have here := ascii_of_lowersTo first fun part listed =>
      plain part (List.mem_append_left _ listed)
    have later := ih fun part listed => plain part (List.mem_append_right _ listed)
    intro char listed
    rcases List.mem_cons.mp listed with rfl | behind
    · exact here
    · exact later char behind

/-- A character outside ASCII has no other small letter in the sense of ASCII. -/
theorem toLower_of_ge {char : Char} (great : 128 ≤ char.toNat) : char.toLower = char := by
  have small : ¬(char.val ≥ 'A'.val ∧ char.val ≤ 'Z'.val) := by
    rintro ⟨-, most⟩
    have below : char.toNat ≤ 90 := UInt32.le_iff_toNat_le.mp most
    omega
  exact dif_neg small

/-- A character with an ASCII small letter is in ASCII. -/
theorem ascii_of_toLower {char : Char} (ascii : char.toLower.toNat < 128) :
    char.toNat < 128 := by
  by_contra great
  rw [toLower_of_ge (Nat.le_of_not_lt great)] at ascii
  exact great ascii

/-- A word becomes a plain name exactly when it is the name up to the case of ASCII letters. -/
theorem lowering_eq_iff (lowers : Lowering word smallWord) (plain : ∀ char ∈ name, Plain char) :
    smallWord = name ↔ word.map Char.toLower = name := by
  constructor
  · rintro rfl
    exact (eq_map_of_lowering lowers (ascii_of_lowering lowers plain)).symm
  · rintro rfl
    refine eq_map_of_lowering lowers ?_
    intro char listed
    have small := (plain char.toLower (List.mem_map_of_mem listed)).1
    exact ascii_of_toLower small

end HackVm.Text
