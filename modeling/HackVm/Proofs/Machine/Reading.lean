import HackVm.Assembly.Basic
import HackVm.Proofs.Machine.Assembler
import Mathlib.Data.List.Basic

/-!
# Reading lines of assembly

What the assembler makes of the text of one line. `statement?_text` says that every line is read
as what it asks, whatever its symbol, comment or number. Symbols of different kinds have different
names: a number is digits only, a predefined symbol begins with a letter and has no full stop, a
label begins with a digit and ends in a letter, and a static variable has a full stop. The name of
a label gives back its number and branch, and that of a static variable its qualifier and index,
so no qualifier can make two symbols clash.
-/
namespace HackVm

namespace Text

/-- Printable characters of the first 128 code points are not blank. -/
theorem isBlank_of_printable {char : Char} (low : 0x20 < char.toNat) (high : char.toNat < 0x7F) :
    isBlank char = false := by
  rw [← Bool.not_eq_true, isBlank, CodeRange.anyContains_iff]
  simp only [blankRanges, List.mem_cons, List.not_mem_nil, or_false, exists_eq_or_imp,
    exists_eq_left]
  omega

/-- A decimal digit is not blank. -/
theorem isBlank_of_isDigit {char : Char} (digit : char.isDigit) : isBlank char = false := by
  simp only [Char.isDigit, Bool.and_eq_true, decide_eq_true_eq] at digit
  have low : 48 ≤ char.toNat := digit.1
  have high : char.toNat ≤ 57 := digit.2
  exact isBlank_of_printable (by omega) (by omega)

/-- Trimming drops nothing from a text between two characters that are not blank. -/
theorem trim_between {first last : Char} (middle : List Char) (solid : isBlank first = false)
    (ending : isBlank last = false) :
    trim (first :: (middle ++ [last])) = first :: (middle ++ [last]) := by
  simp [trim, solid, ending]

/-- Trimming keeps two characters that are not blank at the beginning. -/
theorem trim_pair {first second : Char} (rest : List Char) (solid : isBlank first = false)
    (next : isBlank second = false) :
    ∃ kept, trim (first :: second :: rest) = first :: second :: kept := by
  simp only [trim, List.dropWhile_cons, solid, Bool.false_eq_true, ↓reduceIte, List.reverse_cons,
    List.append_assoc, List.dropWhile_append]
  split
  · exact ⟨[], by simp [next]⟩
  · exact ⟨(rest.reverse.dropWhile isBlank).reverse, by simp⟩

end Text

namespace Assembly

/-- The stores of a target. -/
@[simp]
def Target.stores : Target → Stores
  | a => ⟨true, false, false⟩
  | d => ⟨false, true, false⟩
  | m => ⟨false, false, true⟩
  | am => ⟨true, false, true⟩

/-- The computation of a value. -/
@[simp]
def Value.computation : Value → Computation
  | zero => .same .zero
  | minusOne => .minusOne
  | a => .same .a
  | d => .same .d
  | m => .same .m
  | notM => .complement .m
  | negM => .negative .m
  | mPlusOne => .sum .m .one
  | mMinusOne => .difference .m .one
  | aMinusOne => .difference .a .one
  | dPlusA => .sum .d .a
  | dPlusM => .sum .d .m
  | mMinusD => .difference .m .d
  | dAndM => .conjunction .d .m
  | dOrM => .disjunction .d .m

/-- The jump of a condition. -/
def Condition.jump : Condition → Jump
  | zero => .zero
  | positive => .positive
  | negative => .negative
  | always => .always

/-- The characters of a symbol. -/
def Symbol.name (symbol : Symbol) : List Char := symbol.text.toList

/-- What a line asks of the assembler. -/
def Line.statement : Line → Assembler.Statement
  | comment _ | blank => .nothing
  | load symbol => .load symbol.name
  | assign target value => .compute target.stores value.computation .never
  | jump value condition => .compute ⟨false, false, false⟩ value.computation condition.jump
  | label serial branch => .label (Symbol.label serial branch).name

/-- The digits of a number end in a digit. -/
theorem toDigits_concat (value : Nat) :
    ∃ front last, Nat.toDigits 10 value = front ++ [last] ∧ last.isDigit := by
  have nonempty : Nat.toDigits 10 value ≠ [] := Nat.toDigits_ne_nil
  refine ⟨_, _, (List.dropLast_append_getLast nonempty).symm, ?_⟩
  exact Nat.isDigit_of_mem_toDigits (by decide) (by decide) (List.getLast_mem nonempty)

/-- The name of a symbol ends in a character that is not blank. -/
theorem Symbol.name_concat (symbol : Symbol) :
    ∃ front last, symbol.name = front ++ [last] ∧ Text.isBlank last = false := by
  have digits (before : List Char) (value : Nat) : ∃ front last,
      before ++ Nat.toDigits 10 value = front ++ [last] ∧ Text.isBlank last = false := by
    obtain ⟨front, last, same, digit⟩ := toDigits_concat value
    exact ⟨before ++ front, last, by rw [same, List.append_assoc], Text.isBlank_of_isDigit digit⟩
  cases symbol with
  | number value => simpa [name, text] using digits [] value
  | pointer cell =>
    cases cell with
    | stack => exact ⟨['S'], 'P', rfl, by decide⟩
    | locals => exact ⟨['L', 'C'], 'L', rfl, by decide⟩
    | arguments => exact ⟨['A', 'R'], 'G', rfl, by decide⟩
    | this => exact ⟨['T', 'H', 'I'], 'S', rfl, by decide⟩
    | that => exact ⟨['T', 'H', 'A'], 'T', rfl, by decide⟩
  | register cell => simpa [name, text] using digits ['R'] cell
  | label serial branch =>
    cases branch with
    | holds => exact ⟨Nat.toDigits 10 serial, 'T', by simp [name, text, Branch.letter], by decide⟩
    | fails => exact ⟨Nat.toDigits 10 serial, 'F', by simp [name, text, Branch.letter], by decide⟩
  | static qualifier index =>
    simpa [name, text] using digits (qualifier.toList ++ ['.']) index

end Assembly

namespace Assembler

open Assembly

/-- The assembler reads the text of a line as what the line asks. -/
theorem statement?_text (line : Line) : statement? line.text = some line.statement := by
  cases line with
  | comment remark =>
    obtain ⟨kept, trimmed⟩ := Text.trim_pair (' ' :: remark.toList)
      (show Text.isBlank '/' = false by decide) (show Text.isBlank '/' = false by decide)
    have chars : (Line.comment remark).text.toList = '/' :: '/' :: ' ' :: remark.toList := by
      simp [Line.text]
    rw [statement?, chars, trimmed]
    rfl
  | blank => rfl
  | load symbol =>
    obtain ⟨front, last, named, solid⟩ := symbol.name_concat
    have chars : (Line.load symbol).text.toList = '@' :: (front ++ [last]) := by
      rw [← named]
      simp [Line.text, Symbol.name]
    rw [statement?, chars, Text.trim_between front (by decide) solid, Line.statement, named]
    rfl
  | assign target value =>
    have chars : (Line.assign target value).text.toList =
        target.text.toList ++ '=' :: value.text.toList := by
      simp [Line.text]
    rw [statement?, chars]
    cases target <;> cases value <;> rfl
  | jump value condition =>
    have chars : (Line.jump value condition).text.toList =
        value.text.toList ++ ';' :: condition.text.toList := by
      simp [Line.text]
    rw [statement?, chars]
    cases value <;> cases condition <;> rfl
  | label serial branch =>
    have chars : (Line.label serial branch).text.toList =
        '(' :: ((Symbol.label serial branch).name ++ [')']) := by
      simp [Line.text, Symbol.name]
    rw [statement?, chars, Text.trim_between _ (by decide) (by decide)]
    simp [Line.statement]

/-- A decimal number is read as its value. -/
theorem number?_toDigits (value : Nat) : number? (Nat.toDigits 10 value) = some value := by
  have digits : (Nat.toDigits 10 value).all Char.isDigit := by
    rw [List.all_eq_true]
    intro char written
    exact Nat.isDigit_of_mem_toDigits (by decide) (by decide) written
  simp [number?, Nat.toDigits_ne_nil, digits, Nat.ofDigitChars_ten_toDigits]

/-- A name with a character that is no digit is no number. -/
theorem number?_eq_none {name : List Char} {char : Char} (written : char ∈ name)
    (letter : char.isDigit = false) : number? name = none := by
  have mixed : ¬name.all Char.isDigit := by
    rw [List.all_eq_true]
    intro digits
    rw [digits char written] at letter
    contradiction
  simp [number?, mixed]

/-- A name that begins with a digit is not predefined. -/
theorem lookup_predefined_of_digit {first : Char} {rest : List Char} (digit : first.isDigit) :
    predefined.lookup (first :: rest) = none := by
  have letters : ∀ entry ∈ predefined, entry.1.head?.all (!·.isDigit) := by decide
  rw [List.lookup_eq_none_iff]
  intro entry listed
  rw [bne_iff_ne]
  intro same
  have letter := letters entry listed
  rw [← same] at letter
  simp [digit] at letter

/-- A name with a full stop is not predefined. -/
theorem lookup_predefined_of_stop {name : List Char} (stop : '.' ∈ name) :
    predefined.lookup name = none := by
  have plain : ∀ entry ∈ predefined, '.' ∉ entry.1 := by decide
  rw [List.lookup_eq_none_iff]
  intro entry listed
  rw [bne_iff_ne]
  intro same
  exact plain entry listed (same ▸ stop)

end Assembler

namespace Assembly

/-- The letter that marks a branch in a label. -/
def Branch.mark : Branch → Char
  | holds => 'T'
  | fails => 'F'

/-- The name of a label is its number and a letter. -/
theorem Symbol.name_label (serial : Nat) (branch : Branch) :
    (Symbol.label serial branch).name = Nat.toDigits 10 serial ++ [branch.mark] := by
  cases branch <;> simp [name, text, Branch.letter, Branch.mark]

/-- The name of a static variable is its qualifier, a full stop and its index. -/
theorem Symbol.name_static (qualifier : String) (index : Nat) :
    (Symbol.static qualifier index).name = qualifier.toList ++ '.' :: Nat.toDigits 10 index := by
  simp [name, text]

/-- Different numbers have different digits. -/
theorem toDigits_injective {left right : Nat}
    (same : Nat.toDigits 10 left = Nat.toDigits 10 right) : left = right := by
  have values := congrArg (fun digits => Nat.ofDigitChars 10 digits 0) same
  simpa only [Nat.ofDigitChars_ten_toDigits] using values

/-- Digits hold no full stop. -/
theorem stop_notMem_toDigits (value : Nat) : '.' ∉ Nat.toDigits 10 value := by
  intro written
  have digit := Nat.isDigit_of_mem_toDigits (by decide) (by decide) written
  exact absurd digit (by decide)

/-- Different labels have different names. -/
theorem Symbol.name_label_injective {serial serial' : Nat} {branch branch' : Branch}
    (same : (Symbol.label serial branch).name = (Symbol.label serial' branch').name) :
    serial = serial' ∧ branch = branch' := by
  rw [name_label, name_label] at same
  obtain ⟨digits, marks⟩ := List.append_inj' same rfl
  refine ⟨toDigits_injective digits, ?_⟩
  cases branch <;> cases branch' <;> simp_all [Branch.mark]

/-- Different static variables have different names, whatever their qualifiers hold: the index
is what stands behind the last full stop. -/
theorem Symbol.name_static_injective {qualifier qualifier' : String} {index index' : Nat}
    (same : (Symbol.static qualifier index).name = (Symbol.static qualifier' index').name) :
    qualifier = qualifier' ∧ index = index' := by
  have behind (before : List Char) (value : Nat) :
      (before ++ '.' :: Nat.toDigits 10 value).reverse.takeWhile (· != '.') =
        (Nat.toDigits 10 value).reverse := by
    have plain : ∀ char ∈ (Nat.toDigits 10 value).reverse, (char != '.') = true := by
      intro char written
      rw [bne_iff_ne]
      rintro rfl
      exact stop_notMem_toDigits value (List.mem_reverse.mp written)
    simp [List.takeWhile_append_of_pos plain]
  rw [name_static, name_static] at same
  have digits := congrArg (fun name => name.reverse.takeWhile (· != '.')) same
  simp only [behind, List.reverse_inj] at digits
  rw [digits] at same
  exact ⟨String.toList_inj.mp (List.append_cancel_right same), toDigits_injective digits⟩

end Assembly

end HackVm
