import HackVm.Command.Basic

/-!
# Single words of commands

The words of a command are read by small readers, each of which takes a beginning off a word and
leaves the rest. A choice of readers is settled by the first that takes anything, even if another
would take more; `whole` asks that nothing is left in the end. So a table of words reads each of its
words only if none of them begins with an earlier one: `whole_table_eq_some_iff`.
-/
namespace HackVm

/-- A reader takes a beginning off a word, or refuses. -/
abbrev WordReader (α : Type) := List Char → Option (α × List Char)

namespace WordReader

variable {α β : Type}

/-- Take a given text. -/
def tag (text : String) : WordReader String := fun word =>
  if text.toList.isPrefixOf word then some (text, word.drop text.toList.length) else none

/-- Answer with a given value in place of what was taken. -/
def value (result : α) (reader : WordReader β) : WordReader α := fun word =>
  (reader word).map fun (_, rest) => (result, rest)

/-- The first reader that takes anything. -/
def alternatives : List (WordReader α) → WordReader α
  | [] => fun _ => none
  | reader :: others => fun word => (reader word).or (alternatives others word)

/-- Take all decimal digits, of which there must be one. -/
def digits : WordReader (List Char) := fun word =>
  if word.takeWhile Char.isDigit = [] then none
  else some (word.takeWhile Char.isDigit, word.dropWhile Char.isDigit)

/-- Turn what was taken into something else, or refuse it. -/
def convert (reader : WordReader α) (turn : α → Option β) : WordReader β := fun word =>
  (reader word).bind fun (taken, rest) => (turn taken).map (·, rest)

/-- Refuse what does not pass a check. -/
def verify (reader : WordReader α) (check : α → Bool) : WordReader α := fun word =>
  (reader word).filter fun (taken, _) => check taken

/-- Read a word of which nothing may be left. -/
def whole (reader : WordReader α) (word : String) : Option α :=
  match reader word.toList with
  | some (result, []) => some result
  | some (_, _ :: _) | none => none

/-- A whole word is converted when it is read as a whole. -/
theorem whole_convert (reader : WordReader α) (turn : α → Option β) (word : String) :
    whole (convert reader turn) word = (whole reader word).bind turn := by
  rw [whole, whole, convert]
  cases reader word.toList with
  | none => rfl
  | some found =>
    obtain ⟨taken, rest⟩ := found
    cases turned : turn taken <;> cases rest <;> simp [turned]

/-- A whole word is checked when it is read as a whole. -/
theorem whole_verify (reader : WordReader α) (check : α → Bool) (word : String) :
    whole (verify reader check) word = (whole reader word).filter check := by
  rw [whole, whole, verify]
  cases reader word.toList with
  | none => rfl
  | some found =>
    obtain ⟨taken, rest⟩ := found
    cases checked : check taken <;> cases rest <;> simp [Option.filter, checked]

/-- A choice between the words of a table. -/
def table (entries : List (String × α)) : WordReader α :=
  alternatives (entries.map fun (text, result) => value result (tag text))

/-- A table in which no word begins with an earlier one reads exactly its words. -/
theorem whole_table_eq_some_iff {entries : List (String × α)}
    (apart : entries.Pairwise fun early late => ¬early.1.toList <+: late.1.toList)
    {word : String} {result : α} :
    whole (table entries) word = some result ↔ (word, result) ∈ entries := by
  induction entries with
  | nil => simp [whole, table, alternatives]
  | cons entry others ih =>
    obtain ⟨text, answer⟩ := entry
    rw [List.pairwise_cons] at apart
    by_cases begins : text.toList <+: word.toList
    · -- The choice is settled here, and no later word of the table could be meant.
      have later : (word, result) ∉ others := fun listed => apart.1 _ listed begins
      obtain ⟨rest, parts⟩ := begins
      have taken : table ((text, answer) :: others) word.toList = some (answer, rest) := by
        simp [table, alternatives, value, tag, ← parts]
      have same : word = text ↔ rest = [] := by
        rw [← String.toList_inj, ← parts, List.append_right_eq_self]
      cases rest with
      | nil =>
        obtain rfl : word = text := same.mpr rfl
        simp [whole, taken, later, eq_comm]
      | cons first more =>
        have other : word ≠ text := fun here => List.cons_ne_nil first more (same.mp here)
        simp [whole, taken, other, later]
    · have other : word ≠ text := by
        rintro rfl
        exact begins List.prefix_rfl
      have passed : table ((text, answer) :: others) word.toList = table others word.toList := by
        have refused : ¬text.toList.isPrefixOf word.toList = true := by
          rwa [List.isPrefixOf_iff_prefix]
        simp [table, alternatives, value, tag, refused]
      rw [whole, passed, ← whole, ih apart.2]
      simp [other]

end WordReader

namespace Operator

/-- The words for operators, in the order in which they are tried. -/
def table : List (String × Operator) :=
  [("add", add), ("sub", sub), ("neg", neg), ("eq", eq), ("gt", gt), ("lt", lt), ("and", and),
    ("or", or), ("not", not)]

/-- The operator a word stands for. -/
def ofName? (word : String) : Option Operator := WordReader.whole (WordReader.table table) word

/-- A word stands for an operator exactly when it is the operator's name. -/
theorem ofName?_eq_some_iff {word : String} {operator : Operator} :
    ofName? word = some operator ↔ word = operator.name := by
  rw [ofName?, WordReader.whole_table_eq_some_iff (by decide)]
  cases operator <;> simp [table, name]

end Operator

namespace Segment

/-- The words for segments, in the order in which they are tried. -/
def table : List (String × Segment) :=
  [("constant", constant), ("local", locals), ("static", statics), ("argument", arguments),
    ("this", this), ("that", that), ("pointer", pointer), ("temp", temp)]

/-- The segment a word stands for. -/
def ofName? (word : String) : Option Segment := WordReader.whole (WordReader.table table) word

/-- A word stands for a segment exactly when it is the segment's name. -/
theorem ofName?_eq_some_iff {word : String} {segment : Segment} :
    ofName? word = some segment ↔ word = segment.name := by
  rw [ofName?, WordReader.whole_table_eq_some_iff (by decide)]
  cases segment <;> simp [table, name]

end Segment

/-- The greatest index a command in source may have, the greatest number an instruction can
load. -/
def maxIndex : Nat := 32767

/-- One more decimal digit behind a number of sixteen bits, unless it becomes too great. -/
def appendDigit (number : Nat) (digit : Char) : Option Nat :=
  let next := 10 * number + (digit.toNat - '0'.toNat)
  if next < 65536 then some next else none

/-- The number of sixteen bits that decimal digits write. -/
def readNumber? (digits : List Char) : Option Nat := digits.foldlM appendDigit 0

/-- The number written by a word of decimal digits, when it is a valid index. -/
def readIndex? : String → Option Nat :=
  ((WordReader.digits.convert readNumber?).verify (· ≤ maxIndex)).whole

/-- More digits make no number smaller. -/
theorem le_ofDigitChars (digits : List Char) (number : Nat) :
    number ≤ Nat.ofDigitChars 10 digits number := by
  induction digits generalizing number with
  | nil => exact Nat.le_refl number
  | cons digit rest ih =>
    have more := ih (10 * number + (digit.toNat - '0'.toNat))
    rw [Nat.ofDigitChars_cons]
    omega

/-- Digits are refused exactly when the number they write has more than sixteen bits, since no
digit can make it smaller again. -/
theorem foldlM_appendDigit (digits : List Char) {number : Nat} (small : number < 65536) :
    digits.foldlM appendDigit number =
      if Nat.ofDigitChars 10 digits number < 65536 then some (Nat.ofDigitChars 10 digits number)
      else none := by
  induction digits generalizing number with
  | nil => exact (if_pos small).symm
  | cons digit rest ih =>
    rw [List.foldlM_cons, Nat.ofDigitChars_cons, appendDigit]
    by_cases next : 10 * number + (digit.toNat - '0'.toNat) < 65536
    · rw [if_pos next]
      exact ih next
    · have more := le_ofDigitChars rest (10 * number + (digit.toNat - '0'.toNat))
      rw [if_neg next, if_neg (by omega)]
      rfl

end HackVm
