import HackVm.Proofs.Labels

/-!
# Renumbering labels

The listing of commands that come behind others is the listing they have on their own, with a
greater number in every label and every reference to one. `listing_append` and `listing_add` say
this of lines. Of text it is said by `relabel`, which knows a label by its spelling alone: a numeral
and the letter of a branch, behind an at sign or in round brackets. `relabel_text` says that no
other line is spelled like that: the name of a static variable ends in a digit, whatever its
qualifier is.
-/
namespace HackVm

namespace Assembly

/-- The symbol with the number of a label raised. -/
def Symbol.renumber (count : Nat) : Symbol → Symbol
  | label serial branch => label (serial + count) branch
  | symbol => symbol

/-- The line with the numbers of its labels raised. -/
def Line.renumber (count : Nat) : Line → Line
  | load symbol => load (symbol.renumber count)
  | label serial branch => label (serial + count) branch
  | line => line

/-- The number and the branch of the label that a name spells. -/
def labelOf? (name : List Char) : Option (Nat × Branch) :=
  match Assembler.number? name.dropLast, name.getLast? with
  | some serial, some 'T' => some (serial, .holds)
  | some serial, some 'F' => some (serial, .fails)
  | _, _ => none

/-- Raise the number of the label that a line of text refers to or defines, and leave every other
line as it is. -/
def relabel (count : Nat) (line : String) : String :=
  match line.toList with
  | '@' :: name =>
    match labelOf? name with
    | some (serial, branch) => "@" ++ (serial + count).repr ++ branch.letter
    | none => line
  | '(' :: rest =>
    match rest.getLast?, labelOf? rest.dropLast with
    | some ')', some (serial, branch) => "(" ++ (serial + count).repr ++ branch.letter ++ ")"
    | _, _ => line
  | _ => line

/-- A name that ends in a digit spells no label. -/
theorem labelOf?_of_digit (front : List Char) {last : Char} (digit : last.isDigit = true) :
    labelOf? (front ++ [last]) = none := by
  rw [labelOf?, List.dropLast_concat, List.getLast?_concat]
  split
  · rename_i same
    rw [Option.some.inj same] at digit
    exact absurd digit (by decide)
  · rename_i same
    rw [Option.some.inj same] at digit
    exact absurd digit (by decide)
  · rfl

/-- The name of a symbol spells a label exactly when the symbol is that label. -/
theorem labelOf?_name (symbol : Symbol) : labelOf? symbol.name = symbol.label? := by
  have digits (front : List Char) (value : Nat) :
      labelOf? (front ++ Nat.toDigits 10 value) = none := by
    obtain ⟨begun, last, same, digit⟩ := toDigits_concat value
    rw [same, ← List.append_assoc]
    exact labelOf?_of_digit (front ++ begun) digit
  cases symbol with
  | number value => simpa [Symbol.name, Symbol.text, Symbol.label?] using digits [] value
  | pointer cell => cases cell <;> rfl
  | register cell => simpa [Symbol.name, Symbol.text, Symbol.label?] using digits ['R'] cell
  | label serial branch =>
    rw [Symbol.name_label, labelOf?, List.dropLast_concat, List.getLast?_concat,
      Assembler.number?_toDigits]
    cases branch <;> rfl
  | static qualifier index =>
    simpa [Symbol.name, Symbol.text, Symbol.label?] using digits (qualifier.toList ++ ['.']) index

/-- A line that neither loads nor defines anything is left as it is. -/
theorem relabel_of_head? {line : String} (noLoad : line.toList.head? ≠ some '@')
    (noLabel : line.toList.head? ≠ some '(') (count : Nat) : relabel count line = line := by
  rw [relabel]
  split
  · rename_i chars
    simp [chars] at noLoad
  · rename_i chars
    simp [chars] at noLabel
  · rfl

/-- Relabelling the text of a line gives the text of the line renumbered. -/
theorem relabel_text (count : Nat) (line : Line) :
    relabel count line.text = (line.renumber count).text := by
  have unsigned (noLoad : line.sign? ≠ some '@') (noLabel : line.sign? ≠ some '(') :
      relabel count line.text = line.text := by
    apply relabel_of_head?
    · rwa [ne_eq, Line.head?_text_eq_some_iff (by decide)]
    · rwa [ne_eq, Line.head?_text_eq_some_iff (by decide)]
  cases line with
  | comment | blank | assign | jump => exact unsigned (by simp [Line.sign?]) (by simp [Line.sign?])
  | load symbol =>
    have chars : (Line.load symbol).text.toList = '@' :: symbol.name := by
      simp [Line.text, Symbol.name]
    simp only [relabel, chars, labelOf?_name]
    cases symbol with
    | label serial branch => exact (Line.text_load_label (serial + count) branch).symm
    | number | pointer | register | static => rfl
  | label serial branch =>
    have chars : (Line.label serial branch).text.toList =
        '(' :: ((Symbol.label serial branch).name ++ [')']) := by
      simp [Line.text, Symbol.name]
    simp only [relabel, chars, List.getLast?_concat, List.dropLast_concat, labelOf?_name]
    exact (Line.text_label (serial + count) branch).symm

example : ["@0T", "(12F)", "@1T.3", "// (1T)", "@T"].map (relabel 9) =
    ["@9T", "(21F)", "@1T.3", "// (1T)", "@T"] := by decide

end Assembly

open Assembly

variable (qualifier : String) (comments : Bool)

/-- A block that starts from a greater number is the same block renumbered. -/
theorem block_add (serial count : Nat) (command : Command) :
    command.block qualifier (serial + count) =
      (command.block qualifier serial).map (List.map (Line.renumber count)) := by
  cases command with
  | arithmetic operator => cases operator <;> rfl
  | push segment index =>
    rw [Command.block, Command.block]
    cases placed : place qualifier segment index with
    | error error => rfl
    | ok found =>
      obtain ⟨-, shape⟩ := place_eq_ok_iff.mp placed
      cases shape <;> rfl
  | pop segment index =>
    rw [Command.block, Command.block]
    cases placed : place qualifier segment index with
    | error error => rfl
    | ok found =>
      obtain ⟨-, shape⟩ := place_eq_ok_iff.mp placed
      cases shape <;> rfl

/-- Renumbering reaches into a frame. -/
theorem map_renumber_frame (count : Nat) (remark : String) (body : List Line) :
    (Emitter.frame comments remark body).map (Line.renumber count) =
      Emitter.frame comments remark (body.map (Line.renumber count)) := by
  cases comments <;> simp [Emitter.frame, Line.renumber]

/-- A listing that starts from a greater number is the same listing renumbered. -/
theorem listing_add (serial count : Nat) (commands : List Command) :
    listing qualifier comments (serial + count) commands =
      (listing qualifier comments serial commands).map (List.map (Line.renumber count)) := by
  induction commands generalizing serial with
  | nil => rfl
  | cons command rest ih =>
    have order : serial + count + command.labels = serial + command.labels + count := by omega
    rw [listing, listing, block_add, order, ih]
    cases command.block qualifier serial with
    | error error => rfl
    | ok body =>
      cases listing qualifier comments (serial + command.labels) rest with
      | error error => rfl
      | ok later =>
        simp [Except.map, bind, Except.bind, pure, Except.pure, map_renumber_frame]

/-- The listing of commands in two parts; the second starts from the number that the first has
reached. -/
theorem listing_append (serial : Nat) (front back : List Command) :
    listing qualifier comments serial (front ++ back) = do
      let early ← listing qualifier comments serial front
      let late ← listing qualifier comments (serial + labelTotal front) back
      return early ++ late := by
  induction front generalizing serial with
  | nil =>
    cases listed : listing qualifier comments serial back <;>
      simp [listing, labelTotal, listed, bind, Except.bind, pure, Except.pure]
  | cons command rest ih =>
    have order : serial + (command.labels + labelTotal rest) =
        serial + command.labels + labelTotal rest := by omega
    rw [List.cons_append, listing, listing, ih, labelTotal, order]
    cases command.block qualifier serial with
    | error error => rfl
    | ok body =>
      cases listing qualifier comments (serial + command.labels) rest with
      | error error => rfl
      | ok early =>
        cases listing qualifier comments (serial + command.labels + labelTotal rest) back with
        | error error => rfl
        | ok late => simp [bind, Except.bind, pure, Except.pure]

end HackVm
