import HackVm.Proofs.Machine.Reading

/-!
# Spelling

The text of a symbol tells which symbol it is, and the text of a line which line. Symbols fall into
four kinds by their spelling alone: a static variable has a full stop, a numeral has digits only, a
label begins with a digit and ends in a letter, and a predefined symbol begins with a letter.
`SymbolKind.ofName_name` says that no symbol is spelled like one of another kind, whatever the
qualifier is; within a kind the digits give back the number. Lines are told apart by what the
assembler reads in them. So nothing is lost when a listing is written out as text.
-/
namespace HackVm.Assembly

/-- The kinds of symbols that can be told apart by their spelling. -/
inductive SymbolKind where
  /-- A number in decimal digits. -/
  | numeral
  /-- A cell at the bottom of memory, by its predefined name. -/
  | predefined
  /-- A branch of a comparison. -/
  | label
  /-- A variable shared by the functions of one file. -/
  | static
deriving DecidableEq, Repr

/-- The kind of a symbol. -/
def Symbol.kind : Symbol → SymbolKind
  | number _ => .numeral
  | pointer _ | register _ => .predefined
  | label _ _ => .label
  | static _ _ => .static

/-- The kind that a name has by its spelling. -/
def SymbolKind.ofName (name : List Char) : SymbolKind :=
  if '.' ∈ name then .static
  else if name.all Char.isDigit then .numeral
  else if name.head?.any Char.isDigit then .label
  else .predefined

/-- The name of a register is a letter and its number. -/
theorem Symbol.name_register (cell : Nat) :
    (Symbol.register cell).name = 'R' :: Nat.toDigits 10 cell := by
  simp [name, text]

/-- The name of a number is its digits. -/
theorem Symbol.name_number (value : Nat) : (Symbol.number value).name = Nat.toDigits 10 value := by
  simp [name, text]

/-- The digits of a number are digits. -/
theorem all_isDigit_toDigits (value : Nat) : (Nat.toDigits 10 value).all Char.isDigit = true := by
  rw [List.all_eq_true]
  intro char written
  exact Nat.isDigit_of_mem_toDigits (by decide) (by decide) written

/-- A symbol is spelled like one of its kind. -/
theorem SymbolKind.ofName_name (symbol : Symbol) : ofName symbol.name = symbol.kind := by
  cases symbol with
  | number value =>
    rw [Symbol.name_number, ofName, if_neg (stop_notMem_toDigits value),
      if_pos (all_isDigit_toDigits value)]
    rfl
  | pointer cell => cases cell <;> decide
  | register cell =>
    have noStop : '.' ∉ 'R' :: Nat.toDigits 10 cell := by
      rw [List.mem_cons, not_or]
      exact ⟨by decide, stop_notMem_toDigits cell⟩
    have letter : 'R'.isDigit = false := by decide
    rw [Symbol.name_register, ofName, if_neg noStop]
    simp [letter, Symbol.kind]
  | label serial branch =>
    have noStop : '.' ∉ Nat.toDigits 10 serial ++ [branch.mark] := by
      rw [List.mem_append, List.mem_singleton, not_or]
      exact ⟨stop_notMem_toDigits serial, by cases branch <;> decide⟩
    have letter : branch.mark.isDigit = false := by cases branch <;> decide
    have digits := all_isDigit_toDigits serial
    rw [Symbol.name_label, ofName, if_neg noStop]
    cases begun : Nat.toDigits 10 serial with
    | nil => exact absurd begun Nat.toDigits_ne_nil
    | cons first rest =>
      rw [begun, List.all_cons, Bool.and_eq_true] at digits
      simp [letter, digits.1, Symbol.kind]
  | static qualifier index =>
    have stop : '.' ∈ qualifier.toList ++ '.' :: Nat.toDigits 10 index := by simp
    rw [Symbol.name_static, ofName, if_pos stop]
    rfl

/-- Symbols of the same name are of the same kind. -/
theorem Symbol.kind_of_name {left right : Symbol} (same : left.name = right.name) :
    left.kind = right.kind := by
  rw [← SymbolKind.ofName_name, ← SymbolKind.ofName_name, same]

/-- No pointer cell has the name of a register. -/
theorem Symbol.name_pointer_ne_register (cell : Pointer) (number : Nat) :
    (Symbol.pointer cell).name ≠ (Symbol.register number).name := by
  intro same
  have letter : (Symbol.pointer cell).name.head? ≠ some 'R' := by cases cell <;> decide
  rw [same, name_register] at letter
  exact letter rfl

/-- Different symbols have different names. -/
theorem Symbol.name_injective {left right : Symbol} (same : left.name = right.name) :
    left = right := by
  have kinds := kind_of_name same
  cases left with
  | number value =>
    cases right with
    | number other =>
      rw [name_number, name_number] at same
      rw [toDigits_injective same]
    | pointer | register | label | static => contradiction
  | pointer cell =>
    cases right with
    | pointer other => cases cell <;> cases other <;> cases same <;> rfl
    | register other => exact absurd same (name_pointer_ne_register cell other)
    | number | label | static => contradiction
  | register cell =>
    cases right with
    | pointer other => exact absurd same.symm (name_pointer_ne_register other cell)
    | register other =>
      rw [name_register, name_register] at same
      rw [toDigits_injective (List.cons.inj same).2]
    | number | label | static => contradiction
  | label serial branch =>
    cases right with
    | label other way =>
      obtain ⟨rfl, rfl⟩ := name_label_injective same
      rfl
    | number | pointer | register | static => contradiction
  | static qualifier index =>
    cases right with
    | static other place =>
      obtain ⟨rfl, rfl⟩ := name_static_injective same
      rfl
    | number | pointer | register | label => contradiction

/-- Different targets store differently. -/
theorem Target.stores_injective {left right : Target} (same : left.stores = right.stores) :
    left = right := by
  cases left <;> cases right <;> cases same <;> rfl

/-- Different values are computed differently. -/
theorem Value.computation_injective {left right : Value}
    (same : left.computation = right.computation) : left = right := by
  cases left <;> cases right <;> cases same <;> rfl

/-- Different conditions are different jumps. -/
theorem Condition.jump_injective {left right : Condition} (same : left.jump = right.jump) :
    left = right := by
  cases left <;> cases right <;> cases same <;> rfl

/-- A condition is a jump that may be taken. -/
theorem Condition.jump_ne_never (condition : Condition) : condition.jump ≠ .never := by
  cases condition <;> exact nofun

/-- Different lines have different texts. -/
theorem Line.text_injective : Function.Injective Line.text := by
  intro left right same
  have read : left.statement = right.statement := by
    have statements := congrArg Assembler.statement? same
    rwa [Assembler.statement?_text, Assembler.statement?_text, Option.some.injEq] at statements
  cases left with
  | comment remark =>
    cases right with
    | comment other => rw [(String.append_right_inj "// ").mp same]
    | blank => simp [text] at same
    | load | assign | jump | label => contradiction
  | blank =>
    cases right with
    | comment other => simp [text] at same
    | blank => rfl
    | load | assign | jump | label => contradiction
  | load symbol =>
    cases right with
    | load other =>
      simp only [statement, Assembler.Statement.load.injEq] at read
      rw [Symbol.name_injective read]
    | comment | blank | assign | jump | label => contradiction
  | assign target value =>
    cases right with
    | assign other found =>
      simp only [statement, Assembler.Statement.compute.injEq, and_true] at read
      rw [Target.stores_injective read.1, Value.computation_injective read.2]
    | jump other condition =>
      simp only [statement, Assembler.Statement.compute.injEq] at read
      exact absurd read.2.2.symm condition.jump_ne_never
    | comment | blank | load | label => contradiction
  | jump value condition =>
    cases right with
    | assign other found =>
      simp only [statement, Assembler.Statement.compute.injEq] at read
      exact absurd read.2.2 condition.jump_ne_never
    | jump other found =>
      simp only [statement, Assembler.Statement.compute.injEq, true_and] at read
      rw [Value.computation_injective read.1, Condition.jump_injective read.2]
    | comment | blank | load | label => contradiction
  | label serial branch =>
    cases right with
    | label other way =>
      simp only [statement, Assembler.Statement.label.injEq] at read
      obtain ⟨rfl, rfl⟩ := Symbol.name_label_injective read
      rfl
    | comment | blank | load | assign | jump => contradiction

/-- Listings of the same text are the same. -/
theorem eq_of_map_text {left right : List Line}
    (same : left.map (·.text) = right.map (·.text)) : left = right :=
  Line.text_injective.list_map same

end HackVm.Assembly
