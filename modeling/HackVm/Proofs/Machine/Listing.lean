import HackVm.Proofs.Machine.Reading
import Mathlib.Data.List.Nodup

/-!
# Assembling listings

A listing is a program as lines of assembly. The assembler works on text; `assemble_listing` says
what it makes of the text of a listing, without mentioning text: every symbol becomes an address
(`addressIn`) and every line at most one instruction (`Line.code`). A listing is well-formed when
its numbers and registers are in range, its labels are defined once, and the labels it loads are
defined; labels may be loaded before they are defined.
-/
namespace HackVm

namespace Assembly

/-- The address of a pointer cell. -/
@[simp]
def Pointer.cell : Pointer → Nat
  | stack => 0
  | locals => 1
  | arguments => 2
  | this => 3
  | that => 4

/-- The label a line defines. -/
def Line.label? : Line → Option (Nat × Branch)
  | label serial branch => some (serial, branch)
  | _ => none

/-- The symbol a line loads. -/
def Line.symbol? : Line → Option Symbol
  | load symbol => some symbol
  | _ => none

/-- The qualifier and index of a static variable. -/
def Symbol.static? : Symbol → Option (String × Nat)
  | static qualifier index => some (qualifier, index)
  | _ => none

/-- The static variables a listing loads, in order. -/
def statics (listing : List Line) : List (String × Nat) :=
  (listing.filterMap Line.symbol?).filterMap Symbol.static?

/-- The number of instructions of a line. -/
def Line.size : Line → Nat
  | comment _ | blank | label _ _ => 0
  | load _ | assign _ _ | jump _ _ => 1

/-- The number of instructions of a listing. -/
@[simp]
def size : List Line → Nat
  | [] => 0
  | line :: rest => line.size + size rest

/-- The number of instructions before a label. -/
def labelAddress (serial : Nat) (branch : Branch) : List Line → Nat
  | [] => 0
  | line :: rest =>
    if line = .label serial branch then 0 else line.size + labelAddress serial branch rest

/-- The address a symbol stands for in a listing. -/
def addressIn (listing : List Line) : Symbol → Nat
  | .number value => value
  | .pointer cell => cell.cell
  | .register cell => cell
  | .label serial branch => labelAddress serial branch listing
  | .static qualifier index =>
    16 + (statics listing).eraseDups.idxOf (qualifier, index)

/-- A number stands for itself. -/
@[simp]
theorem addressIn_number (listing : List Line) (value : Nat) :
    addressIn listing (.number value) = value := rfl

/-- A pointer cell has its own address. -/
@[simp]
theorem addressIn_pointer (listing : List Line) (cell : Pointer) :
    addressIn listing (.pointer cell) = cell.cell := rfl

/-- A register has its own address. -/
@[simp]
theorem addressIn_register (listing : List Line) (cell : Nat) :
    addressIn listing (.register cell) = cell := rfl

/-- A symbol can be loaded in a listing. -/
def Symbol.Loadable (listing : List Line) : Symbol → Prop
  | number value => value < 32768
  | pointer _ => True
  | register cell => cell < 16
  | label serial branch => .label serial branch ∈ listing
  | static _ _ => True

/-- The labels of a listing are defined once and its symbols can be loaded. -/
structure WellFormed (listing : List Line) : Prop where
  /-- No label is defined twice. -/
  labels : (listing.filterMap Line.label?).Nodup
  /-- Every symbol can be loaded. -/
  symbols : ∀ symbol ∈ listing.filterMap Line.symbol?, symbol.Loadable listing

/-- The instructions of a line, none or one, when the address of every symbol is known. -/
@[simp]
def Line.code (address : Symbol → Nat) : Line → List Instruction
  | comment _ | blank | label _ _ => []
  | load symbol => [.load (BitVec.ofNat 16 (address symbol))]
  | assign target value => [.compute target.stores value.computation .never]
  | jump value condition => [.compute ⟨false, false, false⟩ value.computation condition.jump]

/-- A line has as many instructions as its size says. -/
theorem Line.length_code (address : Symbol → Nat) (line : Line) :
    (line.code address).length = line.size := by
  cases line <;> rfl

/-- A listing has as many instructions as its size says. -/
theorem length_flatMap_code (address : Symbol → Nat) (listing : List Line) :
    (listing.flatMap (Line.code address)).length = size listing := by
  induction listing with
  | nil => rfl
  | cons line rest ih => rw [List.flatMap_cons, List.length_append, Line.length_code, ih, size]

/-- The size of a listing in two parts is the sum of the sizes. -/
theorem size_append (front back : List Line) : size (front ++ back) = size front + size back := by
  induction front with
  | nil => rw [List.nil_append, size, Nat.zero_add]
  | cons line rest ih => rw [List.cons_append, size, size, ih, Nat.add_assoc]

/-- The address of a label is the size of what stands before its only definition. -/
theorem labelAddress_append {serial : Nat} {branch : Branch} {front : List Line}
    (fresh : Line.label serial branch ∉ front) (back : List Line) :
    labelAddress serial branch (front ++ .label serial branch :: back) = size front := by
  induction front with
  | nil => simp [labelAddress, size]
  | cons line front ih =>
    rw [List.mem_cons, not_or] at fresh
    rw [List.cons_append, labelAddress, if_neg (Ne.symm fresh.1), ih fresh.2, size]

end Assembly

namespace Assembler

open Assembly

/-- The labels the assembler finds in the text of a listing. -/
def labelsOf (listing : List Line) : List (List Char × Nat) :=
  labelsFrom 0 (listing.map Line.statement)

/-- The assembler finds the labels of a listing in their order. -/
theorem map_fst_labelsFrom (listing : List Line) (address : Nat) :
    (labelsFrom address (listing.map Line.statement)).map Prod.fst =
      (listing.filterMap Line.label?).map fun label => (Symbol.label label.1 label.2).name := by
  induction listing generalizing address with
  | nil => rfl
  | cons line listing ih =>
    cases line <;> simp [Line.statement, labelsFrom, List.filterMap_cons, Line.label?, ih]

/-- The assembler gives a label the number of instructions before it. -/
theorem lookup_labelsFrom {serial : Nat} {branch : Branch} {listing : List Line}
    (defined : Line.label serial branch ∈ listing) (address : Nat) :
    (labelsFrom address (listing.map Line.statement)).lookup (Symbol.label serial branch).name =
      some (address + labelAddress serial branch listing) := by
  induction listing generalizing address with
  | nil => contradiction
  | cons line listing ih =>
    by_cases here : line = .label serial branch
    · subst here
      simp [Line.statement, labelsFrom, labelAddress]
    · have later : Line.label serial branch ∈ listing := by
        simpa [Ne.symm here] using defined
      rw [labelAddress, if_neg here]
      cases line with
      | comment remark => simp [Line.statement, labelsFrom, Line.size, ih later]
      | blank => simp [Line.statement, labelsFrom, Line.size, ih later]
      | label other way =>
        have different : ((Symbol.label serial branch).name == (Symbol.label other way).name) =
            false := by
          rw [beq_eq_false_iff_ne]
          intro same
          obtain ⟨rfl, rfl⟩ := Symbol.name_label_injective same
          exact here rfl
        simp [Line.statement, labelsFrom, Line.size, List.lookup_cons, different, ih later]
      | load symbol => simp [Line.statement, labelsFrom, Line.size, ih later, Nat.add_assoc]
      | assign target value =>
        simp [Line.statement, labelsFrom, Line.size, ih later, Nat.add_assoc]
      | jump value condition =>
        simp [Line.statement, labelsFrom, Line.size, ih later, Nat.add_assoc]

/-- A name with a full stop is no label. -/
theorem lookup_labelsOf_of_stop {name : List Char} (stop : '.' ∈ name) (listing : List Line) :
    (labelsOf listing).lookup name = none := by
  rw [List.lookup_eq_none_iff]
  intro entry found
  rw [bne_iff_ne]
  rintro rfl
  have named := List.mem_map_of_mem (f := Prod.fst) found
  rw [labelsOf, map_fst_labelsFrom, List.mem_map] at named
  obtain ⟨label, -, same⟩ := named
  rw [← same, Symbol.name_label, List.mem_append] at stop
  rcases stop with digits | mark
  · exact stop_notMem_toDigits _ digits
  · obtain ⟨serial, branch⟩ := label
    cases branch <;> simp [Branch.mark] at mark

/-- A pointer cell is predefined. -/
theorem lookup_pointer (cell : Pointer) :
    number? (Symbol.pointer cell).name = none ∧
      predefined.lookup (Symbol.pointer cell).name = some cell.cell := by
  cases cell <;> decide

/-- The first sixteen registers are predefined. -/
theorem lookup_register : ∀ cell < 16,
    number? (Symbol.register cell).name = none ∧
      predefined.lookup (Symbol.register cell).name = some cell := by
  decide

/-- A label is neither a number nor predefined. -/
theorem lookup_label (serial : Nat) (branch : Branch) :
    number? (Symbol.label serial branch).name = none ∧
      predefined.lookup (Symbol.label serial branch).name = none := by
  rw [Symbol.name_label]
  constructor
  · have marked : branch.mark ∈ Nat.toDigits 10 serial ++ [branch.mark] := by simp
    have letter : branch.mark.isDigit = false := by cases branch <;> decide
    exact number?_eq_none marked letter
  · cases digits : Nat.toDigits 10 serial with
    | nil => exact absurd digits Nat.toDigits_ne_nil
    | cons first rest =>
      apply lookup_predefined_of_digit
      exact Nat.isDigit_of_mem_toDigits (b := 10) (n := serial) (by decide) (by decide)
        (by rw [digits]; exact List.mem_cons_self)

/-- A static variable is neither a number nor predefined nor a label. -/
theorem lookup_static (qualifier : String) (index : Nat) (listing : List Line) :
    number? (Symbol.static qualifier index).name = none ∧
      predefined.lookup (Symbol.static qualifier index).name = none ∧
      (labelsOf listing).lookup (Symbol.static qualifier index).name = none := by
  have stop : '.' ∈ (Symbol.static qualifier index).name := by
    rw [Symbol.name_static]
    simp
  exact ⟨number?_eq_none stop (by decide), lookup_predefined_of_stop stop,
    lookup_labelsOf_of_stop stop listing⟩

/-- The assembler finds the symbols that a listing loads in their order. -/
theorem filterMap_loaded? (listing : List Line) :
    (listing.map Line.statement).filterMap Statement.loaded? =
      (listing.filterMap Line.symbol?).map Symbol.name := by
  rw [List.filterMap_map, List.map_filterMap]
  congr 1
  funext line
  cases line <;> rfl

/-- Exactly the static variables among the symbols of a listing are variables to the assembler. -/
theorem isVariable_name {listing : List Line} {symbol : Symbol}
    (loadable : symbol.Loadable listing) :
    isVariable (labelsOf listing) symbol.name = symbol.static?.isSome := by
  cases symbol with
  | number value =>
    have found : number? (Symbol.number value).name = some value := by
      simpa [Symbol.name, Symbol.text] using number?_toDigits value
    simp [isVariable, found, Symbol.static?]
  | pointer cell => simp [isVariable, lookup_pointer cell, Symbol.static?]
  | register cell => simp [isVariable, lookup_register cell loadable, Symbol.static?]
  | label serial branch =>
    simp [isVariable, labelsOf, lookup_labelsFrom loadable, Symbol.static?]
  | static qualifier index =>
    simp [isVariable, lookup_static qualifier index listing, Symbol.static?]

/-- Keeping the static variables among names keeps them among symbols. -/
theorem filter_isVariable {listing : List Line} {symbols : List Symbol}
    (loadable : ∀ symbol ∈ symbols, symbol.Loadable listing) :
    (symbols.map Symbol.name).filter (isVariable (labelsOf listing)) =
      (symbols.filterMap Symbol.static?).map fun static =>
        (Symbol.static static.1 static.2).name := by
  induction symbols with
  | nil => rfl
  | cons symbol symbols ih =>
    have others := ih fun other listed => loadable other (List.mem_cons_of_mem symbol listed)
    have here := isVariable_name (loadable symbol List.mem_cons_self)
    cases symbol <;> simp_all [Symbol.static?, List.filterMap_cons]

/-- An injective map commutes with dropping repetitions. -/
theorem eraseDups_map {α β : Type} [BEq α] [LawfulBEq α] [BEq β] [LawfulBEq β] {f : α → β}
    (injective : Function.Injective f) (list : List α) :
    (list.map f).eraseDups = list.eraseDups.map f := by
  match list with
  | [] => rfl
  | first :: rest =>
    have kept : (rest.map f).filter (fun other => !other == f first) =
        (rest.filter fun other => !other == first).map f := by
      rw [List.filter_map]
      congr 2
      funext other
      have same : (f other == f first) = (other == first) := by
        rw [Bool.eq_iff_iff, beq_iff_eq, beq_iff_eq, injective.eq_iff]
      rw [Function.comp_apply, same]
    rw [List.map_cons, List.eraseDups_cons, List.eraseDups_cons, List.map_cons, kept,
      eraseDups_map injective (rest.filter fun other => !other == first)]
termination_by list.length
decreasing_by
  have shorter := List.length_filter_le (fun other => !other == first) rest
  simp only [List.length_cons]
  omega

/-- An injective map keeps the place of a first occurrence. -/
theorem idxOf_map {α β : Type} [BEq α] [LawfulBEq α] [BEq β] [LawfulBEq β] {f : α → β}
    (injective : Function.Injective f) (list : List α) (value : α) :
    (list.map f).idxOf (f value) = list.idxOf value := by
  induction list with
  | nil => rfl
  | cons first rest ih =>
    by_cases same : first = value
    · simp [same]
    · have different : f first ≠ f value := fun equal => same (injective equal)
      rw [List.map_cons, List.idxOf_cons_ne _ different, List.idxOf_cons_ne _ same, ih]

/-- The place of a static variable among the variables of a listing. -/
theorem idxOf_variableNames {listing : List Line} (wellFormed : WellFormed listing)
    (qualifier : String) (index : Nat) :
    (variableNames (labelsOf listing) (listing.map Line.statement)).idxOf
        (Symbol.static qualifier index).name =
      (statics listing).eraseDups.idxOf (qualifier, index) := by
  have injective : Function.Injective fun static : String × Nat =>
      (Symbol.static static.1 static.2).name := by
    intro left right same
    obtain ⟨qualifiers, indices⟩ := Symbol.name_static_injective same
    exact Prod.ext qualifiers indices
  rw [variableNames, filterMap_loaded?, filter_isVariable wellFormed.symbols,
    eraseDups_map injective]
  exact idxOf_map injective _ (qualifier, index)

/-- The assembler resolves every symbol of a listing to its address. -/
theorem resolve?_name {listing : List Line} (wellFormed : WellFormed listing) {symbol : Symbol}
    (loadable : symbol.Loadable listing) :
    resolve? (labelsOf listing) (variableNames (labelsOf listing) (listing.map Line.statement))
        symbol.name = some (addressIn listing symbol) := by
  cases symbol with
  | number value =>
    have found : number? (Symbol.number value).name = some value := by
      simpa [Symbol.name, Symbol.text] using number?_toDigits value
    have small : value < 32768 := loadable
    simp [resolve?, found, small, addressIn]
  | pointer cell => simp [resolve?, lookup_pointer cell, addressIn]
  | register cell => simp [resolve?, lookup_register cell loadable, addressIn]
  | label serial branch =>
    simp [resolve?, lookup_label serial branch, labelsOf, lookup_labelsFrom loadable, addressIn]
  | static qualifier index =>
    simp [resolve?, lookup_static qualifier index listing, idxOf_variableNames wellFormed,
      addressIn]

/-- Where every value of a list has a result the whole list has. -/
theorem mapM_eq_some_map {α β : Type} {f : α → Option β} {g : α → β} {list : List α}
    (found : ∀ value ∈ list, f value = some (g value)) : list.mapM f = some (list.map g) := by
  induction list with
  | nil => rfl
  | cons first rest ih =>
    rw [List.mapM_cons, found first List.mem_cons_self,
      ih fun value listed => found value (List.mem_cons_of_mem first listed)]
    rfl

/-- The text of a well-formed listing assembles to the instructions of its lines. -/
theorem assemble_listing {listing : List Line} (wellFormed : WellFormed listing) :
    assemble (listing.map Line.text) =
      some (listing.flatMap (Line.code (addressIn listing))) := by
  have read : (listing.map Line.text).mapM statement? = some (listing.map Line.statement) := by
    rw [List.mapM_map]
    exact mapM_eq_some_map fun line _ => statement?_text line
  have names := map_fst_labelsFrom listing 0
  have distinct : ((labelsFrom 0 (listing.map Line.statement)).map Prod.fst).Nodup := by
    rw [names]
    refine wellFormed.labels.map ?_
    intro left right same
    obtain ⟨serials, branches⟩ := Symbol.name_label_injective same
    exact Prod.ext serials branches
  have free : ∀ name ∈ (labelsFrom 0 (listing.map Line.statement)).map Prod.fst,
      predefined.lookup name = none := by
    intro name listed
    rw [names, List.mem_map] at listed
    obtain ⟨label, -, rfl⟩ := listed
    exact (lookup_label label.1 label.2).2
  have encoded : (listing.map Line.statement).mapM
      (encode? (labelsOf listing) (variableNames (labelsOf listing) (listing.map Line.statement))) =
        some (listing.map (Line.code (addressIn listing))) := by
    rw [List.mapM_map]
    apply mapM_eq_some_map
    intro line listed
    cases line with
    | load symbol =>
      have loadable := wellFormed.symbols symbol
        (List.mem_filterMap.mpr ⟨.load symbol, listed, rfl⟩)
      simp [Line.statement, encode?, resolve?_name wellFormed loadable, Line.code]
    | comment remark => rfl
    | blank => rfl
    | assign target value => rfl
    | jump value condition => rfl
    | label serial branch => rfl
  rw [labelsOf] at encoded
  simp only [assemble, read, Option.bind_eq_bind, Option.bind_some]
  rw [if_pos ⟨distinct, free⟩, encoded]
  rfl

end Assembler

end HackVm
