import HackVm.Proofs.Emission
import HackVm.Proofs.Machine.Listing
import HackVm.Proofs.StackMachine

/-!
# The symbols of emitted listings

Which labels a listing of commands defines, which symbols it loads and which static variables it
uses. Labels are numbered in order, two to a comparison, so none is defined twice; a block loads no
label but its own. Together these make every listing of commands well-formed, and its static
variables those of the commands, in the same order.
-/
namespace HackVm

namespace Assembly

/-- The two labels of each of the comparisons with the given numbers. -/
def marks (serials : List Nat) : List (Nat × Branch) :=
  serials.flatMap fun serial => [(serial, .holds), (serial, .fails)]

/-- A label is among the marks exactly when its number is among the numbers. -/
theorem mem_marks {serials : List Nat} {serial : Nat} {branch : Branch} :
    (serial, branch) ∈ marks serials ↔ serial ∈ serials := by
  cases branch <;> simp [marks]

/-- Different numbers give different labels. -/
theorem nodup_marks {serials : List Nat} (distinct : serials.Nodup) : (marks serials).Nodup := by
  induction serials with
  | nil => exact List.nodup_nil
  | cons serial rest ih =>
    rw [List.nodup_cons] at distinct
    have later : (marks rest).Nodup := ih distinct.2
    have holds : (serial, Branch.holds) ∉ marks rest := fun listed =>
      distinct.1 (mem_marks.mp listed)
    have fails : (serial, Branch.fails) ∉ marks rest := fun listed =>
      distinct.1 (mem_marks.mp listed)
    have front : marks (serial :: rest) =
        (serial, .holds) :: (serial, .fails) :: marks rest := rfl
    rw [front, List.nodup_cons, List.nodup_cons, List.mem_cons, not_or]
    exact ⟨⟨by simp, holds⟩, fails, later⟩

/-- A line defines a label exactly when it is the label's line. -/
theorem Line.label?_eq_some_iff {line : Line} {serial : Nat} {branch : Branch} :
    line.label? = some (serial, branch) ↔ line = .label serial branch := by
  cases line <;> simp [Line.label?]

/-- A listing has the line of every label it defines. -/
theorem mem_filterMap_label? {lines : List Line} {serial : Nat} {branch : Branch} :
    (serial, branch) ∈ lines.filterMap Line.label? ↔ .label serial branch ∈ lines := by
  simp [List.mem_filterMap, Line.label?_eq_some_iff]

/-- What can be loaded in a listing can be loaded in a longer one. -/
theorem Symbol.Loadable.mono {symbol : Symbol} {part whole : List Line} (inside : part ⊆ whole)
    (loadable : symbol.Loadable part) : symbol.Loadable whole := by
  cases symbol with
  | label serial branch => exact inside loadable
  | number value => exact loadable
  | pointer cell => exact loadable
  | register cell => exact loadable
  | static qualifier index => exact loadable

/-- The static variables of two listings one after the other. -/
theorem statics_append (front back : List Line) :
    statics (front ++ back) = statics front ++ statics back := by
  simp [statics]

/-- The frame of a block defines no label. -/
theorem filterMap_label?_frame (comments : Bool) (remark : String) (body : List Line) :
    (Emitter.frame comments remark body).filterMap Line.label? = body.filterMap Line.label? := by
  cases comments <;> simp [Emitter.frame, Line.label?, List.filterMap_cons]

/-- The frame of a block loads no symbol. -/
theorem filterMap_symbol?_frame (comments : Bool) (remark : String) (body : List Line) :
    (Emitter.frame comments remark body).filterMap Line.symbol? =
      body.filterMap Line.symbol? := by
  cases comments <;> simp [Emitter.frame, Line.symbol?, List.filterMap_cons]

/-- The frame of a block adds lines to it. -/
theorem subset_frame (comments : Bool) (remark : String) (body : List Line) :
    body ⊆ Emitter.frame comments remark body := by
  intro line listed
  simp [Emitter.frame, listed]

/-- The symbols by which a place is found. -/
def Place.symbols : Place → List Symbol
  | literal value => [.number value]
  | based base offset => [.pointer base, .number offset]
  | direct symbol => [symbol]

/-- The symbols of a place can be loaded in every listing. -/
theorem loadable_of_placed {qualifier : String} {segment : Segment} {index : Nat} {found : Place}
    (placed : Placed qualifier segment index found) (loadable : index ≤ maxIndex)
    (whole : List Line) : ∀ symbol ∈ found.symbols, symbol.Loadable whole := by
  have small : index < 32768 := Nat.lt_succ_of_le loadable
  intro symbol listed
  cases placed with
  | constant =>
    obtain rfl := List.mem_singleton.mp listed
    exact small
  | locals | arguments | this | that =>
    obtain rfl | other := List.mem_cons.mp listed
    · trivial
    · obtain rfl := List.mem_singleton.mp other
      exact small
  | temp inside =>
    obtain rfl := List.mem_singleton.mp listed
    have register : 5 + index < 16 := by
      have eight : index < 8 := inside
      omega
    exact register
  | pointerThis | pointerThat | statics =>
    obtain rfl := List.mem_singleton.mp listed
    trivial

/-- Only a place in the static segment is found by a static variable, its own. -/
theorem static?_of_placed {qualifier : String} {segment : Segment} {index : Nat} {found : Place}
    (placed : Placed qualifier segment index found) :
    found.symbols.filterMap Symbol.static? =
      (StackMachine.static? (.push segment index)).toList.map (qualifier, ·) := by
  cases placed <;> rfl

/-- The block of a push loads the symbols of its place and the stack pointer. -/
theorem symbols_pushBlock (found : Place) :
    (pushBlock found).filterMap Line.symbol? = found.symbols ++ [.pointer .stack] ∧
      (pushBlock found).filterMap Line.label? = [] := by
  cases found <;> exact ⟨rfl, rfl⟩

/-- The block of a pop loads the symbols of its place, the stack pointer and the register that
keeps an address. -/
theorem symbols_popBlock {found : Place} {body : List Line} (popped : popBlock found = .ok body) :
    (∀ symbol ∈ body.filterMap Line.symbol?,
        symbol ∈ found.symbols ∨ symbol = .pointer .stack ∨ symbol = scratch) ∧
      statics body = found.symbols.filterMap Symbol.static? ∧
      body.filterMap Line.label? = [] := by
  cases found with
  | literal value => contradiction
  | based base offset =>
    obtain rfl := Except.ok.inj popped
    refine ⟨?_, rfl, rfl⟩
    intro symbol listed
    change symbol ∈ [.pointer base, .number offset, scratch, .pointer .stack, scratch] at listed
    simp only [List.mem_cons, List.not_mem_nil, or_false] at listed
    simp only [Place.symbols, List.mem_cons, List.not_mem_nil, or_false]
    tauto
  | direct symbol =>
    obtain rfl := Except.ok.inj popped
    refine ⟨?_, rfl, rfl⟩
    intro other listed
    change other ∈ [.pointer .stack, symbol] at listed
    simp only [List.mem_cons, List.not_mem_nil, or_false] at listed
    simp only [Place.symbols, List.mem_singleton]
    tauto

/-- The block of an operator loads the stack pointer, and the labels it defines if it compares. -/
theorem symbols_operatorBlock (serial : Nat) (operator : Operator) :
    (∀ symbol ∈ (operatorBlock serial operator).filterMap Line.symbol?,
        symbol.Loadable (operatorBlock serial operator)) ∧
      (operatorBlock serial operator).filterMap Line.label? =
        marks (List.range' serial (Command.arithmetic operator).labels) ∧
      statics (operatorBlock serial operator) = [] := by
  refine ⟨?_, by cases operator <;> rfl, by cases operator <;> rfl⟩
  intro symbol listed
  cases operator with
  | add | sub | neg | and | or | not =>
    change symbol ∈ [.pointer .stack] at listed
    obtain rfl := List.mem_singleton.mp listed
    trivial
  | eq | gt | lt =>
    change symbol ∈ [.pointer .stack, .label serial .holds, .label serial .fails,
      .pointer .stack] at listed
    simp only [List.mem_cons, List.not_mem_nil, or_false] at listed
    rcases listed with rfl | rfl | rfl | rfl
    · trivial
    · simp [Symbol.Loadable, operatorBlock, compareBlock]
    · simp [Symbol.Loadable, operatorBlock, compareBlock]
    · trivial

end Assembly

open Assembly

variable {qualifier : String} {comments : Bool} {serial : Nat} {command : Command}
  {commands : List Command} {body lines : List Line}

/-- The block of a command loads symbols that it can load, defines the labels of its number if it
compares, and uses the static variable of its command. -/
theorem symbols_block (made : command.block qualifier serial = .ok body) :
    (∀ symbol ∈ body.filterMap Line.symbol?, symbol.Loadable body) ∧
      body.filterMap Line.label? = marks (List.range' serial command.labels) ∧
      statics body = (StackMachine.static? command).toList.map (qualifier, ·) := by
  cases command with
  | arithmetic operator =>
    obtain rfl := Except.ok.inj made
    exact symbols_operatorBlock serial operator
  | push segment index =>
    obtain ⟨found, loadable, placed, rfl⟩ := block_push made
    obtain ⟨symbols, labels⟩ := symbols_pushBlock found
    refine ⟨?_, labels, ?_⟩
    · intro symbol listed
      rw [symbols, List.mem_append, List.mem_singleton] at listed
      rcases listed with own | rfl
      · exact loadable_of_placed placed loadable _ symbol own
      · trivial
    · rw [statics, symbols, List.filterMap_append, static?_of_placed placed]
      exact List.append_nil _
  | pop segment index =>
    obtain ⟨found, loadable, placed, popped⟩ := block_pop made
    obtain ⟨symbols, used, labels⟩ := symbols_popBlock popped
    refine ⟨?_, labels, ?_⟩
    · intro symbol listed
      rcases symbols symbol listed with own | rfl | rfl
      · exact loadable_of_placed placed loadable _ symbol own
      · trivial
      · exact (by decide : 13 < 16)
    · rw [used, static?_of_placed placed]
      cases segment <;> rfl

/-- How many label numbers commands use up. -/
def labelTotal : List Command → Nat
  | [] => 0
  | command :: rest => command.labels + labelTotal rest

/-- The labels of a listing are numbered in order, two to a comparison. -/
theorem labels_listing (listed : listing qualifier comments serial commands = .ok lines) :
    lines.filterMap Line.label? = marks (List.range' serial (labelTotal commands)) := by
  induction commands generalizing serial lines with
  | nil =>
    obtain rfl := Except.ok.inj listed
    rfl
  | cons command rest ih =>
    obtain ⟨body, later, made, others, rfl⟩ := listing_cons listed
    have first := (symbols_block made).2.1
    have second := ih others
    rw [List.filterMap_append, filterMap_label?_frame, first, second, labelTotal, marks, marks,
      ← List.flatMap_append, List.range'_append_1]
    rfl

/-- Every symbol of a listing can be loaded in it. -/
theorem loadable_listing (listed : listing qualifier comments serial commands = .ok lines) :
    ∀ symbol ∈ lines.filterMap Line.symbol?, symbol.Loadable lines := by
  induction commands generalizing serial lines with
  | nil =>
    obtain rfl := Except.ok.inj listed
    simp
  | cons command rest ih =>
    obtain ⟨body, later, made, others, rfl⟩ := listing_cons listed
    intro symbol found
    rw [List.filterMap_append, filterMap_symbol?_frame, List.mem_append] at found
    rcases found with first | second
    · have here : symbol.Loadable body := (symbols_block made).1 symbol first
      have inside : body ⊆ Emitter.frame comments command.text body ++ later := fun line inBody =>
        List.mem_append_left later (subset_frame comments command.text body inBody)
      exact here.mono inside
    · have there : symbol.Loadable later := ih others symbol second
      exact there.mono (List.subset_append_right _ later)

/-- The listing of commands is well-formed. -/
theorem wellFormed_listing (listed : listing qualifier comments serial commands = .ok lines) :
    WellFormed lines where
  labels := by
    rw [labels_listing listed]
    exact nodup_marks List.nodup_range'
  symbols := loadable_listing listed

/-- The static variables of a listing are those of its commands. -/
theorem statics_listing (listed : listing qualifier comments serial commands = .ok lines) :
    statics lines = (commands.filterMap StackMachine.static?).map (qualifier, ·) := by
  induction commands generalizing serial lines with
  | nil =>
    obtain rfl := Except.ok.inj listed
    rfl
  | cons command rest ih =>
    obtain ⟨body, later, made, others, rfl⟩ := listing_cons listed
    have first := (symbols_block made).2.2
    have framed : statics (Emitter.frame comments command.text body) = statics body := by
      rw [statics, filterMap_symbol?_frame, ← statics]
    rw [statics_append, framed, first, ih others, List.filterMap_cons]
    cases StackMachine.static? command <;> rfl

/-- The cells that the assembler gives to the static variables of a listing. -/
theorem addressIn_static (listed : listing qualifier comments serial commands = .ok lines)
    (index : Nat) :
    BitVec.ofNat 16 (addressIn lines (.static qualifier index)) =
      StackMachine.staticCell commands index := by
  have injective : Function.Injective fun index : Nat => (qualifier, index) :=
    fun left right same => congrArg Prod.snd same
  rw [addressIn, statics_listing listed, Assembler.eraseDups_map injective,
    Assembler.idxOf_map injective _ index, StackMachine.staticCell]

end HackVm
