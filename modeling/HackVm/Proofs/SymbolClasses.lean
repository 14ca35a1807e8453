import HackVm.Proofs.Labels
import HackVm.Proofs.Spelling
import Mathlib.Tactic.IntervalCases

/-!
# The classes of symbols in the output

Every symbol that is loaded in the output belongs to one of four classes: numerals that can be
loaded, predefined cells, labels with numbers below the label counter, and the static variables of
the commands. The qualifier is any text and goes into the output as it is, but it cannot make a
static variable look like a symbol of another class, nor like a static variable of another file. The
register that keeps an address is a predefined cell of its own: only pops into a segment with a base
use it, and no cell of the temp segment is the same.
-/
namespace HackVm

open Assembly

/-- The names of the predefined cells that commands need. -/
def predefinedNames : List String :=
  ["SP", "LCL", "ARG", "THIS", "THAT", "R5", "R6", "R7", "R8", "R9", "R10", "R11", "R12", "R13"]

/-- A name is spelled as a symbol of a kind, in the output for commands that use up a number of
labels. -/
def Assembly.SymbolKind.Spelled (qualifier : String) (count : Nat) (commands : List Command)
    (name : String) : SymbolKind → Prop
  | numeral => ∃ value ≤ 32767, name = value.repr
  | predefined => name ∈ predefinedNames
  | label => ∃ serial < count, name = serial.repr ++ "T" ∨ name = serial.repr ++ "F"
  | static => ∃ index ≤ 32767, (.push .statics index ∈ commands ∨ .pop .statics index ∈ commands) ∧
      name = qualifier ++ "." ++ index.repr

/-- Whether a command pops into a segment that is found from its base. -/
def Command.popsFromBase : Command → Bool
  | pop .locals _ | pop .arguments _ | pop .this _ | pop .that _ => true
  | _ => false

/-- A name that is spelled as a symbol of a kind has that kind by its spelling. -/
theorem ofName_of_spelled {qualifier : String} {count : Nat} {commands : List Command}
    {name : String} {kind : SymbolKind} (spelled : kind.Spelled qualifier count commands name) :
    SymbolKind.ofName name.toList = kind := by
  cases kind with
  | numeral =>
    obtain ⟨value, -, rfl⟩ := spelled
    exact SymbolKind.ofName_name (.number value)
  | predefined =>
    have letters : ∀ name ∈ predefinedNames, SymbolKind.ofName name.toList = .predefined := by
      decide
    exact letters name spelled
  | label =>
    obtain ⟨serial, -, rfl | rfl⟩ := spelled
    · exact SymbolKind.ofName_name (.label serial .holds)
    · exact SymbolKind.ofName_name (.label serial .fails)
  | static =>
    obtain ⟨index, -, -, rfl⟩ := spelled
    exact SymbolKind.ofName_name (.static qualifier index)

/-- Static variables have the same text exactly when they have the same qualifier and index. -/
theorem static_text_eq_iff {qualifier qualifier' : String} {index index' : Nat} :
    qualifier ++ "." ++ index.repr = qualifier' ++ "." ++ index'.repr ↔
      qualifier = qualifier' ∧ index = index' := by
  constructor
  · intro same
    exact Symbol.name_static_injective (congrArg String.toList same)
  · rintro ⟨rfl, rfl⟩
    rfl

variable {qualifier : String} {comments : Bool} {serial : Nat} {command : Command}
  {commands : List Command} {body lines : List Line}

/-- A register that is a place is one of the temp segment. -/
theorem register_of_placed {segment : Segment} {index cell : Nat} {found : Place}
    (placed : Placed qualifier segment index found) (loaded : .register cell ∈ found.symbols) :
    5 ≤ cell ∧ cell ≤ 12 := by
  cases placed with
  | temp inside =>
    obtain rfl := Symbol.register.inj (List.mem_singleton.mp loaded)
    have eight : index < 8 := inside
    have five : tempBase = 5 := rfl
    omega
  | constant | locals | arguments | this | that | pointerThis | pointerThat | statics =>
    simp [Place.symbols] at loaded

/-- A register that the block of a push loads is one of the temp segment. -/
theorem register_of_pushBlock {segment : Segment} {index cell : Nat} {found : Place}
    (placed : Placed qualifier segment index found)
    (loaded : .register cell ∈ (pushBlock found).filterMap Line.symbol?) :
    5 ≤ cell ∧ cell ≤ 12 := by
  rw [(symbols_pushBlock found).1, List.mem_append, List.mem_singleton] at loaded
  rcases loaded with own | stack
  · exact register_of_placed placed own
  · contradiction

/-- The block of an operator loads no register. -/
theorem register_notMem_operatorBlock (serial cell : Nat) (operator : Operator) :
    .register cell ∉ (operatorBlock serial operator).filterMap Line.symbol? := by
  cases operator with
  | add | sub | neg | and | or | not =>
    change Symbol.register cell ∉ [Symbol.pointer .stack]
    simp
  | eq | gt | lt =>
    change Symbol.register cell ∉ [Symbol.pointer .stack, .label serial .holds,
      .label serial .fails, .pointer .stack]
    simp

/-- The registers that the block of a command loads are those of the temp segment and the one that
keeps an address. -/
theorem register_of_block (made : command.block qualifier serial = .ok body) {cell : Nat}
    (loaded : .register cell ∈ body.filterMap Line.symbol?) : 5 ≤ cell ∧ cell ≤ 13 := by
  cases command with
  | arithmetic operator =>
    obtain rfl := Except.ok.inj made
    exact absurd loaded (register_notMem_operatorBlock serial cell operator)
  | push segment index =>
    obtain ⟨found, -, placed, rfl⟩ := block_push made
    have bounds := register_of_pushBlock placed loaded
    omega
  | pop segment index =>
    obtain ⟨found, -, placed, popped⟩ := block_pop made
    rcases (symbols_popBlock popped).1 _ loaded with own | stack | kept
    · have bounds := register_of_placed placed own
      omega
    · contradiction
    · obtain rfl := Symbol.register.inj kept
      decide

/-- The block of a command loads the register that keeps an address exactly when the command pops
into a segment with a base. -/
theorem scratch_mem_block_iff (made : command.block qualifier serial = .ok body) :
    scratch ∈ body.filterMap Line.symbol? ↔ command.popsFromBase = true := by
  cases command with
  | arithmetic operator =>
    obtain rfl := Except.ok.inj made
    refine ⟨fun loaded => ?_, fun never => absurd never Bool.false_ne_true⟩
    exact absurd loaded (register_notMem_operatorBlock serial 13 operator)
  | push segment index =>
    obtain ⟨found, -, placed, rfl⟩ := block_push made
    refine ⟨fun loaded => ?_, fun never => absurd never Bool.false_ne_true⟩
    have bounds := register_of_pushBlock placed loaded
    omega
  | pop segment index =>
    obtain ⟨found, -, placed, popped⟩ := block_pop made
    cases found with
    | literal value => contradiction
    | based base offset =>
      obtain rfl := Except.ok.inj popped
      have based : (Command.pop segment index).popsFromBase = true := by cases placed <;> rfl
      exact ⟨fun _ => based, fun _ => by simp [Line.symbol?]⟩
    | direct symbol =>
      obtain rfl := Except.ok.inj popped
      have direct : (Command.pop segment index).popsFromBase = false := by cases placed <;> rfl
      rw [direct]
      refine ⟨fun loaded => ?_, fun never => absurd never Bool.false_ne_true⟩
      change scratch ∈ [.pointer .stack, symbol] at loaded
      rcases List.mem_cons.mp loaded with stack | own
      · contradiction
      · have bounds := register_of_placed placed own
        omega

/-- A symbol of a listing is loaded by the block of one of its commands. -/
theorem block_of_symbol (listed : listing qualifier comments serial commands = .ok lines)
    {symbol : Symbol} (loaded : symbol ∈ lines.filterMap Line.symbol?) :
    ∃ command ∈ commands, ∃ serial body, command.block qualifier serial = .ok body ∧
      symbol ∈ body.filterMap Line.symbol? := by
  induction commands generalizing serial lines with
  | nil =>
    obtain rfl := Except.ok.inj listed
    contradiction
  | cons command rest ih =>
    obtain ⟨body, later, made, others, rfl⟩ := listing_cons listed
    rw [List.filterMap_append, filterMap_symbol?_frame, List.mem_append] at loaded
    rcases loaded with first | second
    · exact ⟨command, List.mem_cons_self, serial, body, made, first⟩
    · obtain ⟨found, member, rest⟩ := ih others second
      exact ⟨found, List.mem_cons_of_mem command member, rest⟩

/-- The static variable of a command with a block has an index that can be loaded. -/
theorem static_of_block (made : command.block qualifier serial = .ok body) {index : Nat}
    (uses : StackMachine.static? command = some index) :
    index ≤ 32767 ∧ (command = .push .statics index ∨ command = .pop .statics index) := by
  cases command with
  | arithmetic operator => contradiction
  | push segment found =>
    obtain ⟨-, loadable, -, -⟩ := block_push made
    cases segment with
    | statics =>
      obtain rfl := Option.some.inj uses
      exact ⟨loadable, .inl rfl⟩
    | constant | locals | arguments | this | that | pointer | temp => contradiction
  | pop segment found =>
    obtain ⟨-, loadable, -, -⟩ := block_pop made
    cases segment with
    | statics =>
      obtain rfl := Option.some.inj uses
      exact ⟨loadable, .inr rfl⟩
    | constant | locals | arguments | this | that | pointer | temp => contradiction

/-- Every symbol of a listing is spelled as one of its kind. -/
theorem spelled_listing (listed : listing qualifier comments 0 commands = .ok lines)
    {symbol : Symbol} (loaded : symbol ∈ lines.filterMap Line.symbol?) :
    symbol.kind.Spelled qualifier (labelTotal commands) commands symbol.text := by
  obtain ⟨command, member, serial, body, made, inside⟩ := block_of_symbol listed loaded
  cases symbol with
  | number value =>
    have small : value < 32768 := loadable_listing listed _ loaded
    exact ⟨value, Nat.le_of_lt_succ small, rfl⟩
  | pointer cell =>
    have named : cell.name ∈ predefinedNames := by cases cell <;> decide
    exact named
  | register cell =>
    obtain ⟨low, high⟩ := register_of_block made inside
    have named : "R" ++ cell.repr ∈ predefinedNames := by interval_cases cell <;> decide
    exact named
  | label number branch =>
    have referred : (number, branch) ∈ references lines :=
      List.mem_filterMap.mpr ⟨_, loaded, rfl⟩
    rw [references_listing listed, mem_marks, List.mem_range'_1] at referred
    refine ⟨number, by omega, ?_⟩
    cases branch with
    | holds => exact .inl rfl
    | fails => exact .inr rfl
  | static owner index =>
    have used : (owner, index) ∈ statics body := List.mem_filterMap.mpr ⟨_, inside, rfl⟩
    rw [(symbols_block made).2.2, List.mem_map] at used
    obtain ⟨found, uses, same⟩ := used
    obtain ⟨rfl, rfl⟩ := Prod.mk.inj same
    obtain ⟨small, which⟩ := static_of_block made (Option.mem_toList.mp uses)
    refine ⟨found, small, ?_, rfl⟩
    rcases which with rfl | rfl
    · exact .inl member
    · exact .inr member

/-- A line whose text begins with an at sign loads a symbol. -/
theorem load_of_head? {line : Line} (begins : line.text.toList.head? = some '@') :
    ∃ symbol, line = .load symbol := by
  rw [Line.head?_text_eq_some_iff (by decide)] at begins
  cases line with
  | load symbol => exact ⟨symbol, rfl⟩
  | comment | blank | assign | jump | label => simp [Line.sign?] at begins

/-- Between the empty lines of a listing the register that keeps an address is loaded exactly where
the command pops into a segment with a base. -/
theorem scratch_in_blocks (listed : listing qualifier comments serial commands = .ok lines) :
    List.Forall₂ (fun command block => "@R13" ∈ block ↔ command.popsFromBase = true) commands
      ((lines.map (·.text)).splitOn "").dropLast := by
  induction commands generalizing serial lines with
  | nil =>
    obtain rfl := Except.ok.inj listed
    exact .nil
  | cons command rest ih =>
    obtain ⟨body, later, made, others, rfl⟩ := listing_cons listed
    obtain ⟨opening, remarks, pieces⟩ := splitOn_frame made comments command.text later
    have nonempty : (later.map (·.text)).splitOn "" ≠ [] := List.splitOn_ne_nil _ _
    rw [pieces, List.dropLast_cons_of_ne_nil nonempty]
    refine .cons ?_ (ih others)
    have text : "@R13" = (Line.load scratch).text := rfl
    have plain : Line.load scratch ∉ opening := fun early => absurd (remarks early) (by simp)
    have symbol : Line.load scratch ∈ body ↔ scratch ∈ body.filterMap Line.symbol? := by
      rw [List.mem_filterMap]
      constructor
      · exact fun inside => ⟨_, inside, rfl⟩
      · rintro ⟨line, inside, loads⟩
        cases line with
        | load found => rwa [Option.some.inj loads] at inside
        | comment | blank | assign | jump | label => contradiction
    rw [text, List.mem_map_of_injective Line.text_injective, List.mem_append,
      ← scratch_mem_block_iff made, ← symbol]
    exact ⟨fun inside => inside.resolve_left plain, .inr⟩

/-- Every line of the output that begins with an at sign loads a name of exactly one of four
classes: a numeral, a predefined cell, a label below the counter or a static variable of the
commands. A name is of no two classes, whatever the qualifiers are; static variables have the same
name only if they have the same qualifier and index. The register that keeps an address is loaded
exactly in the blocks of pops into a segment with a base. -/
theorem symbols_never_clash {qualifier : String} {comments : Bool} {commands : List Command}
    {after : Emitter (Array String)}
    (accepted : (Emitter.new qualifier comments #[]).emitAll commands = (.ok (), after)) :
    (∀ line ∈ after.sink.toList, line.toList.head? = some '@' → ∃ name, line = "@" ++ name ∧
      ∃! kind : SymbolKind, kind.Spelled qualifier after.labelCount commands name) ∧
    (∀ (one other : String) (count count' : Nat) (early late : List Command) (name : String)
      (kind kind' : SymbolKind), kind.Spelled one count early name →
        kind'.Spelled other count' late name → kind = kind') ∧
    (∀ (one other : String) (index index' : Nat),
      one ++ "." ++ index.repr = other ++ "." ++ index'.repr ↔ one = other ∧ index = index') ∧
    List.Forall₂ (fun command block => "@R13" ∈ block ↔ command.popsFromBase = true) commands
      (after.sink.toList.splitOn "").dropLast := by
  obtain ⟨lines, listed, collected⟩ := sink_emitAll rfl accepted
  have counted : after.labelCount = labelTotal commands :=
    (labelCount_emitAll accepted).trans (Nat.zero_add _)
  rw [collected, counted]
  refine ⟨?_, ?_, fun _ _ _ _ => static_text_eq_iff, scratch_in_blocks listed⟩
  · intro text member begins
    obtain ⟨line, inside, rfl⟩ := List.mem_map.mp member
    obtain ⟨symbol, rfl⟩ := load_of_head? begins
    have loaded : symbol ∈ lines.filterMap Line.symbol? :=
      List.mem_filterMap.mpr ⟨_, inside, rfl⟩
    have spelled := spelled_listing listed loaded
    refine ⟨symbol.text, rfl, symbol.kind, spelled, ?_⟩
    intro kind also
    exact (ofName_of_spelled also).symm.trans (ofName_of_spelled spelled)
  · intro one other count count' early late name kind kind' here there
    exact (ofName_of_spelled here).symm.trans (ofName_of_spelled there)

/-- With the name of the register that keeps an address for a qualifier, a static variable still has
a name of its own. -/
theorem symbols_never_clash_with_scratch :
    let commands : List Command := [.pop .statics 13, .pop .temp 7, .pop .locals 0, .arithmetic .lt]
    let after := ((Emitter.new "R13" true (#[] : Array String)).emitAll commands).2
    "@R13.13" ∈ after.sink.toList ∧
      ∃! kind : SymbolKind, kind.Spelled "R13" after.labelCount commands "R13.13" := by
  intro commands after
  have accepted :
      (Emitter.new "R13" true (#[] : Array String)).emitAll commands = (.ok (), after) :=
    rfl
  have member : "@R13.13" ∈ after.sink.toList := by decide
  obtain ⟨name, same, unique⟩ := (symbols_never_clash accepted).1 _ member (by decide)
  obtain rfl : "R13.13" = name := (String.append_right_inj "@").mp same
  exact ⟨member, unique⟩

end HackVm
