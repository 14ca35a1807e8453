import HackVm.Proofs.Session
import HackVm.Proofs.Symbols

/-!
# Labels over whole sessions

An emitter numbers its comparisons, and each comparison defines two labels and refers to both.
Whatever requests were served before, accepted or refused, the labels of the output are numbered
from zero without a gap: each is defined once, referred to once, and referred to in the block that
defines it, before the definition and right before a jump. No other line can be mistaken for a
reference, because no number, register or static variable has the text of a label, whatever the
qualifier is. `labels_listing` and `references_listing` say that a listing refers to the same
labels as it defines, in the same order; what is said of text follows from what is said of lines.
-/
namespace HackVm

namespace Assembly

/-- The number and branch of a label. -/
def Symbol.label? : Symbol → Option (Nat × Branch)
  | label serial branch => some (serial, branch)
  | _ => none

/-- The labels a listing refers to, in order. -/
def references (listing : List Line) : List (Nat × Branch) :=
  (listing.filterMap Line.symbol?).filterMap Symbol.label?

/-- The references of two listings one after the other. -/
theorem references_append (front back : List Line) :
    references (front ++ back) = references front ++ references back := by
  simp [references]

/-- The character that tells comments, loads and labels from instructions that compute. -/
def Line.sign? : Line → Option Char
  | comment _ => some '/'
  | load _ => some '@'
  | label _ _ => some '('
  | blank | assign _ _ | jump _ _ => none

/-- Whether a line is an instruction or a label, and neither empty nor a comment. -/
def Line.isCode : Line → Bool
  | comment _ | blank => false
  | load _ | assign _ _ | jump _ _ | label _ _ => true

/-- A line begins with a sign exactly when the sign is its own. -/
theorem Line.head?_text_eq_some_iff {line : Line} {sign : Char} (listed : sign ∈ ['/', '@', '(']) :
    line.text.toList.head? = some sign ↔ line.sign? = some sign := by
  simp only [List.mem_cons, List.not_mem_nil, or_false] at listed
  cases line with
  | comment remark => simp [text, sign?]
  | blank => simp [text, sign?]
  | load symbol => simp [text, sign?]
  | assign target value =>
    rcases listed with rfl | rfl | rfl <;> cases target <;> simp [text, sign?, Target.text]
  | jump value condition =>
    rcases listed with rfl | rfl | rfl <;> cases value <;> simp [text, sign?, Value.text]
  | label serial branch => simp [text, sign?]

/-- Only an empty line has no text. -/
theorem Line.text_eq_empty_iff {line : Line} : line.text = "" ↔ line = .blank := by
  cases line with
  | comment remark => simp [text]
  | blank => simp [text]
  | load symbol => simp [text]
  | assign target value => cases target <;> simp [text, Target.text]
  | jump value condition => cases value <;> simp [text, Value.text]
  | label serial branch => simp [text]

/-- No other symbol has the name of a label. -/
theorem Symbol.name_eq_label_iff {symbol : Symbol} {serial : Nat} {branch : Branch} :
    symbol.name = (Symbol.label serial branch).name ↔ symbol = .label serial branch := by
  constructor
  · intro same
    obtain ⟨numeral, known⟩ := Assembler.lookup_label serial branch
    rw [← same] at numeral known
    cases symbol with
    | number value =>
      have read : Assembler.number? (Symbol.number value).name = some value := by
        simpa [name, text] using Assembler.number?_toDigits value
      rw [read] at numeral
      contradiction
    | pointer cell =>
      rw [(Assembler.lookup_pointer cell).2] at known
      contradiction
    | register cell =>
      -- A register begins with a letter and a label with a digit.
      rw [name_label] at same
      cases digits : Nat.toDigits 10 serial with
      | nil => exact absurd digits Nat.toDigits_ne_nil
      | cons first rest =>
        have digit : first.isDigit := Nat.isDigit_of_mem_toDigits (b := 10) (n := serial)
          (by decide) (by decide) (by rw [digits]; exact List.mem_cons_self)
        have letter : first = 'R' := by
          simpa [name, text, digits] using (congrArg List.head? same).symm
        rw [letter] at digit
        exact absurd digit (by decide)
    | label other way =>
      obtain ⟨rfl, rfl⟩ := name_label_injective same
      rfl
    | static qualifier index =>
      -- A static variable has a full stop and a label has none.
      have stop : '.' ∈ (Symbol.static qualifier index).name := by
        rw [name_static]
        simp
      rw [same, name_label, List.mem_append] at stop
      rcases stop with digits | mark
      · exact absurd digits (stop_notMem_toDigits serial)
      · cases branch <;> simp [Branch.mark] at mark
  · rintro rfl
    rfl

/-- The text that refers to a label. -/
theorem Line.text_load_label (serial : Nat) (branch : Branch) :
    (Line.load (.label serial branch)).text = "@" ++ serial.repr ++ branch.letter :=
  String.append_assoc.symm

/-- The text that defines a label. -/
theorem Line.text_label (serial : Nat) (branch : Branch) :
    (Line.label serial branch).text = "(" ++ serial.repr ++ branch.letter ++ ")" := by
  simp only [text, Symbol.text, String.append_assoc]

/-- Different labels are defined by different texts. -/
theorem Line.text_label_injective {serial serial' : Nat} {branch branch' : Branch}
    (same : (Line.label serial branch).text = (Line.label serial' branch').text) :
    serial = serial' ∧ branch = branch' := by
  have read := congrArg Assembler.statement? same
  simp only [Assembler.statement?_text, Line.statement, Option.some.injEq,
    Assembler.Statement.label.injEq] at read
  exact Symbol.name_label_injective read

/-- Only the line that loads a label has the text that refers to it. -/
theorem Line.text_eq_reference_iff {line : Line} {serial : Nat} {branch : Branch} :
    line.text = "@" ++ serial.repr ++ branch.letter ↔ line = .load (.label serial branch) := by
  rw [← text_load_label]
  constructor
  · intro same
    have signed : line.sign? = some '@' := by
      rw [← head?_text_eq_some_iff (by decide), same]
      simp [text]
    cases line with
    | load symbol =>
      have named : symbol.text = (Symbol.label serial branch).text :=
        (String.append_right_inj "@").mp same
      rw [Symbol.name_eq_label_iff.mp (congrArg String.toList named)]
    | comment | blank | assign | jump | label => simp [sign?] at signed
  · rintro rfl
    rfl

/-- The text of a listing refers to a label as often as its lines do. -/
theorem count_reference (lines : List Line) (serial : Nat) (branch : Branch) :
    (lines.map (·.text)).count ("@" ++ serial.repr ++ branch.letter) =
      (references lines).count (serial, branch) := by
  have loads (line : Line) : line = .load (.label serial branch) ↔
      (line.symbol?.bind Symbol.label?) = some (serial, branch) := by
    cases line with
    | load symbol => cases symbol <;> simp [Line.symbol?, Symbol.label?]
    | comment | blank | assign | jump | label => simp [Line.symbol?]
  rw [references, List.filterMap_filterMap, List.count_filterMap, List.count, List.countP_map]
  refine List.countP_congr fun line _ => ?_
  rw [Function.comp_apply, beq_iff_eq, beq_iff_eq, Line.text_eq_reference_iff]
  exact loads line

/-- The lines of a text that begin with a round bracket are those that define labels. -/
theorem filter_definition (lines : List Line) :
    (lines.map (·.text)).filter (fun text => text.toList.head? = some '(') =
      (lines.filterMap Line.label?).map fun label =>
        "(" ++ label.1.repr ++ label.2.letter ++ ")" := by
  induction lines with
  | nil => rfl
  | cons line rest ih =>
    rw [List.map_cons, List.filter_cons, ih, List.filterMap_cons]
    simp only [Line.head?_text_eq_some_iff (show '(' ∈ ['/', '@', '('] by decide)]
    cases line with
    | label serial branch => simp [Line.sign?, Line.label?, Line.text_label]
    | comment | blank | load | assign | jump => simp [Line.sign?, Line.label?]

/-- The jumps that may stand behind a reference to a label. -/
def Branch.jumps : Branch → List String
  | holds => ["D;JEQ", "D;JGT", "D;JLT"]
  | fails => ["0;JMP"]

/-- The block of a comparison refers to each of its labels right before a jump, and defines the
label behind it. -/
theorem reference_operatorBlock {operator : Operator} (compares : operator.isComparison = true)
    (serial : Nat) (branch : Branch) :
    ∃ early jump middle late,
      operatorBlock serial operator =
          early ++ .load (.label serial branch) :: jump ::
            (middle ++ .label serial branch :: late) ∧
        jump.text ∈ branch.jumps := by
  have parts (condition : Condition)
      (listed : (Line.jump .d condition).text ∈ Branch.jumps .holds) :
      ∃ early jump middle late,
        compareBlock serial condition =
            early ++ .load (.label serial branch) :: jump ::
              (middle ++ .label serial branch :: late) ∧
          jump.text ∈ branch.jumps := by
    cases branch with
    | holds =>
      exact ⟨popData ++ [.assign .a .aMinusOne, .assign .d .mMinusD], .jump .d condition,
        [.assign .d .zero, .load (.label serial .fails), .jump .zero .always], _, rfl, listed⟩
    | fails =>
      exact ⟨popData ++ [.assign .a .aMinusOne, .assign .d .mMinusD, .load (.label serial .holds),
          .jump .d condition, .assign .d .zero], .jump .zero .always,
        [.label serial .holds, .assign .d .minusOne], _, rfl, by decide⟩
  cases operator with
  | eq => exact parts .zero (by decide)
  | gt => exact parts .positive (by decide)
  | lt => exact parts .negative (by decide)
  | add | sub | neg | and | or | not => contradiction

end Assembly

open Assembly

variable {qualifier : String} {comments : Bool} {serial : Nat} {command : Command}
  {commands : List Command} {body lines : List Line}

/-- A place is not found by a label. -/
theorem label?_of_placed {segment : Segment} {index : Nat} {found : Place}
    (placed : Placed qualifier segment index found) :
    found.symbols.filterMap Symbol.label? = [] := by
  cases placed <;> rfl

/-- The block of a command refers to the labels of its number if it compares, and to no others. -/
theorem references_block (made : command.block qualifier serial = .ok body) :
    references body = marks (List.range' serial command.labels) := by
  cases command with
  | arithmetic operator =>
    obtain rfl := Except.ok.inj made
    cases operator <;> rfl
  | push segment index =>
    obtain ⟨found, -, placed, rfl⟩ := block_push made
    rw [references, (symbols_pushBlock found).1, List.filterMap_append, label?_of_placed placed]
    rfl
  | pop segment index =>
    obtain ⟨found, -, placed, popped⟩ := block_pop made
    have unlabelled := List.filterMap_eq_nil_iff.mp (label?_of_placed placed)
    refine List.filterMap_eq_nil_iff.mpr fun symbol listed => ?_
    rcases (symbols_popBlock popped).1 symbol listed with own | rfl | rfl
    · exact unlabelled symbol own
    · rfl
    · rfl

/-- A listing refers to the labels that it defines, in the same order. -/
theorem references_listing (listed : listing qualifier comments serial commands = .ok lines) :
    references lines = marks (List.range' serial (labelTotal commands)) := by
  induction commands generalizing serial lines with
  | nil =>
    obtain rfl := Except.ok.inj listed
    rfl
  | cons command rest ih =>
    obtain ⟨body, later, made, others, rfl⟩ := listing_cons listed
    have framed : references (Emitter.frame comments command.text body) = references body := by
      rw [references, filterMap_symbol?_frame, ← references]
    rw [references_append, framed, references_block made, ih others, labelTotal, marks, marks,
      ← List.flatMap_append, List.range'_append_1]
    rfl

/-- No line of a block is empty or a comment. -/
theorem isCode_of_block (made : command.block qualifier serial = .ok body) :
    ∀ line ∈ body, line.isCode = true := by
  rw [← List.all_eq_true]
  cases command with
  | arithmetic operator =>
    obtain rfl := Except.ok.inj made
    cases operator <;> rfl
  | push segment index =>
    obtain ⟨found, -, -, rfl⟩ := block_push made
    cases found <;> rfl
  | pop segment index =>
    obtain ⟨found, -, -, popped⟩ := block_pop made
    cases found with
    | literal value => contradiction
    | based base offset =>
      obtain rfl := Except.ok.inj popped
      rfl
    | direct symbol =>
      obtain rfl := Except.ok.inj popped
      rfl

/-- No block has an empty line. -/
theorem blank_notMem_block (made : command.block qualifier serial = .ok body) : .blank ∉ body :=
  fun inside => Bool.false_ne_true (isCode_of_block made .blank inside)

/-- Empty lines separate the blocks of a listing, and before a block there is at most a comment. -/
theorem splitOn_frame (made : command.block qualifier serial = .ok body) (comments : Bool)
    (remark : String) (later : List Line) :
    ∃ opening : List Line, opening ⊆ [.comment remark] ∧
      ((Emitter.frame comments remark body ++ later).map (·.text)).splitOn "" =
        (opening ++ body).map (·.text) :: (later.map (·.text)).splitOn "" := by
  have framed : ∃ opening : List Line, opening ⊆ [.comment remark] ∧
      Emitter.frame comments remark body = opening ++ body ++ [.blank] :=
    ⟨if comments then [.comment remark] else [], by cases comments <;> simp, rfl⟩
  obtain ⟨opening, plain, framed⟩ := framed
  have solid : "" ∉ (opening ++ body).map (·.text) := by
    intro empty
    obtain ⟨line, listed, blank⟩ := List.mem_map.mp empty
    rw [Line.text_eq_empty_iff] at blank
    subst blank
    rcases List.mem_append.mp listed with before | inside
    · exact absurd (plain before) (by simp)
    · exact blank_notMem_block made inside
  have parts : (Emitter.frame comments remark body ++ later).map (·.text) =
      (opening ++ body).map (·.text) ++ "" :: later.map (·.text) := by
    rw [framed, List.map_append, List.map_append, List.append_assoc]
    rfl
  exact ⟨opening, plain, by rw [parts, List.splitOn_append_cons_self_of_not_mem solid]⟩

/-- Every label number of a listing is that of a comparison whose block stands between two empty
lines of the text. -/
theorem block_of_label (listed : listing qualifier comments serial commands = .ok lines)
    {number : Nat} (low : serial ≤ number) (high : number < serial + labelTotal commands) :
    ∃ block ∈ (lines.map (·.text)).splitOn "", ∃ opening operator,
      operator.isComparison = true ∧
        block = (opening ++ operatorBlock number operator).map (·.text) := by
  induction commands generalizing serial lines with
  | nil =>
    rw [labelTotal] at high
    omega
  | cons command rest ih =>
    obtain ⟨body, later, made, others, rfl⟩ := listing_cons listed
    obtain ⟨opening, -, pieces⟩ := splitOn_frame made comments command.text later
    rw [pieces]
    by_cases here : number < serial + command.labels
    · refine ⟨_, List.mem_cons_self, ?_⟩
      cases command with
      | push segment index | pop segment index =>
        rw [Command.labels] at here
        omega
      | arithmetic operator =>
        obtain rfl := Except.ok.inj made
        cases compares : operator.isComparison with
        | false =>
          rw [Command.labels, compares, if_neg Bool.false_ne_true] at here
          omega
        | true =>
          rw [Command.labels, compares, if_pos rfl] at here
          obtain rfl : number = serial := by omega
          exact ⟨opening, operator, compares, rfl⟩
    · rw [labelTotal] at high
      obtain ⟨block, inside, shape⟩ := ih others (by omega) (by omega)
      exact ⟨block, List.mem_cons_of_mem _ inside, shape⟩

/-- The lines of a listing that begin with a round bracket define its labels in order. -/
theorem definitions_listing (listed : listing qualifier comments 0 commands = .ok lines) :
    (lines.map (·.text)).filter (fun text => text.toList.head? = some '(') =
      (List.range (labelTotal commands)).flatMap fun serial =>
        ["(" ++ serial.repr ++ "T)", "(" ++ serial.repr ++ "F)"] := by
  rw [filter_definition, labels_listing listed, ← List.range_eq_range', marks, List.map_flatMap]
  refine List.flatMap_congr fun serial _ => ?_
  simp only [List.map_cons, List.map_nil, Branch.letter, String.append_assoc]
  rfl

/-- No line of a listing that begins with a round bracket is repeated. -/
theorem nodup_definitions (listed : listing qualifier comments serial commands = .ok lines) :
    ((lines.map (·.text)).filter fun text => text.toList.head? = some '(').Nodup := by
  rw [filter_definition]
  refine (wellFormed_listing listed).labels.map fun left right same => ?_
  simp only [← Line.text_label] at same
  obtain ⟨serials, branches⟩ := Line.text_label_injective same
  exact Prod.ext serials branches

/-- Each label of a listing is referred to on one line, and no other label is. -/
theorem count_reference_listing (listed : listing qualifier comments 0 commands = .ok lines)
    (number : Nat) (branch : Branch) :
    (lines.map (·.text)).count ("@" ++ number.repr ++ branch.letter) =
      if number < labelTotal commands then 1 else 0 := by
  rw [count_reference, references_listing listed, ← List.range_eq_range']
  by_cases below : number < labelTotal commands
  · rw [if_pos below]
    exact List.count_eq_one_of_mem (nodup_marks List.nodup_range)
      (mem_marks.mpr (List.mem_range.mpr below))
  · rw [if_neg below]
    refine List.count_eq_zero_of_not_mem fun marked => below ?_
    exact List.mem_range.mp (mem_marks.mp marked)

/-- A label of a listing is referred to in the block that defines it, before its definition and
right before a jump. -/
theorem reference_before_definition
    (listed : listing qualifier comments 0 commands = .ok lines) {number : Nat}
    (below : number < labelTotal commands) (branch : Branch) :
    ∃ block ∈ (lines.map (·.text)).splitOn "", ∃ early jump middle late,
      block = early ++ ("@" ++ number.repr ++ branch.letter) :: jump ::
        (middle ++ ("(" ++ number.repr ++ branch.letter ++ ")") :: late) ∧
      jump ∈ branch.jumps := by
  obtain ⟨block, inside, opening, operator, compares, shape⟩ :=
    block_of_label listed (Nat.zero_le number) (by omega)
  obtain ⟨early, jump, middle, late, parts, jumps⟩ :=
    reference_operatorBlock compares number branch
  refine ⟨block, inside, (opening ++ early).map (·.text), jump.text, middle.map (·.text),
    late.map (·.text), ?_, jumps⟩
  rw [shape, parts, ← List.append_assoc]
  simp only [List.map_append, List.map_cons, Line.text_load_label, Line.text_label]

/-- Whether a command compares two values. -/
def Command.compares : Command → Bool
  | arithmetic operator => operator.isComparison
  | push _ _ | pop _ _ => false

/-- Commands use up one label number for each comparison. -/
theorem labelTotal_eq_countP (commands : List Command) :
    labelTotal commands = commands.countP Command.compares := by
  induction commands with
  | nil => rfl
  | cons command rest ih =>
    rw [labelTotal, ih, List.countP_cons, Nat.add_comm]
    cases command <;> rfl

/-- An emitter that accepts commands has used up their label numbers. -/
theorem labelCount_emitAll {σ : Type} [Sink σ] {emitter after : Emitter σ}
    (accepted : emitter.emitAll commands = (.ok (), after)) :
    after.labelCount = emitter.labelCount + labelTotal commands := by
  induction commands generalizing emitter with
  | nil =>
    obtain rfl := (Prod.mk.inj accepted).2
    rfl
  | cons command rest ih =>
    rw [Emitter.emitAll, Emitter.emit_eq] at accepted
    cases made : command.block emitter.qualifier emitter.labelCount with
    | error error => simp [made] at accepted
    | ok body =>
      rw [made] at accepted
      rw [ih accepted, labelTotal, ← Nat.add_assoc]
      rfl

/-- In the output of every session the label counter is the number of comparisons emitted. The
lines that begin with a round bracket define the labels of the numbers below it, in order and each
once. Each of these labels is referred to on one line, which stands in the block that defines the
label, before its definition and right before a jump. No line refers to a label of another
number. -/
theorem labels_defined_and_used_once (qualifier : String) (comments : Bool)
    (requests : List Emission) :
    let fresh : Emitter (Array String) := Emitter.new qualifier comments #[]
    let count := (fresh.serveAll requests).labelCount
    let output := (fresh.serveAll requests).sink.toList
    count = (fresh.history requests).countP Command.compares ∧
    output.filter (fun line => line.toList.head? = some '(') =
      (List.range count).flatMap (fun serial =>
        ["(" ++ serial.repr ++ "T)", "(" ++ serial.repr ++ "F)"]) ∧
    (output.filter fun line => line.toList.head? = some '(').Nodup ∧
    (∀ serial < count, ∀ branch : Branch,
      output.count ("@" ++ serial.repr ++ branch.letter) = 1 ∧
      ∃ block ∈ output.splitOn "", ∃ early jump middle late,
        block = early ++ ("@" ++ serial.repr ++ branch.letter) :: jump ::
          (middle ++ ("(" ++ serial.repr ++ branch.letter ++ ")") :: late) ∧
        jump ∈ branch.jumps) ∧
    ∀ serial ≥ count, ∀ branch : Branch, "@" ++ serial.repr ++ branch.letter ∉ output := by
  intro fresh count output
  have accepted := Emitter.emitAll_history fresh requests
  obtain ⟨lines, listed, collected⟩ := sink_emitAll rfl accepted
  have counted : count = labelTotal (fresh.history requests) :=
    (labelCount_emitAll accepted).trans (Nat.zero_add _)
  change listing qualifier comments 0 (fresh.history requests) = .ok lines at listed
  change output = lines.map (·.text) at collected
  rw [counted, collected]
  refine ⟨labelTotal_eq_countP _, definitions_listing listed, nodup_definitions listed, ?_, ?_⟩
  · intro serial below branch
    have once := count_reference_listing listed serial branch
    rw [if_pos below] at once
    exact ⟨once, reference_before_definition listed below branch⟩
  · intro serial above branch
    have never := count_reference_listing listed serial branch
    rw [if_neg (Nat.not_lt.mpr above)] at never
    exact List.count_eq_zero.mp never

/-- A refused pop inside a request keeps the number of the comparison before it, and the next
comparison gets the next number, though the qualifier looks like a label. -/
theorem labels_around_refused_pop :
    let fresh : Emitter (Array String) := Emitter.new "1T" false #[]
    let requests : List Emission :=
      [.program [.arithmetic .eq, .push .statics 3, .pop .constant 0, .arithmetic .gt],
        .access .arithmetic .temp 0, .arithmetic .lt]
    (fresh.serveAll requests).labelCount = 2 ∧
      (fresh.serveAll requests).sink.toList.count "@1T" = 1 ∧
      "@2T" ∉ (fresh.serveAll requests).sink.toList := by
  intro fresh requests
  obtain ⟨-, -, -, used, unused⟩ := labels_defined_and_used_once "1T" false requests
  have count : (fresh.serveAll requests).labelCount = 2 := by decide
  exact ⟨count, (used 1 (by rw [count]; decide) .holds).1, unused 2 (Nat.le_of_eq count) .holds⟩

end HackVm
