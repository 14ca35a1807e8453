import HackVm.Proofs.Emission
import HackVm.Proofs.Machine.Listing
import HackVm.Proofs.StackMachine
import Mathlib.Data.BitVec

/-!
# Running emitted blocks

Each block of instructions that an emitter emits does to memory what its command does on the stack
machine. The blocks are taken apart the way they are built: `perform_fetch` and
`memory_perform_pushData` say what the shared stretches do, and `reaches_block` puts them together,
with the two jumps of a comparison. A block is looked at where it stands in a listing, because the
addresses of its labels and variables depend on the whole listing.
-/
namespace HackVm.Assembly

/-- The state after lines that do not jump, with the addresses of a listing. -/
def perform (whole : List Line) (lines : List Line) (machine : Machine) : Machine :=
  (lines.flatMap (Line.code (addressIn whole))).foldl Machine.execute machine

/-- Whether a line is always followed by the next one. -/
def Line.falls : Line → Bool
  | jump _ _ => false
  | comment _ | blank | load _ | assign _ _ | label _ _ => true

/-- Lines that do not jump are instructions that do not jump. -/
theorem all_falls_code {lines : List Line} (address : Symbol → Nat)
    (falls : lines.all Line.falls) : (lines.flatMap (Line.code address)).all Instruction.falls := by
  rw [List.all_flatMap, List.all_eq_true]
  intro line listed
  have straight := List.all_eq_true.mp falls line listed
  cases line with
  | jump value condition => contradiction
  | comment remark => rfl
  | blank => rfl
  | load symbol => rfl
  | assign target value => rfl
  | label serial branch => rfl

variable (whole : List Line) (machine : Machine)

/-- Lines in two parts are performed one part after the other. -/
theorem perform_append (front back : List Line) :
    perform whole (front ++ back) machine = perform whole back (perform whole front machine) := by
  simp [perform]

/-- Pushing the data register raises the stack pointer and then stores. -/
theorem memory_perform_pushData :
    (perform whole pushData machine).memory =
      Function.update (Function.update machine.memory 0 (machine.memory 0 + 1))
        (machine.memory 0) machine.d := by
  simp [perform, pushData]

/-- The word at a place. -/
def Place.value (memory : Memory) : Place → Word
  | literal value => BitVec.ofNat 16 value
  | based base offset => memory (memory (BitVec.ofNat 16 base.cell) + BitVec.ofNat 16 offset)
  | direct symbol => memory (BitVec.ofNat 16 (addressIn whole symbol))

/-- Fetching a place loads its word into the data register and leaves memory alone. -/
theorem perform_fetch (place : Place) :
    (perform whole (fetch place) machine).memory = machine.memory ∧
      (perform whole (fetch place) machine).d = place.value whole machine.memory := by
  cases place <;> simp [perform, fetch, Place.value]

/-- Pushing a place raises the stack pointer and then stores the word at the place. -/
theorem memory_perform_pushBlock (place : Place) :
    (perform whole (pushBlock place) machine).memory =
      Function.update (Function.update machine.memory 0 (machine.memory 0 + 1))
        (machine.memory 0) (place.value whole machine.memory) := by
  obtain ⟨unchanged, fetched⟩ := perform_fetch whole machine place
  rw [pushBlock, perform_append, memory_perform_pushData, unchanged, fetched]

/-- Popping into a cell at an offset keeps its address, lowers the stack pointer and then moves the
top of the stack into the cell. -/
theorem memory_perform_popBased {base : Pointer} {offset : Nat} {body : List Line}
    (popped : popBlock (.based base offset) = .ok body) :
    (perform whole body machine).memory =
      let cell := machine.memory (BitVec.ofNat 16 base.cell) + BitVec.ofNat 16 offset
      let lowered := Function.update (Function.update machine.memory 13 cell) 0
        (machine.memory 0 - 1)
      Function.update lowered cell (lowered (machine.memory 0 - 1)) := by
  obtain rfl := Except.ok.inj popped
  simp [perform, popData, scratch]

/-- Popping into a symbol lowers the stack pointer and then moves the top of the stack into the
cell of the symbol. -/
theorem memory_perform_popDirect {symbol : Symbol} {body : List Line}
    (popped : popBlock (.direct symbol) = .ok body) :
    (perform whole body machine).memory =
      let lowered := Function.update machine.memory 0 (machine.memory 0 - 1)
      Function.update lowered (BitVec.ofNat 16 (addressIn whole symbol))
        (lowered (machine.memory 0 - 1)) := by
  obtain rfl := Except.ok.inj popped
  simp [perform, popData]

/-- The block of an operator that does not compare does what the operator does. -/
theorem memory_perform_operatorBlock {operator : Operator} (plain : operator.isComparison = false)
    (serial : Nat) (statics : Nat → Word) :
    (perform whole (operatorBlock serial operator) machine).memory =
      StackMachine.step statics machine.memory (.arithmetic operator) := by
  have lower : machine.memory 0 - 1 - 1 = machine.memory 0 - 2 := by bv_omega
  cases operator with
  | eq | gt | lt => contradiction
  | not | neg => simp [perform, operatorBlock, unaryBlock, StackMachine.step, StackMachine.action]
  | add | sub | and | or =>
    simp_all [perform, operatorBlock, binaryBlock, popData, StackMachine.step,
      StackMachine.action, BitVec.add_comm, BitVec.and_comm, BitVec.or_comm]

variable {whole machine}

/-- Lines that do not jump are performed where they stand. -/
theorem reaches_perform {program : List Instruction} {lines : List Line}
    (located : Machine.Located program machine.counter
      (lines.flatMap (Line.code (addressIn whole)))) (falls : lines.all Line.falls) :
    Machine.Reaches program machine (perform whole lines machine) ∧
      (perform whole lines machine).counter = machine.counter + size lines := by
  have straight := all_falls_code (addressIn whole) falls
  refine ⟨Machine.reaches_straight located straight, ?_⟩
  rw [perform, Machine.counter_foldl_execute straight, length_flatMap_code]

/-- The lines of a comparison up to its first jump. -/
def compareOpening (serial : Nat) : List Line :=
  popData ++ [.assign .a .aMinusOne, .assign .d .mMinusD, .load (.label serial .holds)]

/-- The lines of a comparison between its two jumps. -/
def compareFailing (serial : Nat) : List Line :=
  [.assign .d .zero, .load (.label serial .fails)]

/-- The lines of a comparison behind its second jump, up to its second label. -/
def compareHolding (serial : Nat) : List Line :=
  [.label serial .holds, .assign .d .minusOne]

/-- The lines of a comparison behind its labels. -/
def compareClosing : List Line :=
  [.load (.pointer .stack), .assign .a .mMinusOne, .assign .m .d]

/-- A comparison is its opening, a jump on the condition, the lines for failure, a jump over the
line for success, and its closing. -/
theorem compareBlock_eq (serial : Nat) (condition : Condition) :
    compareBlock serial condition =
      compareOpening serial ++ ([.jump .d condition] ++ (compareFailing serial ++
        ([.jump .zero .always] ++ (compareHolding serial ++
          ([.label serial .fails] ++ compareClosing))))) := rfl

/-- The closing of a comparison stores the data register below the stack pointer. -/
theorem memory_perform_compareClosing (whole : List Line) (machine : Machine) :
    (perform whole compareClosing machine).memory =
      Function.update machine.memory (machine.memory 0 - 1) machine.d := by
  simp [perform, compareClosing]

/-- The opening of a comparison lowers the stack pointer, leaves the difference of the operands in
the data register and points at the way out for success. -/
theorem perform_compareOpening (whole : List Line) (machine : Machine) (serial : Nat) :
    let lowered := Function.update machine.memory 0 (machine.memory 0 - 1)
    (perform whole (compareOpening serial) machine).memory = lowered ∧
      (perform whole (compareOpening serial) machine).d =
        lowered (machine.memory 0 - 2) - lowered (machine.memory 0 - 1) ∧
      (perform whole (compareOpening serial) machine).a =
        BitVec.ofNat 16 (addressIn whole (.label serial .holds)) := by
  have lower : machine.memory 0 - 1 - 1 = machine.memory 0 - 2 := by bv_omega
  simp_all [perform, compareOpening, popData]

/-- The lines for failure leave zero in the data register and point at the way out. -/
theorem perform_compareFailing (whole : List Line) (machine : Machine) (serial : Nat) :
    (perform whole (compareFailing serial) machine).memory = machine.memory ∧
      (perform whole (compareFailing serial) machine).d = 0 ∧
      (perform whole (compareFailing serial) machine).a =
        BitVec.ofNat 16 (addressIn whole (.label serial .fails)) := by
  simp [perform, compareFailing]

/-- The lines for success leave minus one in the data register. -/
theorem perform_compareHolding (whole : List Line) (machine : Machine) (serial : Nat) :
    (perform whole (compareHolding serial) machine).memory = machine.memory ∧
      (perform whole (compareHolding serial) machine).d = -1 := by
  simp [perform, compareHolding]

/-- A jump goes to the address that the address register points at when its condition is met, and
on to the next line otherwise. -/
theorem reaches_jump {program : List Instruction} {value : Value} {condition : Condition}
    {more : List Instruction} {address : Nat}
    (located : Machine.Located program machine.counter
      ([.jump value condition].flatMap (Line.code (addressIn whole)) ++ more))
    (target : machine.a = BitVec.ofNat 16 address) (small : address < 65536) :
    Machine.Reaches program machine
      { machine with
        counter := if condition.jump.taken (value.computation.value machine) then address
          else machine.counter + 1 } := by
  have landing : machine.a.toNat = address := by
    rw [target, BitVec.toNat_ofNat, Nat.mod_eq_of_lt small]
  have reached := Machine.reaches_execute located
  rwa [Machine.execute_jump, landing] at reached

/-- The opening of a comparison and its jump lower the stack pointer and go to the lines for
success or for failure, by the difference of the operands. -/
theorem reaches_compareOpening {program : List Instruction} {serial : Nat} {condition : Condition}
    {more : List Instruction}
    (located : Machine.Located program machine.counter
      ((compareOpening serial).flatMap (Line.code (addressIn whole)) ++
        ([.jump .d condition].flatMap (Line.code (addressIn whole)) ++ more)))
    (holds : addressIn whole (.label serial .holds) = machine.counter + 10)
    (small : machine.counter + 10 < 65536) :
    let lowered := Function.update machine.memory 0 (machine.memory 0 - 1)
    let difference := lowered (machine.memory 0 - 2) - lowered (machine.memory 0 - 1)
    ∃ tested, Machine.Reaches program machine tested ∧
      tested.counter = (if condition.jump.taken difference then machine.counter + 10
        else machine.counter + 7) ∧
      tested.memory = lowered := by
  intro lowered difference
  obtain ⟨opening, counter⟩ := reaches_perform located.left rfl
  obtain ⟨memory, d, a⟩ := perform_compareOpening whole machine serial
  have atJump : Machine.Located program (machine.counter + size (compareOpening serial)) _ :=
    located.right
  generalize perform whole (compareOpening serial) machine = opened at opening counter memory d a
  have tested : (Value.computation .d).value opened = difference := d
  rw [← counter] at atJump
  rw [holds] at a
  have jumped := reaches_jump atJump a small
  rw [tested, counter] at jumped
  exact ⟨_, opening.trans jumped, rfl, memory⟩

/-- The lines for failure and their jump leave zero in the data register and go to the second
label. -/
theorem reaches_compareFailing {program : List Instruction} {serial : Nat}
    {more : List Instruction}
    (located : Machine.Located program machine.counter
      ((compareFailing serial).flatMap (Line.code (addressIn whole)) ++
        ([.jump .zero .always].flatMap (Line.code (addressIn whole)) ++ more)))
    (small : addressIn whole (.label serial .fails) < 65536) :
    ∃ failed, Machine.Reaches program machine failed ∧
      failed.counter = addressIn whole (.label serial .fails) ∧
      failed.memory = machine.memory ∧ failed.d = 0 := by
  obtain ⟨reached, counter⟩ := reaches_perform located.left rfl
  obtain ⟨kept, zero, a⟩ := perform_compareFailing whole machine serial
  have atSkip : Machine.Located program (machine.counter + size (compareFailing serial)) _ :=
    located.right
  generalize perform whole (compareFailing serial) machine = opened at reached counter kept zero a
  rw [← counter] at atSkip
  have skipped := reaches_jump atSkip a small
  exact ⟨_, reached.trans skipped, rfl, kept, zero⟩

/-- The lines for success leave minus one in the data register and go on to the second label. -/
theorem reaches_compareHolding {program : List Instruction} {serial : Nat}
    (located : Machine.Located program machine.counter
      ((compareHolding serial).flatMap (Line.code (addressIn whole)))) :
    ∃ held, Machine.Reaches program machine held ∧ held.counter = machine.counter + 1 ∧
      held.memory = machine.memory ∧ held.d = -1 := by
  obtain ⟨reached, counter⟩ := reaches_perform located rfl
  obtain ⟨kept, minusOne⟩ := perform_compareHolding whole machine serial
  exact ⟨_, reached, counter, kept, minusOne⟩

/-- The closing of a comparison stores the data register below the stack pointer. -/
theorem reaches_compareClosing {program : List Instruction}
    (located : Machine.Located program machine.counter
      (compareClosing.flatMap (Line.code (addressIn whole)))) :
    ∃ finish, Machine.Reaches program machine finish ∧ finish.counter = machine.counter + 3 ∧
      finish.memory = Function.update machine.memory (machine.memory 0 - 1) machine.d := by
  obtain ⟨reached, counter⟩ := reaches_perform located rfl
  exact ⟨_, reached, counter, memory_perform_compareClosing whole machine⟩

/-- A comparison replaces its two operands by minus one when the sign of their wrapped difference
meets the condition, and by zero otherwise. -/
theorem reaches_compareBlock {program : List Instruction} {serial : Nat} {condition : Condition}
    (located : Machine.Located program machine.counter
      ((compareBlock serial condition).flatMap (Line.code (addressIn whole))))
    (holds : addressIn whole (.label serial .holds) = machine.counter + 10)
    (fails : addressIn whole (.label serial .fails) = machine.counter + 11)
    (small : machine.counter + 14 < 65536) :
    let lowered := Function.update machine.memory 0 (machine.memory 0 - 1)
    let difference := lowered (machine.memory 0 - 2) - lowered (machine.memory 0 - 1)
    ∃ finish, Machine.Reaches program machine finish ∧
      finish.counter = machine.counter + 14 ∧
      finish.memory = Function.update lowered (machine.memory 0 - 2)
        (StackMachine.truth (condition.jump.taken difference)) := by
  intro lowered difference
  rw [compareBlock_eq] at located
  simp only [List.flatMap_append] at located
  have atFailing : Machine.Located program (machine.counter + 7) _ := located.right.right
  have atHolding : Machine.Located program (machine.counter + 10) _ := atFailing.right.right
  have atClosing : Machine.Located program (machine.counter + 11) _ := atHolding.right.right
  obtain ⟨tested, opening, counter, lowers⟩ := reaches_compareOpening located holds (by omega)
  -- Both ways lead to the closing, with the result in the data register.
  have answered : ∃ middle, Machine.Reaches program tested middle ∧
      middle.counter = machine.counter + 11 ∧ middle.memory = lowered ∧
      middle.d = StackMachine.truth (condition.jump.taken difference) := by
    cases taken : condition.jump.taken difference with
    | true =>
      have here : tested.counter = machine.counter + 10 := counter.trans (if_pos taken)
      rw [← here] at atHolding
      obtain ⟨held, reached, next, kept, minusOne⟩ := reaches_compareHolding atHolding.left
      exact ⟨held, reached, by omega, kept.trans lowers, minusOne⟩
    | false =>
      have here : tested.counter = machine.counter + 7 :=
        counter.trans (if_neg (Bool.eq_false_iff.mp taken))
      rw [← here] at atFailing
      obtain ⟨failed, reached, target, kept, zero⟩ := reaches_compareFailing atFailing (by omega)
      exact ⟨failed, reached, target.trans fails, kept.trans lowers, zero⟩
  obtain ⟨middle, reached, here, kept, answer⟩ := answered
  rw [← here] at atClosing
  obtain ⟨finish, closing, ended, stored⟩ := reaches_compareClosing atClosing
  refine ⟨finish, (opening.trans reached).trans closing, by omega, ?_⟩
  have below : lowered 0 - 1 = machine.memory 0 - 2 := by
    simp only [lowered, Function.update_self]
    bv_omega
  rw [stored, kept, answer, below]

/-- The cells of the static variables of a file in a listing. -/
def staticsIn (whole : List Line) (qualifier : String) (index : Nat) : Word :=
  BitVec.ofNat 16 (addressIn whole (.static qualifier index))

/-- The place of an index of a segment holds the word at that index. -/
theorem value_of_placed {qualifier : String} {segment : Segment} {index : Nat} {found : Place}
    (placed : Placed qualifier segment index found) (memory : Memory) :
    found.value whole memory =
      StackMachine.value (staticsIn whole qualifier) memory segment index := by
  cases placed <;> rfl

/-- The block of a pop moves the top of the stack into the index of its segment. -/
theorem memory_perform_popBlock {qualifier : String} {segment : Segment} {index : Nat}
    {found : Place} {body : List Line} (placed : Placed qualifier segment index found)
    (popped : popBlock found = .ok body) (machine : Machine) :
    (perform whole body machine).memory =
      StackMachine.step (staticsIn whole qualifier) machine.memory (.pop segment index) := by
  cases placed with
  | constant => contradiction
  | locals | arguments | this | that =>
    rw [memory_perform_popBased whole machine popped]
    rfl
  | temp | pointerThis | pointerThat | statics =>
    rw [memory_perform_popDirect whole machine popped]
    rfl

/-- A comparison is one of the three conditions on the difference of the operands. -/
theorem condition_of_comparison {operator : Operator} (compares : operator.isComparison = true)
    (serial : Nat) :
    ∃ condition : Condition, operatorBlock serial operator = compareBlock serial condition ∧
      StackMachine.action operator =
        .binary fun lower top => StackMachine.truth (condition.jump.taken (lower - top)) := by
  cases operator with
  | eq => exact ⟨.zero, rfl, rfl⟩
  | gt => exact ⟨.positive, rfl, rfl⟩
  | lt => exact ⟨.negative, rfl, rfl⟩
  | add | sub | neg | and | or | not => contradiction

/-- The block of an operator that does not compare does not jump. -/
theorem falls_operatorBlock {operator : Operator} (plain : operator.isComparison = false)
    (serial : Nat) : (operatorBlock serial operator).all Line.falls := by
  cases operator with
  | eq | gt | lt => contradiction
  | add | sub | neg | and | or | not => rfl

/-- The block of a push does not jump. -/
theorem falls_pushBlock (found : Place) : (pushBlock found).all Line.falls := by
  cases found <;> rfl

/-- The block of a pop does not jump. -/
theorem falls_popBlock {found : Place} {body : List Line} (popped : popBlock found = .ok body) :
    body.all Line.falls := by
  cases found with
  | literal value => contradiction
  | based base offset =>
    obtain rfl := Except.ok.inj popped
    rfl
  | direct symbol =>
    obtain rfl := Except.ok.inj popped
    rfl

/-- The block of an operator that compares has fourteen instructions. -/
theorem size_operatorBlock {operator : Operator} (compares : operator.isComparison = true)
    (serial : Nat) : size (operatorBlock serial operator) = 14 := by
  obtain ⟨condition, block, -⟩ := condition_of_comparison compares serial
  simp [block, size, compareBlock, popData, Line.size]

/-- The block of an operator that compares does what the operator does. -/
theorem reaches_comparison {program : List Instruction} {serial : Nat} {operator : Operator}
    (compares : operator.isComparison = true)
    (located : Machine.Located program machine.counter
      ((operatorBlock serial operator).flatMap (Line.code (addressIn whole))))
    (holds : addressIn whole (.label serial .holds) = machine.counter + 10)
    (fails : addressIn whole (.label serial .fails) = machine.counter + 11)
    (small : machine.counter + size (operatorBlock serial operator) < 65536)
    (statics : Nat → Word) :
    ∃ finish, Machine.Reaches program machine finish ∧
      finish.counter = machine.counter + size (operatorBlock serial operator) ∧
      finish.memory = StackMachine.step statics machine.memory (.arithmetic operator) := by
  obtain ⟨condition, block, acts⟩ := condition_of_comparison compares serial
  rw [size_operatorBlock compares] at small ⊢
  rw [block] at located
  obtain ⟨finish, reached, counter, memory⟩ := reaches_compareBlock located holds fails small
  refine ⟨finish, reached, counter, ?_⟩
  rw [memory]
  simp only [StackMachine.step, acts]

/-- The block of a command does to memory what the command does on the stack machine, and ends
behind its last instruction. -/
theorem reaches_block {program : List Instruction} {qualifier : String} {serial : Nat}
    {command : Command} {body : List Line} (made : command.block qualifier serial = .ok body)
    (located : Machine.Located program machine.counter
      (body.flatMap (Line.code (addressIn whole))))
    (labels : command.labels = 1 →
      addressIn whole (.label serial .holds) = machine.counter + 10 ∧
        addressIn whole (.label serial .fails) = machine.counter + 11)
    (small : machine.counter + size body < 65536) :
    ∃ finish, Machine.Reaches program machine finish ∧
      finish.counter = machine.counter + size body ∧
      finish.memory =
        StackMachine.step (staticsIn whole qualifier) machine.memory command := by
  cases command with
  | arithmetic operator =>
    obtain rfl := Except.ok.inj made
    cases compares : operator.isComparison with
    | false =>
      obtain ⟨reached, counter⟩ := reaches_perform located (falls_operatorBlock compares serial)
      exact ⟨_, reached, counter, memory_perform_operatorBlock whole machine compares serial _⟩
    | true =>
      have one : (Command.arithmetic operator).labels = 1 := by rw [Command.labels, if_pos compares]
      obtain ⟨holds, fails⟩ := labels one
      exact reaches_comparison compares located holds fails small _
  | push segment index =>
    obtain ⟨found, -, placed, rfl⟩ := block_push made
    obtain ⟨reached, counter⟩ := reaches_perform located (falls_pushBlock found)
    refine ⟨_, reached, counter, ?_⟩
    rw [memory_perform_pushBlock, value_of_placed placed]
    simp only [StackMachine.step]
  | pop segment index =>
    obtain ⟨found, -, placed, popped⟩ := block_pop made
    obtain ⟨reached, counter⟩ := reaches_perform located (falls_popBlock popped)
    exact ⟨_, reached, counter, memory_perform_popBlock placed popped machine⟩

end HackVm.Assembly
