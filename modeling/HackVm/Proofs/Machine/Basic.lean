import Mathlib.Logic.Function.Basic
import Mathlib.Logic.Function.Iterate

/-!
# The Hack machine

The machine that runs assembled programs. Words have sixteen bits and arithmetic on them wraps.
Memory has one word at each of the 65536 addresses. An instruction loads a word into the address
register, or computes a word from the registers and the cell pointed at, stores it where it is
told to, and may jump on its sign. Execution steps through a list of instructions; where the
counter is at no instruction the machine rests. `Machine.reaches_straight` runs a stretch of
instructions that do not jump in one go.
-/
namespace HackVm

/-- A word of the machine. -/
abbrev Word := BitVec 16

/-- The contents of memory, a word at each address. -/
abbrev Memory := Word → Word

/-- The state of the machine between two instructions. -/
structure Machine where
  /-- Contents of memory. -/
  memory : Memory
  /-- The address register. -/
  a : Word
  /-- The data register. -/
  d : Word
  /-- Position of the next instruction. -/
  counter : Nat

/-- A word that a computation can start from. -/
inductive Operand where
  /-- The address register. -/
  | a
  /-- The data register. -/
  | d
  /-- The cell the address register points at. -/
  | m
  /-- Zero. -/
  | zero
  /-- One. -/
  | one
deriving DecidableEq, Repr

/-- The word an operand stands for. -/
@[simp]
def Operand.value (machine : Machine) : Operand → Word
  | a => machine.a
  | d => machine.d
  | m => machine.memory machine.a
  | zero => 0
  | one => 1

/-- What the arithmetic unit computes. -/
inductive Computation where
  /-- Minus one. -/
  | minusOne
  /-- An operand as it is. -/
  | same (operand : Operand)
  /-- Bitwise complement of an operand. -/
  | complement (operand : Operand)
  /-- Negative of an operand. -/
  | negative (operand : Operand)
  /-- Sum of two operands. -/
  | sum (left right : Operand)
  /-- Difference of two operands. -/
  | difference (left right : Operand)
  /-- Bitwise conjunction of two operands. -/
  | conjunction (left right : Operand)
  /-- Bitwise disjunction of two operands. -/
  | disjunction (left right : Operand)
deriving DecidableEq, Repr

/-- The computed word; all arithmetic wraps at sixteen bits. -/
@[simp]
def Computation.value (machine : Machine) : Computation → Word
  | minusOne => -1
  | same operand => operand.value machine
  | complement operand => ~~~(operand.value machine)
  | negative operand => -(operand.value machine)
  | sum left right => left.value machine + right.value machine
  | difference left right => left.value machine - right.value machine
  | conjunction left right => left.value machine &&& right.value machine
  | disjunction left right => left.value machine ||| right.value machine

/-- Where a computed word is stored; any combination is possible. -/
structure Stores where
  /-- Into the address register. -/
  a : Bool
  /-- Into the data register. -/
  d : Bool
  /-- Into the cell pointed at before the instruction. -/
  m : Bool
deriving DecidableEq, Repr

/-- When an instruction jumps. -/
inductive Jump where
  /-- Not at all. -/
  | never
  /-- On a positive word. -/
  | positive
  /-- On zero. -/
  | zero
  /-- On a positive word or zero. -/
  | notNegative
  /-- On a negative word. -/
  | negative
  /-- On every word but zero. -/
  | notZero
  /-- On a negative word or zero. -/
  | notPositive
  /-- On every word. -/
  | always
deriving DecidableEq, Repr

/-- Whether a computed word, read as a signed number, makes the machine jump. -/
def Jump.taken (value : Word) : Jump → Bool
  | never => false
  | positive => 0 < value.toInt
  | zero => value = 0
  | notNegative => 0 ≤ value.toInt
  | negative => value.toInt < 0
  | notZero => value ≠ 0
  | notPositive => value.toInt ≤ 0
  | always => true

/-- An instruction of an assembled program. -/
inductive Instruction where
  /-- Load a word into the address register. -/
  | load (word : Word)
  /-- Compute a word, store it and perhaps jump to the address in the address register. -/
  | compute (stores : Stores) (computation : Computation) (jump : Jump)
deriving DecidableEq, Repr

/-- Whether an instruction is always followed by the next one. -/
def Instruction.falls : Instruction → Bool
  | load _ => true
  | compute _ _ jump => jump = .never

namespace Machine

/-- Carry out one instruction. -/
@[simp]
def execute (machine : Machine) : Instruction → Machine
  | .load word => { machine with a := word, counter := machine.counter + 1 }
  | .compute stores computation jump =>
    let value := computation.value machine
    let a := if stores.a then value else machine.a
    { memory :=
        if stores.m then Function.update machine.memory machine.a value else machine.memory
      a := a
      d := if stores.d then value else machine.d
      counter := if jump.taken value then a.toNat else machine.counter + 1 }

/-- Carry out the instruction at the counter; where there is none the machine rests. -/
def step (program : List Instruction) (machine : Machine) : Machine :=
  match program[machine.counter]? with
  | some instruction => machine.execute instruction
  | none => machine

/-- Execution gets from one state to another in finitely many steps. -/
def Reaches (program : List Instruction) (start finish : Machine) : Prop :=
  ∃ steps, (step program)^[steps] start = finish

variable {program code more : List Instruction} {machine start middle finish : Machine}

/-- Every state reaches itself. -/
theorem Reaches.refl (program : List Instruction) (machine : Machine) :
    Reaches program machine machine := ⟨0, rfl⟩

/-- What is reached from a reached state is reached. -/
theorem Reaches.trans (first : Reaches program start middle)
    (second : Reaches program middle finish) : Reaches program start finish := by
  obtain ⟨early, rfl⟩ := first
  obtain ⟨late, rfl⟩ := second
  exact ⟨late + early, Function.iterate_add_apply _ late early start⟩

/-- At the end of a program the machine rests. -/
theorem step_end (ended : machine.counter = program.length) : step program machine = machine := by
  have missing : program[machine.counter]? = none := by
    rw [List.getElem?_eq_none_iff]
    omega
  rw [step, missing]

/-- Execution comes to rest in at most one state. -/
theorem Reaches.unique {other : Machine} (first : Reaches program start finish)
    (second : Reaches program start other) (rests : step program finish = finish)
    (stays : step program other = other) : finish = other := by
  obtain ⟨early, rfl⟩ := first
  obtain ⟨late, rfl⟩ := second
  have longer := Function.iterate_fixed rests late
  have also := Function.iterate_fixed stays early
  rw [← Function.iterate_add_apply] at longer also
  rw [← longer, ← also, Nat.add_comm]

/-- A stretch of instructions stands at an address of a program. -/
def Located (program : List Instruction) (address : Nat) (code : List Instruction) : Prop :=
  ∃ front back, program = front ++ code ++ back ∧ front.length = address

/-- The first part of a stretch stands where the stretch does. -/
theorem Located.left {address : Nat} (located : Located program address (code ++ more)) :
    Located program address code := by
  obtain ⟨front, back, rfl, place⟩ := located
  exact ⟨front, more ++ back, by simp, place⟩

/-- The second part of a stretch stands behind the first. -/
theorem Located.right {address : Nat} (located : Located program address (code ++ more)) :
    Located program (address + code.length) more := by
  obtain ⟨front, back, rfl, place⟩ := located
  exact ⟨front ++ code, back, by simp, by simp [place]⟩

/-- The first instruction of a stretch is the one at its address. -/
theorem Located.head {address : Nat} {instruction : Instruction}
    (located : Located program address (instruction :: code)) :
    program[address]? = some instruction := by
  obtain ⟨front, back, rfl, rfl⟩ := located
  simp

/-- The instruction at the counter is carried out in one step. -/
theorem reaches_execute {instruction : Instruction}
    (located : Located program machine.counter (instruction :: code)) :
    Reaches program machine (machine.execute instruction) := by
  refine ⟨1, ?_⟩
  simp only [Function.iterate_one, step, located.head]

/-- An instruction that stores nothing changes at most the counter. -/
theorem execute_jump (machine : Machine) (computation : Computation) (jump : Jump) :
    machine.execute (.compute ⟨false, false, false⟩ computation jump) =
      { machine with
        counter := if jump.taken (computation.value machine) then machine.a.toNat
          else machine.counter + 1 } := rfl

/-- An instruction that does not jump moves the counter on by one. -/
theorem counter_execute {instruction : Instruction} (falls : instruction.falls) :
    (machine.execute instruction).counter = machine.counter + 1 := by
  cases instruction with
  | load word => rfl
  | compute stores computation jump =>
    obtain rfl : jump = .never := by simpa [Instruction.falls] using falls
    rfl

/-- Instructions that do not jump move the counter to the end of their stretch. -/
theorem counter_foldl_execute (falls : code.all Instruction.falls) :
    (code.foldl execute machine).counter = machine.counter + code.length := by
  induction code generalizing machine with
  | nil => rfl
  | cons instruction code ih =>
    rw [List.all_cons, Bool.and_eq_true] at falls
    rw [List.foldl_cons, ih falls.2, counter_execute falls.1, List.length_cons]
    omega

/-- A stretch of instructions that do not jump is carried out from its first to its last. -/
theorem reaches_straight (located : Located program machine.counter code)
    (falls : code.all Instruction.falls) :
    Reaches program machine (code.foldl execute machine) := by
  induction code generalizing machine with
  | nil => exact Reaches.refl program machine
  | cons instruction code ih =>
    rw [List.all_cons, Bool.and_eq_true] at falls
    have first := reaches_execute located
    have whole : Located program machine.counter ([instruction] ++ code) := located
    have behind : Located program (machine.execute instruction).counter code := by
      rw [counter_execute falls.1]
      exact whole.right
    exact first.trans (ih behind falls.2)

end Machine

end HackVm
