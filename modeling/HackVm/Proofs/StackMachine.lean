import HackVm.Command.Basic
import HackVm.Proofs.Machine.Basic

/-!
# The stack machine

What the commands of the stack language mean on the memory of the machine. Cell 0 is the stack
pointer: the address of the first cell above the stack. Cells 1 to 4 hold the bases of the local,
argument, this and that segments; the pointer segment is cells 3 and 4 themselves, the temp
segment begins at cell 5, and the static variables have cells of their own. A pop into a segment
with a base keeps the address it pops into in cell 13.

The stack pointer is itself a cell, and any cell may be on the stack or in a segment, so the order
of reads and writes matters: a command first reads what it pushes or the address it pops into,
then moves the stack pointer, and only then reads or writes the stack. `stepByName` is the order
in which the effects are usually told, where the top of the stack is taken before the stack pointer
is moved; `step_eq_stepByName` says that the two agree unless the stack pointer is below 3 and
points at itself or its neighbours.
-/
namespace HackVm

namespace StackMachine

/-- The cell that keeps an address while a value is popped. -/
def keeper : Word := 13

/-- The cell with the base of a segment that has one. -/
def base? : Segment → Option Word
  | .locals => some 1
  | .arguments => some 2
  | .this => some 3
  | .that => some 4
  | .constant | .statics | .pointer | .temp => none

/-- The cell of an index of a segment; a constant has no cell. -/
def cell? (statics : Nat → Word) (memory : Memory) (segment : Segment) (index : Nat) :
    Option Word :=
  match base? segment, segment with
  | some base, _ => some (memory base + BitVec.ofNat 16 index)
  | none, .temp => some (BitVec.ofNat 16 (5 + index))
  | none, .pointer => some (BitVec.ofNat 16 (3 + index))
  | none, .statics => some (statics index)
  | none, _ => none

/-- The word at an index of a segment; a constant is its own word. -/
def value (statics : Nat → Word) (memory : Memory) (segment : Segment) (index : Nat) : Word :=
  match cell? statics memory segment index with
  | some cell => memory cell
  | none => BitVec.ofNat 16 index

/-- Minus one for true and zero for false. -/
def truth (holds : Bool) : Word := if holds then -1 else 0

/-- How an operator computes its result from the stack. -/
inductive Action where
  /-- From the top of the stack. -/
  | unary (result : Word → Word)
  /-- From the value below the top of the stack and the top. -/
  | binary (result : Word → Word → Word)

/-- The action of an operator. Arithmetic wraps at sixteen bits; a comparison looks at the sign of
the wrapped difference. -/
def action : Operator → Action
  | .neg => .unary fun top => -top
  | .not => .unary fun top => ~~~top
  | .add => .binary fun lower top => lower + top
  | .sub => .binary fun lower top => lower - top
  | .and => .binary fun lower top => lower &&& top
  | .or => .binary fun lower top => lower ||| top
  | .eq => .binary fun lower top => truth (lower - top = 0)
  | .gt => .binary fun lower top => truth (0 < (lower - top).toInt)
  | .lt => .binary fun lower top => truth ((lower - top).toInt < 0)

/-- The memory in which the address of a pop into a segment with a base is kept. -/
def keep (memory : Memory) (segment : Segment) (cell : Word) : Memory :=
  if (base? segment).isSome then Function.update memory keeper cell else memory

/-- What a command does to memory. -/
def step (statics : Nat → Word) (memory : Memory) : Command → Memory
  | .push segment index =>
    let raised := Function.update memory 0 (memory 0 + 1)
    Function.update raised (memory 0) (value statics memory segment index)
  | .pop segment index =>
    match cell? statics memory segment index with
    | none => memory
    | some cell =>
      let lowered := Function.update (keep memory segment cell) 0 (memory 0 - 1)
      Function.update lowered cell (lowered (memory 0 - 1))
  | .arithmetic operator =>
    match action operator with
    | .unary result => Function.update memory (memory 0 - 1) (result (memory (memory 0 - 1)))
    | .binary result =>
      let lowered := Function.update memory 0 (memory 0 - 1)
      Function.update lowered (memory 0 - 2)
        (result (lowered (memory 0 - 2)) (lowered (memory 0 - 1)))

/-- What commands do to memory, one after the other. -/
def run (statics : Nat → Word) (commands : List Command) (memory : Memory) : Memory :=
  commands.foldl (step statics) memory

/-- What a command does to memory when it takes its operands before it moves the stack pointer,
and a push stores its value before it moves the stack pointer. -/
def stepByName (statics : Nat → Word) (memory : Memory) : Command → Memory
  | .push segment index =>
    let stored := Function.update memory (memory 0) (value statics memory segment index)
    Function.update stored 0 (memory 0 + 1)
  | .pop segment index =>
    match cell? statics memory segment index with
    | none => memory
    | some cell =>
      let kept := keep memory segment cell
      let taken := kept (memory 0 - 1)
      Function.update (Function.update kept 0 (memory 0 - 1)) cell taken
  | .arithmetic operator =>
    match action operator with
    | .unary result => Function.update memory (memory 0 - 1) (result (memory (memory 0 - 1)))
    | .binary result =>
      let computed := result (memory (memory 0 - 2)) (memory (memory 0 - 1))
      Function.update (Function.update memory 0 (memory 0 - 1)) (memory 0 - 2) computed

/-- What commands do to memory, one after the other, each taking its operands first. -/
def runByName (statics : Nat → Word) (commands : List Command) (memory : Memory) : Memory :=
  commands.foldl (stepByName statics) memory

/-- The stack pointer is above its own cell and the two cells after it before every command. -/
def Clear (statics : Nat → Word) : List Command → Memory → Prop
  | [], _ => True
  | command :: rest, memory => 2 < memory 0 ∧ Clear statics rest (step statics memory command)

/-- The index of a static variable that a command pushes or pops. -/
def static? : Command → Option Nat
  | .push .statics index | .pop .statics index => some index
  | _ => none

/-- The cells of static variables: from 16 on, in the order in which commands first use them. -/
def staticCell (commands : List Command) (index : Nat) : Word :=
  BitVec.ofNat 16 (16 + (commands.filterMap static?).eraseDups.idxOf index)

/-- Above the first cells the order of reads and writes does not matter. -/
theorem step_eq_stepByName {statics : Nat → Word} {memory : Memory} (above : 2 < memory 0)
    (command : Command) : step statics memory command = stepByName statics memory command := by
  have self : memory 0 ≠ 0 := by bv_omega
  have top : memory 0 - 1 ≠ 0 := by bv_omega
  have lower : memory 0 - 2 ≠ 0 := by bv_omega
  cases command with
  | push segment index =>
    simp only [step, stepByName]
    exact Function.update_comm self.symm _ _ memory
  | pop segment index =>
    cases found : cell? statics memory segment index with
    | none => simp only [step, stepByName, found]
    | some cell => simp only [step, stepByName, found, Function.update_of_ne top]
  | arithmetic operator =>
    cases acts : action operator with
    | unary result => simp only [step, stepByName, acts]
    | binary result =>
      simp only [step, stepByName, acts, Function.update_of_ne top, Function.update_of_ne lower]

/-- Commands that keep the stack pointer above the first cells may take their operands first. -/
theorem run_eq_runByName {statics : Nat → Word} {commands : List Command} {memory : Memory}
    (clear : Clear statics commands memory) :
    run statics commands memory = runByName statics commands memory := by
  induction commands generalizing memory with
  | nil => rfl
  | cons command rest ih =>
    obtain ⟨above, others⟩ := clear
    have later := ih others
    rw [run, runByName, List.foldl_cons, List.foldl_cons, ← step_eq_stepByName above]
    exact later

end StackMachine

end HackVm
