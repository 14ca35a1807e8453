/-!
# Hack assembly

The lines of an assembly program for the Hack machine, as data, and the text of each. The
machine has two registers, A and D, and a memory of which M is the cell that A points at. An
instruction loads a number or the address of a symbol into A, stores a computed value, or jumps
on the sign of a computed value. A label names the instruction after it. Only the values that
stack commands need are listed here.
-/
namespace HackVm.Assembly

/-- The cells at the bottom of memory that hold the stack pointer and the bases of segments. -/
inductive Pointer where
  /-- Address of the first cell above the stack. -/
  | stack
  /-- Base of the local variables. -/
  | locals
  /-- Base of the arguments. -/
  | arguments
  /-- Base of the current object. -/
  | this
  /-- Base of the current array. -/
  | that
deriving DecidableEq, Repr

/-- The predefined name of a pointer cell. -/
def Pointer.name : Pointer → String
  | stack => "SP"
  | locals => "LCL"
  | arguments => "ARG"
  | this => "THIS"
  | that => "THAT"

/-- The two ways out of a comparison. -/
inductive Branch where
  /-- The comparison holds. -/
  | holds
  /-- The comparison fails. -/
  | fails
deriving DecidableEq, Repr

/-- The letter that marks a branch in a label. -/
def Branch.letter : Branch → String
  | holds => "T"
  | fails => "F"

/-- What a load instruction may refer to. -/
inductive Symbol where
  /-- A number, loaded as it is. -/
  | number (value : Nat)
  /-- A pointer cell. -/
  | pointer (cell : Pointer)
  /-- One of the numbered cells at the bottom of memory. -/
  | register (cell : Nat)
  /-- A branch of a numbered comparison. -/
  | label (serial : Nat) (branch : Branch)
  /-- A variable shared by the functions of one file. -/
  | static (qualifier : String) (index : Nat)
deriving DecidableEq, Repr

/-- The text of a symbol. -/
def Symbol.text : Symbol → String
  | number value => value.repr
  | pointer cell => cell.name
  | register cell => "R" ++ cell.repr
  | label serial branch => serial.repr ++ branch.letter
  | static qualifier index => qualifier ++ "." ++ index.repr

/-- Where an instruction stores a value. -/
inductive Target where
  /-- The address register. -/
  | a
  /-- The data register. -/
  | d
  /-- The cell pointed at. -/
  | m
  /-- The address register and the cell that was pointed at. -/
  | am
deriving DecidableEq, Repr

/-- The text of a target. -/
def Target.text : Target → String
  | a => "A"
  | d => "D"
  | m => "M"
  | am => "AM"

/-- A value an instruction can compute. -/
inductive Value where
  /-- Zero. -/
  | zero
  /-- Minus one. -/
  | minusOne
  /-- The address register. -/
  | a
  /-- The data register. -/
  | d
  /-- The cell pointed at. -/
  | m
  /-- Complement of the cell. -/
  | notM
  /-- Negative of the cell. -/
  | negM
  /-- The cell plus one. -/
  | mPlusOne
  /-- The cell minus one. -/
  | mMinusOne
  /-- The address register minus one. -/
  | aMinusOne
  /-- Sum of the data and address registers. -/
  | dPlusA
  /-- Sum of the data register and the cell. -/
  | dPlusM
  /-- The cell minus the data register. -/
  | mMinusD
  /-- Conjunction of the data register and the cell. -/
  | dAndM
  /-- Disjunction of the data register and the cell. -/
  | dOrM
deriving DecidableEq, Repr

/-- The text of a value. -/
def Value.text : Value → String
  | zero => "0"
  | minusOne => "-1"
  | a => "A"
  | d => "D"
  | m => "M"
  | notM => "!M"
  | negM => "-M"
  | mPlusOne => "M+1"
  | mMinusOne => "M-1"
  | aMinusOne => "A-1"
  | dPlusA => "D+A"
  | dPlusM => "D+M"
  | mMinusD => "M-D"
  | dAndM => "D&M"
  | dOrM => "D|M"

/-- When a jump is taken. -/
inductive Condition where
  /-- When the value is zero. -/
  | zero
  /-- When the value is positive. -/
  | positive
  /-- When the value is negative. -/
  | negative
  /-- Whatever the value. -/
  | always
deriving DecidableEq, Repr

/-- The text of a condition. -/
def Condition.text : Condition → String
  | zero => "JEQ"
  | positive => "JGT"
  | negative => "JLT"
  | always => "JMP"

/-- One line of an assembly program. -/
inductive Line where
  /-- A remark the assembler skips. -/
  | comment (remark : String)
  /-- An empty line. -/
  | blank
  /-- Load a symbol into the address register. -/
  | load (symbol : Symbol)
  /-- Store a value. -/
  | assign (target : Target) (value : Value)
  /-- Jump to the address in the address register when the value meets the condition. -/
  | jump (value : Value) (condition : Condition)
  /-- Name the instruction that follows. -/
  | label (serial : Nat) (branch : Branch)
deriving DecidableEq, Repr

/-- The text of a line. -/
def Line.text : Line → String
  | comment remark => "// " ++ remark
  | blank => ""
  | load symbol => "@" ++ symbol.text
  | assign target value => target.text ++ "=" ++ value.text
  | jump value condition => value.text ++ ";" ++ condition.text
  | label serial branch => "(" ++ (Symbol.label serial branch).text ++ ")"

end HackVm.Assembly
