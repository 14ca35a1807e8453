import HackVm.Assembly.Basic
import HackVm.Command.Line

/-!
# Blocks of instructions

Each stack command becomes one block of instructions, which leaves the stack as the command
says. A push or pop first finds the place it reads or writes: a literal, a cell at an offset
from a base that is known only when the program runs, or a cell with a symbol. Some commands
have no block; `EmitError` says why. A comparison needs two labels and takes them from a number
that its caller uses only once.
-/
namespace HackVm

/-- Why a command has no block of instructions. -/
inductive EmitError where
  /-- The pointer segment has two cells. -/
  | pointerIndex (index : Nat)
  /-- The temp segment has eight cells. -/
  | tempIndex (index : Nat)
  /-- The index is too great to be loaded. -/
  | indexRange (index : Nat)
  /-- A constant cannot be overwritten. -/
  | popConstant
  /-- The command is neither a push nor a pop. -/
  | notAccess (kind : Kind)
deriving DecidableEq, Repr

/-- The wording of an error. -/
def EmitError.message : EmitError → String
  | pointerIndex index =>
    "invalid index " ++ index.repr ++ " for segment pointer (expected 0 or 1)"
  | tempIndex index =>
    "invalid index " ++ index.repr ++ " for segment temp (expected 0 through 7)"
  | indexRange index =>
    "index " ++ index.repr ++ " does not fit in an A-instruction (max 32767)"
  | popConstant => "cannot pop into segment constant"
  | notAccess kind => "push/pop dispatch called with " ++ kind.name ++ " command"

namespace Assembly

/-- Where a push reads from or a pop writes to. -/
inductive Place where
  /-- The value itself, in no cell. -/
  | literal (value : Nat)
  /-- The cell at an offset from the address in a pointer cell. -/
  | based (base : Pointer) (offset : Nat)
  /-- The cell with a symbol. -/
  | direct (symbol : Symbol)
deriving DecidableEq, Repr

/-- First register of the temp segment. -/
def tempBase : Nat := 5

/-- Number of cells of the temp segment. -/
def tempSize : Nat := 8

/-- The register that keeps an address while a value is popped. -/
def scratch : Symbol := .register 13

/-- The place of an index of a segment. Variables of the static segment are told apart from
those of other files by the qualifier. -/
def place (qualifier : String) (segment : Segment) (index : Nat) : Except EmitError Place :=
  if maxIndex < index then .error (.indexRange index)
  else
    match segment with
    | .constant => .ok (.literal index)
    | .locals => .ok (.based .locals index)
    | .arguments => .ok (.based .arguments index)
    | .this => .ok (.based .this index)
    | .that => .ok (.based .that index)
    | .temp =>
      if index < tempSize then .ok (.direct (.register (tempBase + index)))
      else .error (.tempIndex index)
    | .pointer =>
      match index with
      | 0 => .ok (.direct (.pointer .this))
      | 1 => .ok (.direct (.pointer .that))
      | _ => .error (.pointerIndex index)
    | .statics => .ok (.direct (.static qualifier index))

/-- Push the data register. -/
def pushData : List Line :=
  [.load (.pointer .stack), .assign .m .mPlusOne, .assign .a .mMinusOne, .assign .m .d]

/-- Pop the top of the stack into the data register. -/
def popData : List Line :=
  [.load (.pointer .stack), .assign .am .mMinusOne, .assign .d .m]

/-- Load the value at a place into the data register. -/
def fetch : Place → List Line
  | .literal value => [.load (.number value), .assign .d .a]
  | .based base offset =>
    [.load (.pointer base), .assign .d .m, .load (.number offset), .assign .a .dPlusA,
      .assign .d .m]
  | .direct symbol => [.load symbol, .assign .d .m]

/-- Push the value at a place. -/
def pushBlock (source : Place) : List Line := fetch source ++ pushData

/-- Pop the top of the stack into a place. The address of a based cell is computed and kept
before the pop, which needs the data register itself. -/
def popBlock : Place → Except EmitError (List Line)
  | .literal _ => .error .popConstant
  | .based base offset =>
    .ok ([.load (.pointer base), .assign .d .m, .load (.number offset), .assign .d .dPlusA,
        .load scratch, .assign .m .d] ++ popData ++
      [.load scratch, .assign .a .m, .assign .m .d])
  | .direct symbol => .ok (popData ++ [.load symbol, .assign .m .d])

/-- Replace the top of the stack by a value computed from it. -/
def unaryBlock (value : Value) : List Line :=
  [.load (.pointer .stack), .assign .a .mMinusOne, .assign .m value]

/-- Replace the two top values of the stack by one computed from the lower, in M, and the upper,
in D. -/
def binaryBlock (value : Value) : List Line :=
  popData ++ [.assign .a .aMinusOne, .assign .m value]

/-- Replace the two top values of the stack by minus one when the lower minus the upper meets
the condition, and by zero otherwise. -/
def compareBlock (serial : Nat) (condition : Condition) : List Line :=
  popData ++
    [.assign .a .aMinusOne, .assign .d .mMinusD,
      .load (.label serial .holds), .jump .d condition,
      .assign .d .zero,
      .load (.label serial .fails), .jump .zero .always,
      .label serial .holds, .assign .d .minusOne,
      .label serial .fails,
      .load (.pointer .stack), .assign .a .mMinusOne, .assign .m .d]

/-- The block of an operator, with the number of its labels if it is a comparison. -/
def operatorBlock (serial : Nat) : Operator → List Line
  | .not => unaryBlock .notM
  | .neg => unaryBlock .negM
  | .add => binaryBlock .dPlusM
  | .sub => binaryBlock .mMinusD
  | .and => binaryBlock .dAndM
  | .or => binaryBlock .dOrM
  | .eq => compareBlock serial .zero
  | .gt => compareBlock serial .positive
  | .lt => compareBlock serial .negative

end Assembly

/-- Whether an operator compares its two values. -/
def Operator.isComparison : Operator → Bool
  | eq | gt | lt => true
  | _ => false

end HackVm
