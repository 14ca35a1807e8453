import HackVm.Proofs.Machine.Basic
import HackVm.Text.Blank

/-!
# Assembling text

The text of a program, line by line, becomes a list of instructions. Blank lines and lines that
begin with `//` are dropped. A line in round brackets is a label and names the instruction after
it. A line that begins with `@` loads a number, a predefined symbol, a label, or else a variable;
variables get the cells from 16 on in the order of their first use. Every other line is an
instruction of the form `target=computation;jump`, where target and jump may be missing. A text
is refused when it holds an unreadable line, a number of more than fifteen bits, or a label that
is already taken.
-/
namespace HackVm.Assembler

/-- What one line of text asks for. -/
inductive Statement where
  /-- Nothing. -/
  | nothing
  /-- Name the next instruction. -/
  | label (name : List Char)
  /-- Load what a name stands for. -/
  | load (name : List Char)
  /-- Compute, store and perhaps jump. -/
  | compute (stores : Stores) (computation : Computation) (jump : Jump)
deriving DecidableEq, Repr

/-- The operand a letter or digit stands for. -/
def operand? : Char → Option Operand
  | 'A' => some .a
  | 'D' => some .d
  | 'M' => some .m
  | '0' => some .zero
  | '1' => some .one
  | _ => none

/-- Read a computation. -/
def computation? : List Char → Option Computation
  | ['-', '1'] => some .minusOne
  | [x] => (operand? x).map .same
  | ['!', x] => (operand? x).map .complement
  | ['-', x] => (operand? x).map .negative
  | [x, '+', y] => do return .sum (← operand? x) (← operand? y)
  | [x, '-', y] => do return .difference (← operand? x) (← operand? y)
  | [x, '&', y] => do return .conjunction (← operand? x) (← operand? y)
  | [x, '|', y] => do return .disjunction (← operand? x) (← operand? y)
  | _ => none

/-- Read a jump; no text is no jump. -/
def jump? (text : List Char) : Option Jump :=
  [([], .never), ("JGT".toList, .positive), ("JEQ".toList, .zero), ("JGE".toList, .notNegative),
    ("JLT".toList, .negative), ("JNE".toList, .notZero), ("JLE".toList, .notPositive),
    ("JMP".toList, Jump.always)].lookup text

/-- The stores a target asks for. -/
def storesOf (target : List Char) : Stores :=
  ⟨target.contains 'A', target.contains 'D', target.contains 'M'⟩

/-- The text before the first of a mark, and the text after it if there is one. -/
def cut (mark : Char) (text : List Char) : List Char × Option (List Char) :=
  (text.takeWhile (· != mark), (text.dropWhile (· != mark)).tail?)

/-- Read an instruction that is no load. -/
def compute? (text : List Char) : Option Statement := do
  let (action, jump) := cut ';' text
  let (target, value) :=
    match cut '=' action with
    | (target, some value) => (target, value)
    | (value, none) => ([], value)
  return .compute (storesOf target) (← computation? value) (← jump? (jump.getD []))

/-- Read a line. -/
def statement? (line : String) : Option Statement :=
  match Text.trim line.toList with
  | [] | '/' :: '/' :: _ => some .nothing
  | '@' :: name => some (.load name)
  | '(' :: rest => if rest.getLast? = some ')' then some (.label rest.dropLast) else none
  | text => compute? text

/-- The symbols that every program may use, with their addresses. -/
def predefined : List (List Char × Nat) :=
  [("SP".toList, 0), ("LCL".toList, 1), ("ARG".toList, 2), ("THIS".toList, 3),
    ("THAT".toList, 4)] ++ (List.range 16).map fun cell => (("R" ++ cell.repr).toList, cell)

/-- The value of a name that is a decimal number. -/
def number? (name : List Char) : Option Nat :=
  if name ≠ [] ∧ name.all Char.isDigit then some (Nat.ofDigitChars 10 name 0) else none

/-- The labels of statements whose first instruction gets a given address. -/
def labelsFrom (address : Nat) : List Statement → List (List Char × Nat)
  | [] => []
  | .nothing :: rest => labelsFrom address rest
  | .label name :: rest => (name, address) :: labelsFrom address rest
  | .load _ :: rest | .compute _ _ _ :: rest => labelsFrom (address + 1) rest

/-- The name that a statement loads. -/
def Statement.loaded? : Statement → Option (List Char)
  | load name => some name
  | _ => none

/-- Whether a name is neither a number nor a predefined symbol nor a label. -/
def isVariable (labels : List (List Char × Nat)) (name : List Char) : Bool :=
  (number? name).isNone && (predefined.lookup name).isNone && (labels.lookup name).isNone

/-- The variables of statements in the order of their first use. -/
def variableNames (labels : List (List Char × Nat)) (statements : List Statement) :
    List (List Char) :=
  ((statements.filterMap Statement.loaded?).filter (isVariable labels)).eraseDups

/-- The word a name stands for; a number of more than fifteen bits stands for none. -/
def resolve? (labels : List (List Char × Nat)) (variableNames : List (List Char))
    (name : List Char) : Option Nat :=
  match number? name with
  | some value => if value < 32768 then some value else none
  | none =>
    match predefined.lookup name with
    | some cell => some cell
    | none =>
      match labels.lookup name with
      | some address => some address
      | none => some (16 + variableNames.idxOf name)

/-- The instructions of a statement, none or one. -/
def encode? (labels : List (List Char × Nat)) (variableNames : List (List Char)) :
    Statement → Option (List Instruction)
  | .nothing | .label _ => some []
  | .load name =>
    (resolve? labels variableNames name).map fun address => [.load (BitVec.ofNat 16 address)]
  | .compute stores computation jump => some [.compute stores computation jump]

/-- The instructions of a text. -/
def assemble (lines : List String) : Option (List Instruction) := do
  let statements ← lines.mapM statement?
  let labels := labelsFrom 0 statements
  let names := labels.map Prod.fst
  if names.Nodup ∧ ∀ name ∈ names, predefined.lookup name = none then
    let code ← statements.mapM (encode? labels (variableNames labels statements))
    return code.flatten
  else
    none

end HackVm.Assembler
