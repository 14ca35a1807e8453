/-!
# Stack commands

A command of the stack language applies an operator to the top of the stack, pushes a value
taken from a memory segment, or pops the top of the stack into a memory segment. Operators and
segments are written by name. `Command.text` is the one way a command is written out.
-/
namespace HackVm

/-- An operation on the values on top of the stack. -/
inductive Operator where
  /-- Sum of two values. -/
  | add
  /-- Difference of two values. -/
  | sub
  /-- Negative of one value. -/
  | neg
  /-- Whether two values are equal. -/
  | eq
  /-- Whether the lower value is greater. -/
  | gt
  /-- Whether the lower value is less. -/
  | lt
  /-- Bitwise conjunction of two values. -/
  | and
  /-- Bitwise disjunction of two values. -/
  | or
  /-- Bitwise complement of one value. -/
  | not
deriving DecidableEq, Repr

namespace Operator

/-- The word for an operator. -/
def name : Operator → String
  | add => "add"
  | sub => "sub"
  | neg => "neg"
  | eq => "eq"
  | gt => "gt"
  | lt => "lt"
  | and => "and"
  | or => "or"
  | not => "not"

end Operator

/-- A part of memory that a value is pushed from or popped into. -/
inductive Segment where
  /-- The constants: the value is the index itself. -/
  | constant
  /-- The local variables of the running function. -/
  | locals
  /-- The variables shared by the functions of one file. -/
  | statics
  /-- The arguments of the running function. -/
  | arguments
  /-- The cells of the current object. -/
  | this
  /-- The cells of the current array. -/
  | that
  /-- The two base addresses of `this` and `that`. -/
  | pointer
  /-- The eight scratch cells. -/
  | temp
deriving DecidableEq, Repr

namespace Segment

/-- The word for a segment. -/
def name : Segment → String
  | constant => "constant"
  | locals => "local"
  | statics => "static"
  | arguments => "argument"
  | this => "this"
  | that => "that"
  | pointer => "pointer"
  | temp => "temp"

end Segment

/-- What a line of source holds. -/
inductive Kind where
  /-- No command: the line is blank or a comment. -/
  | blank
  /-- An operator. -/
  | arithmetic
  /-- A push. -/
  | push
  /-- A pop. -/
  | pop
deriving DecidableEq, Repr

/-- The word for a kind in a message. -/
def Kind.name : Kind → String
  | blank => "None"
  | arithmetic => "Arithmetic"
  | push => "Push"
  | pop => "Pop"

/-- One command of the stack language. -/
inductive Command where
  /-- Apply an operator to the top of the stack. -/
  | arithmetic (operator : Operator)
  /-- Push the value at an index of a segment. -/
  | push (segment : Segment) (index : Nat)
  /-- Pop the top of the stack into an index of a segment. -/
  | pop (segment : Segment) (index : Nat)
deriving DecidableEq, Repr

namespace Command

/-- The kind of a command. -/
def kind : Command → Kind
  | arithmetic _ => .arithmetic
  | push _ _ => .push
  | pop _ _ => .pop

/-- The word a command turns on: its operator's name, or its segment's. -/
def subject : Command → String
  | arithmetic operator => operator.name
  | push segment _ | pop segment _ => segment.name

/-- The index of a push or pop. -/
def index? : Command → Option Nat
  | arithmetic _ => none
  | push _ index | pop _ index => some index

/-- The command as it is written in source: small letters, single spaces, no leading zeros. -/
def text : Command → String
  | arithmetic operator => operator.name
  | push segment index => "push " ++ segment.name ++ " " ++ index.repr
  | pop segment index => "pop " ++ segment.name ++ " " ++ index.repr

end Command

end HackVm
