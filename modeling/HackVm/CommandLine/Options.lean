import HackVm.Path

/-!
# Command-line options

What can be asked for on the command line, and how each field of it is declared: by which names it
is given, whether it takes a value, whether it must be given and with which others it cannot be.
Reading a line of arguments by these declarations is left to a parser, which first splits the line
into occurrences of fields and then collects them. `ArgumentParser.Lawful` lists the rules that a
parser is expected to follow, each about the front of a line.
-/
namespace HackVm.CommandLine

/-- The bytes of one argument. -/
abbrev Argument := List UInt8

/-- A field of the command line. -/
inductive Field where
  /-- The source file. -/
  | input
  /-- Where its assembly goes. -/
  | output
  /-- Whether the comments that restate commands are left out. -/
  | noComments
  /-- Whether only warnings and errors are shown. -/
  | quiet
  /-- Whether every command is shown. -/
  | verbose
deriving DecidableEq, Repr

/-- How a field is given. -/
structure Declaration where
  /-- Its name behind one dash, if it has one. -/
  letter? : Option UInt8
  /-- Its name behind two dashes, if it has one. -/
  word? : Option String
  /-- Whether it takes a value. -/
  takesValue : Bool
  /-- Whether it must be given. -/
  required : Bool
  /-- The fields it cannot be given with. -/
  conflicts : List Field
deriving DecidableEq, Repr

namespace Field

/-- The declaration of each field. A field without names is given by its value alone. -/
def declaration : Field → Declaration
  | input => ⟨none, none, true, true, []⟩
  | output => ⟨some 'o'.toUInt8, some "output", true, false, []⟩
  | noComments => ⟨none, some "no-comments", false, false, []⟩
  | quiet => ⟨some 'q'.toUInt8, some "quiet", false, false, [verbose]⟩
  | verbose => ⟨some 'v'.toUInt8, some "verbose", false, false, []⟩

/-- Whether a field is given by its value alone. -/
def Positional (field : Field) : Prop :=
  field.declaration.letter? = none ∧ field.declaration.word? = none

end Field

/-- A compilation as the user asked for it. -/
structure Invocation where
  /-- The source file. -/
  input : Path
  /-- Where its assembly goes, if the user says. -/
  output? : Option Path
  /-- Whether the comments that restate commands are left out. -/
  noComments : Bool
  /-- Whether only warnings and errors are shown. -/
  quiet : Bool
  /-- Whether every command is shown. -/
  verbose : Bool
deriving DecidableEq, Repr

/-- What a run shows, and how it ends. -/
structure Response where
  /-- The exit status. -/
  exitCode : Nat
  /-- What is asked for. -/
  stdout : String
  /-- What the user is told besides. -/
  stderr : String
deriving DecidableEq, Repr

/-- A field given on a line of arguments, with its value if it has one. -/
structure Occurrence where
  /-- The field. -/
  field : Field
  /-- Its value. -/
  value? : Option Argument
deriving DecidableEq, Repr

/-- The value of a field among occurrences. -/
def valueOf? (given : List Occurrence) (field : Field) : Option Argument :=
  (given.find? (·.field = field)).bind (·.value?)

/-- Whether a field is among occurrences. -/
def isGiven (given : List Occurrence) (field : Field) : Bool := given.any (·.field = field)

/-- The byte an option begins with. -/
def dash : UInt8 := '-'.toUInt8

/-- The byte between an option and its attached value. -/
def equals : UInt8 := '='.toUInt8

/-- A value that can be an argument of its own: it does not begin with a dash, or is one. -/
def Bare (value : Argument) : Prop := value.head? ≠ some dash ∨ value = [dash]

/-- A reader of lines of arguments. What it does not read as an invocation it answers itself. -/
structure ArgumentParser where
  /-- The occurrences on a line, in order. -/
  split : List Argument → Except Response (List Occurrence)
  /-- The invocation that occurrences make. -/
  collect : List Occurrence → Except Response Invocation

namespace ArgumentParser

/-- Read a line of arguments. -/
def parse (parser : ArgumentParser) (arguments : List Argument) : Except Response Invocation :=
  parser.split arguments >>= parser.collect

/-- A field may stand before given ones, with or without a value: it is not among them, and has no
empty value. -/
structure Fits (field : Field) (value? : Option Argument) (given : List Occurrence) : Prop where
  /-- The field is not given yet. -/
  fresh : ∀ occurrence ∈ given, occurrence.field ≠ field
  /-- A value is not empty. -/
  filled : value? ≠ some []

end ArgumentParser

end HackVm.CommandLine
