import HackVm.Assembly.Block
import HackVm.Path
import HackVm.Source.Error

/-!
# Failures of a run

Why a file was not compiled. A failure has a message, a list of the causes below it, and the
exit status of a run that ends with it.
-/
namespace HackVm

/-- Why a file was not compiled. -/
inductive Failure where
  /-- The input cannot be opened. -/
  | inputNotFound (path : Path)
  /-- The input has no name that could qualify its static variables. -/
  | noQualifier (path : Path)
  /-- A line of the input is no command or cannot be read. -/
  | source (error : SourceError)
  /-- A command of the input has no block of instructions. -/
  | emission (line : Nat) (error : EmitError)
  /-- The output cannot be written. -/
  | output (path : Path) (fault : AccessFault)
deriving DecidableEq, Repr

namespace Failure

/-- The wording of a failure. -/
def message : Failure → String
  | inputNotFound path => "could not open input file " ++ path.display
  | noQualifier path =>
    "input file " ++ path.display ++ " has no usable name for static symbols"
  | source error => error.message
  | emission line error => "line " ++ line.repr ++ ": " ++ error.message
  | output path fault => "failed to write " ++ path.display ++ ": " ++ fault.message

/-- The wordings of the causes below a failure. -/
def causes : Failure → List String
  | inputNotFound _ | noQualifier _ => []
  | source error =>
    match error.fault with
    | .unreadable fault => [fault.message]
    | .malformed _ | .exhausted => []
  | emission _ error => [error.message]
  | output _ fault => [fault.message]

/-- The exit status of a run that ends with a failure. -/
def exitCode : Failure → Nat
  | inputNotFound _ => 2
  | _ => 1

end Failure

/-- The name that qualifies the static variables of a source file, or the failure to have one. -/
def Path.qualifier (path : Path) : Except Failure String :=
  match path.qualifier? with
  | some qualifier => .ok qualifier
  | none => .error (.noQualifier path)

end HackVm
