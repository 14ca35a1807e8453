import HackVm.AccessFault
import HackVm.Command.Line

/-!
# Errors of a source

What can go wrong at a line of a source: its text is no command, it cannot be read, or there is
no further line. Each error carries the number of the line, counted from one; when there is no
further line it is the number of the last one.
-/
namespace HackVm

/-- What is wrong at a line of a source. -/
inductive SourceFault where
  /-- The text of the line is no command. -/
  | malformed (fault : LineFault)
  /-- The line cannot be read. -/
  | unreadable (fault : AccessFault)
  /-- There is no line left. -/
  | exhausted
deriving DecidableEq, Repr

/-- A fault and the line it arose at. -/
structure SourceError where
  /-- Number of the line, counted from one. -/
  line : Nat
  /-- What is wrong there. -/
  fault : SourceFault
deriving DecidableEq, Repr

/-- The wording of an error. -/
def SourceError.message (error : SourceError) : String :=
  match error.fault with
  | .malformed fault => "line " ++ error.line.repr ++ ": " ++ fault.message
  | .unreadable fault => "failed to read line " ++ error.line.repr ++ ": " ++ fault.message
  | .exhausted => "advance called with no lines left (after line " ++ error.line.repr ++ ")"

/-- Read the text of a numbered line as a command; a blank line or a comment is no command. -/
def parseLine (text : String) (line : Nat) : Except SourceError (Option Command) :=
  (Command.ofLine text).mapError fun fault => ⟨line, .malformed fault⟩

end HackVm
