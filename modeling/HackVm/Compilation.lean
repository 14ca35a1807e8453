import HackVm.Source.Compile
import HackVm.Writer

/-!
# Compiling a file

One source file becomes one file of assembly. Nothing is written before the whole source is
compiled, and an output whose writing failed is removed again, so that no half of an output is
left behind.
-/
namespace HackVm

variable {Handle : Type} {m : Type → Type} [Monad m]

/-- The pieces in which lines are written: each line, and the line feed behind it. -/
def linePieces (lines : List String) : List (List UInt8) :=
  lines.flatMap fun line => [Text.encode line, [lineFeed]]

/-- Write lines to a file. A writer that is given up tries once more to write what it holds, and
nobody learns whether it could. -/
def writeLines (disk : Disk Handle m) (output : Path) (lines : Array String) :
    m (Except AccessFault Unit) := do
  match ← disk.create output with
  | .error fault => return .error fault
  | .ok handle =>
    let (result, writer) ← (Writer.ofHandle handle).finish disk (linePieces lines.toList)
    let _ ← writer.flush disk
    return result

variable {σ : Type} [Journal σ]

/-- Log a message. -/
def log (level : Level) (message : String) : StateT σ m Unit :=
  modify fun journal => Journal.log journal level message

/-- Write the lines of an output. When writing fails the output is removed, and if there was
something to remove a warning says so. -/
def writeOutput (disk : Disk Handle m) (output : Path) (lines : Array String) :
    StateT σ m (Except Failure Nat) := do
  match ← (writeLines disk output lines : m _) with
  | .ok () => return .ok lines.size
  | .error fault =>
    match ← disk.remove output with
    | .ok () => log .warn ("removed partial output " ++ output.display)
    | .error _ => pure ()
    return .error (.output output fault)

/-- Compile the file at one path into a file at another, and count the lines written. -/
def compileFile (disk : Disk Handle m) (input output : Path) (comments : Bool) :
    StateT σ m (Except Failure Nat) := do
  match ← disk.locate input with
  | .error _ => return .error (.inputNotFound input)
  | .ok handle =>
    match input.qualifier with
    | .error failure => return .error failure
    | .ok qualifier =>
      let source ← disk.contents handle
      match ← modifyGet (source.compileInto qualifier comments) with
      | .error failure => return .error failure
      | .ok lines => writeOutput disk output lines

end HackVm
