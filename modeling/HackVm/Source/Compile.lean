import HackVm.Emitter
import HackVm.Failure
import HackVm.Log
import HackVm.Source.Reader

/-!
# Compiling a source

A source is compiled in one pass: each command is emitted as soon as its line is read, and the
first line that cannot be read, is no command or has no block of instructions ends the pass. The
pass logs each command it meets, before the command is emitted.
-/
namespace HackVm

/-- What a pass over a source has done so far. -/
structure Pass (σ : Type) where
  /-- The messages logged. -/
  journal : σ
  /-- The emitter with the lines emitted. -/
  emitter : Emitter (Array String)

variable {σ : Type} [Journal σ]

namespace Pass

/-- What is logged of a command met in a line. -/
def message (reader : Reader) (command : Command) : String :=
  "line " ++ reader.lineNumber.repr ++ ": `" ++
    String.ofList (Text.trim reader.rawLine.toList) ++ "` -> " ++ command.text

/-- Log a command and emit it. -/
def visit (pass : Pass σ) (reader : Reader) (command : Command) : Except Failure Unit × Pass σ :=
  let journal := Journal.log pass.journal .debug (message reader command)
  match pass.emitter.emit command with
  | (.error error, emitter) => (.error (.emission reader.lineNumber error), ⟨journal, emitter⟩)
  | (.ok (), emitter) => (.ok (), ⟨journal, emitter⟩)

/-- Compile a source, keeping what was done before an error. -/
def ofSource (source : Source) (qualifier : String) (comments : Bool) (journal : σ) :
    Except Failure Unit × Pass σ :=
  Reader.scan visit Failure.source (Reader.ofSource source)
    ⟨journal, Emitter.new qualifier comments #[]⟩

end Pass

namespace Source

/-- The lines of assembly of a source, or the failure of its first bad line, and the journal with
what was logged. -/
def compileInto (source : Source) (qualifier : String) (comments : Bool) (journal : σ) :
    Except Failure (Array String) × σ :=
  match Pass.ofSource source qualifier comments journal with
  | (.error failure, pass) => (.error failure, pass.journal)
  | (.ok (), pass) => (.ok pass.emitter.sink, pass.journal)

/-- The lines of assembly of a source, or the failure of its first bad line. -/
def compile (source : Source) (qualifier : String) (comments : Bool) :
    Except Failure (Array String) :=
  (source.compileInto qualifier comments (#[] : Array Record)).1

/-- All that compiling a source logs. -/
def trace (source : Source) (qualifier : String) (comments : Bool) : Array Record :=
  (source.compileInto qualifier comments (#[] : Array Record)).2

end Source

end HackVm
