import HackVm.CommandLine.Options
import HackVm.Compilation

/-!
# Running the program

A run reads its arguments, sets the least level of messages that its console shows, and compiles as
asked. It ends with an exit status and with what was written to the two streams of the console. How
arguments are read, how a failure is worded with its causes and what a terminal understands comes
from outside, as the environment of the run.
-/
namespace HackVm.CommandLine

/-- What a run takes from outside. -/
structure Environment where
  /-- How arguments are read. -/
  parser : ArgumentParser
  /-- The wording of an error followed by those of its causes, the outermost first. -/
  chain : List String → String
  /-- What the second stream is shown on. -/
  terminal : Terminal

/-- A failure with what was being done. -/
structure Report where
  /-- What was being done. -/
  context : String
  /-- Why it was not. -/
  failure : Failure
deriving DecidableEq, Repr

/-- The wordings of a report and of what is below it, the outermost first. -/
def Report.errors (report : Report) : List String :=
  report.context :: report.failure.message :: report.failure.causes

variable {Handle : Type} {m : Type → Type} [Monad m] {σ : Type} [Journal σ]

namespace Invocation

/-- Where the assembly goes. -/
def output (invocation : Invocation) : Path := invocation.output?.getD invocation.input.output

/-- Compile as the user asked. -/
def compile (disk : Disk Handle m) (invocation : Invocation) : StateT σ m (Except Report Unit) := do
  log .info (invocation.input.display ++ " -> " ++ invocation.output.display)
  match ← compileFile disk invocation.input invocation.output (!invocation.noComments) with
  | .error failure =>
    return .error ⟨"translation of " ++ invocation.input.display ++ " failed", failure⟩
  | .ok count =>
    log .info ("wrote " ++ count.repr ++ " lines to " ++ invocation.output.display)
    return .ok ()

/-- Set the level that the user asked for. -/
def setLevel (invocation : Invocation) : StateT Console m Unit :=
  if invocation.quiet then modify (·.setLevel .warn)
  else if invocation.verbose then modify (·.setLevel .debug)
  else pure ()

/-- Log what became of a compilation, and say the exit status. -/
def conclude (chain : List String → String) : Except Report Unit → StateT σ m Nat
  | .ok () => return 0
  | .error report => do
    log .error (chain report.errors)
    return report.failure.exitCode

/-- Compile as the user asked, showing as much as was asked for. -/
def perform (chain : List String → String) (disk : Disk Handle m) (invocation : Invocation) :
    StateT Console m Nat := do
  invocation.setLevel
  conclude chain (← invocation.compile disk)

end Invocation

/-- Run the program on its arguments. -/
def run (environment : Environment) (disk : Disk Handle m) (arguments : List Argument) :
    m Response := do
  match environment.parser.parse arguments with
  | .error response => return response
  | .ok invocation =>
    let (exitCode, console) ←
      (invocation.perform environment.chain disk).run (Console.start environment.terminal)
    return ⟨exitCode, console.stdout, console.stderr⟩

end HackVm.CommandLine
