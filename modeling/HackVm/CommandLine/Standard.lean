import HackVm.CommandLine.Reader
import HackVm.CommandLine.Run

/-!
# The environment of the program

One environment in which the program runs: arguments are read by the reader, causes follow an error
behind colons, and a terminal is sent escape sequences.
-/
namespace HackVm

namespace Terminal

/-- The escape sequence of a colour. -/
def foreground : Colour → String
  | .cyan => "\x1b[36m"
  | .yellow => "\x1b[33m"
  | .red => "\x1b[31m"

/-- A terminal that understands escape sequences. It forgets its style before it takes another. -/
def ansi : Terminal where
  set style :=
    "\x1b[0m" ++ (if style.bold then "\x1b[1m" else "") ++ (style.colour?.elim "" foreground)
  reset := "\x1b[0m"

/-- The terminal that the environment names: one with styles if there is one that is not dumb, and
the user has not turned colour off. -/
def ofVariables (terminal noColour : Option String) : Terminal :=
  if terminal.isSome && terminal != some "dumb" && noColour.isNone then ansi else plain

end Terminal

/-- The environment in which the program runs, by the variables of the terminal. -/
def CommandLine.standard (terminal noColour : Option String) : CommandLine.Environment where
  parser := CommandLine.reader
  chain := ": ".intercalate
  terminal := Terminal.ofVariables terminal noColour

end HackVm
