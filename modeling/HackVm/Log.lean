/-!
# Log

What a run tells its user beside its result. A message has a level, and is shown when its level is
at least the minimum in force, which a run can set. The tag in front of a shown message is written
in the style of its level; what a terminal must be sent to write in a style, and to write plainly
again, is for the terminal to say. A journal is any place that takes messages: a console shows those
that are enabled, and an array of records keeps all of them.
-/
namespace HackVm

/-- How much a message matters. -/
inductive Level where
  /-- Steps of the work. -/
  | debug
  /-- What is done. -/
  | info
  /-- What the user may not expect. -/
  | warn
  /-- What failed. -/
  | error
deriving DecidableEq, Repr

/-- A colour of a tag. -/
inductive Colour where
  /-- The colour of steps of the work. -/
  | cyan
  /-- The colour of what the user may not expect. -/
  | yellow
  /-- The colour of what failed. -/
  | red
deriving DecidableEq, Repr

/-- The look of a tag. -/
structure Style where
  /-- The colour, if it is not that of plain text. -/
  colour? : Option Colour
  /-- Whether the tag is bold. -/
  bold : Bool
deriving DecidableEq, Repr

namespace Level

/-- The level of least rank is the one least shown. -/
def rank : Level → Nat
  | debug => 0
  | info => 1
  | warn => 2
  | error => 3

/-- Levels are ordered by rank. -/
instance : Ord Level := ⟨fun left right => compare left.rank right.rank⟩

/-- The word for a level. -/
def name : Level → String
  | debug => "DEBUG"
  | info => "INFO"
  | warn => "WARN"
  | error => "ERROR"

/-- The look of the tag of a level. -/
def style : Level → Style
  | debug => ⟨some .cyan, false⟩
  | info => ⟨none, false⟩
  | warn => ⟨some .yellow, true⟩
  | error => ⟨some .red, true⟩

end Level

/-- What a terminal must be sent to change its style. -/
structure Terminal where
  /-- From now on write in a style. -/
  set : Style → String
  /-- From now on write plainly. -/
  reset : String

/-- A terminal without styles. -/
def Terminal.plain : Terminal := ⟨fun _ => "", ""⟩

/-- One message of a run. -/
structure Record where
  /-- How much it matters. -/
  level : Level
  /-- What it says. -/
  message : String
deriving DecidableEq, Repr

/-- A place that takes messages. -/
class Journal (σ : Type) where
  /-- Take one more message. -/
  log : σ → Level → String → σ

/-- An array keeps the messages it is given. -/
instance : Journal (Array Record) := ⟨fun records level message => records.push ⟨level, message⟩⟩

/-- The output streams of a run, and which messages it shows. -/
structure Console where
  /-- Least level that is shown. -/
  minimum : Level
  /-- What the second stream is shown on. -/
  terminal : Terminal
  /-- What was written to the first stream. -/
  stdout : String
  /-- What was written to the second stream. -/
  stderr : String

namespace Console

/-- The console that a run begins with. -/
def start (terminal : Terminal) : Console := ⟨.info, terminal, "", ""⟩

/-- Show no messages below a level from now on. -/
def setLevel (console : Console) (level : Level) : Console := { console with minimum := level }

/-- Whether messages of a level are shown. -/
def enabled (console : Console) (level : Level) : Bool := console.minimum.rank ≤ level.rank

/-- Write to the second stream. -/
def write (console : Console) (text : String) : Console :=
  { console with stderr := console.stderr ++ text }

/-- Show a message, if its level is enabled: its tag in the style of the level, and then the message
on the rest of the line. -/
def log (console : Console) (level : Level) (message : String) : Console :=
  if !console.enabled level then console
  else
    let styled := console.write (console.terminal.set level.style)
    let tagged := styled.write ("[" ++ level.name ++ "] ")
    let plain := tagged.write console.terminal.reset
    plain.write (message ++ "\n")

/-- A console shows the messages that are enabled. -/
instance : Journal Console := ⟨log⟩

end Console

end HackVm
