import HackVm.Command.Words
import HackVm.Text.Blank
import HackVm.Text.Lowercase

/-!
# Commands in lines of text

A line holds at most one command. What follows the first `//` is a comment; the rest is read
without regard to case and cut into words at blanks. `LineFault` names what keeps a line from
being a command. When several things are wrong the leftmost is named: `Command.ofWords` looks
at the words from left to right and judges the number of words last.
-/
namespace HackVm

/-- A word a push or pop needs after its first word. -/
inductive Argument where
  /-- The name of a segment. -/
  | segment
  /-- An index into the segment. -/
  | index
deriving DecidableEq, Repr

/-- The word for an argument in a message. -/
def Argument.name : Argument → String
  | segment => "segment"
  | index => "index"

/-- What keeps a line from being a command. -/
inductive LineFault where
  /-- The first word is neither an operator nor `push` nor `pop`. -/
  | unknownCommand (word : String)
  /-- The second word of a push or pop is no segment. -/
  | unknownSegment (word : String)
  /-- The line ends before an argument; `written` are its words so far. -/
  | missingArgument (written : String) (argument : Argument)
  /-- The third word of a push or pop is no index. -/
  | badIndex (segment : Segment) (word : String)
  /-- Words are left after the command. -/
  | trailingInput (rest : String)
deriving DecidableEq, Repr

/-- The wording of a fault. -/
def LineFault.message : LineFault → String
  | unknownCommand word => "unrecognized command `" ++ word ++ "`"
  | unknownSegment word => "unknown segment `" ++ word ++ "`"
  | missingArgument written argument => "`" ++ written ++ "` is missing its " ++ argument.name
  | badIndex segment word => "invalid index `" ++ word ++ "` for segment " ++ segment.name
  | trailingInput rest => "unexpected trailing input `" ++ rest ++ "`"

/-- The part of a line before its first `//`. -/
def codePart : List Char → List Char
  | [] => []
  | '/' :: '/' :: _ => []
  | char :: rest => char :: codePart rest

/-- The words of a line: its code in small letters, cut at blanks. -/
def lineWords (line : String) : List String :=
  (Text.words (Text.lowercase (codePart line.toList))).map String.ofList

/-- Read the segment and index that follow `push` or `pop`. -/
def readAccess (verb : String) : List String → Except LineFault (Segment × Nat)
  | [] => .error (.missingArgument verb .segment)
  | second :: others =>
    match Segment.ofName? second with
    | none => .error (.unknownSegment second)
    | some segment =>
      match others with
      | [] => .error (.missingArgument (verb ++ " " ++ segment.name) .index)
      | third :: rest =>
        match readIndex? third with
        | none => .error (.badIndex segment third)
        | some index =>
          if rest = [] then .ok (segment, index)
          else .error (.trailingInput (" ".intercalate rest))

/-- Read the words of a line as a command; no words are no command. -/
def Command.ofWords : List String → Except LineFault (Option Command)
  | [] => .ok none
  | verb :: rest =>
    match Operator.ofName? verb with
    | some operator =>
      if rest = [] then .ok (some (.arithmetic operator))
      else .error (.trailingInput (" ".intercalate rest))
    | none =>
      if verb = "push" then
        (readAccess verb rest).map fun (segment, index) => some (.push segment index)
      else if verb = "pop" then
        (readAccess verb rest).map fun (segment, index) => some (.pop segment index)
      else .error (.unknownCommand verb)

/-- Read a line as a command; a blank line or a comment is no command. -/
def Command.ofLine (line : String) : Except LineFault (Option Command) :=
  Command.ofWords (lineWords line)

end HackVm
