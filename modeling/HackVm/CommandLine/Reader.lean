import HackVm.CommandLine.Options
import HackVm.Text.Utf8

/-!
# A reader of arguments

One parser that follows the rules of reading arguments, for running the program. The line is first
taken apart from left to right, up to a request for the version or for help or up to an argument
that cannot be read; then the occurrences before that are judged, so that the first thing wrong with
a line counts.
-/
namespace HackVm.CommandLine

namespace Reader

/-- The answer to arguments that cannot be read: how they should be. -/
def usage : Response :=
  ⟨2, "", "Usage: vm-translator [OPTIONS] <INPUT>\n\nFor more information, try '--help'.\n"⟩

/-- The answer to a request for the version. -/
def version : Response := ⟨0, "vm-translator 0.1.0\n", ""⟩

/-- The answer to a request for help. -/
def help : Response :=
  ⟨0, "Translates VM stack code into Hack assembly\n\n" ++
    "Usage: vm-translator [OPTIONS] <INPUT>\n\n" ++
    "Arguments:\n" ++
    "  <INPUT>  VM source file to translate\n\n" ++
    "Options:\n" ++
    "  -o, --output <OUTPUT>  Output file (defaults to the input path with an .asm extension)\n" ++
    "      --no-comments      Omit the comment line restating each VM command\n" ++
    "  -q, --quiet            Only report warnings and errors\n" ++
    "  -v, --verbose          Log every translated command\n" ++
    "  -h, --help             Print help\n" ++
    "  -V, --version          Print version\n", ""⟩

/-- Every field. -/
def fields : List Field := [.input, .output, .noComments, .quiet, .verbose]

/-- What can be given by a name. -/
inductive Named where
  /-- A field. -/
  | field (field : Field)
  /-- A request that ends the reading with its answer. -/
  | request (answer : Response)
deriving DecidableEq, Repr

/-- What a letter names. -/
def ofLetter? (letter : UInt8) : Option Named :=
  if letter = 'V'.toUInt8 then some (.request version)
  else if letter = 'h'.toUInt8 then some (.request help)
  else (fields.find? (·.declaration.letter? = some letter)).map .field

/-- What a word names. -/
def ofWord? (word : List UInt8) : Option Named :=
  if word = Text.encode "version" then some (.request version)
  else if word = Text.encode "help" then some (.request help)
  else (fields.find? (·.declaration.word?.map Text.encode = some word)).map .field

/-- How reading goes on behind an argument. -/
inductive Next where
  /-- With the next argument. -/
  | argument
  /-- With the next argument, which is the value of a field. -/
  | value (field : Field)
  /-- With arguments that all stand for themselves. -/
  | positional
  /-- Not at all, but with an answer. -/
  | answer (response : Response)
deriving DecidableEq, Repr

/-- Read letters behind one dash. -/
def readLetters : List UInt8 → List Occurrence × Next
  | [] => ([], .argument)
  | letter :: rest =>
    match ofLetter? letter with
    | none => ([], .answer usage)
    | some (.request answer) => ([], .answer answer)
    | some (.field field) =>
      if field.declaration.takesValue then
        match rest with
        | [] => ([], .value field)
        | first :: others =>
          ([⟨field, some (if first = equals then others else first :: others)⟩], .argument)
      else
        let (given, next) := readLetters rest
        (⟨field, none⟩ :: given, next)

/-- Read a word behind two dashes, with what stands behind its first equals sign. -/
def readWord (text : List UInt8) : List Occurrence × Next :=
  match ofWord? (text.takeWhile (· != equals)), text.dropWhile (· != equals) with
  | none, _ => ([], .answer usage)
  | some (.request answer), [] => ([], .answer answer)
  | some (.request _), _ :: _ => ([], .answer usage)
  | some (.field field), [] =>
    if field.declaration.takesValue then ([], .value field)
    else ([⟨field, none⟩], .argument)
  | some (.field field), _ :: value =>
    if field.declaration.takesValue then ([⟨field, some value⟩], .argument)
    else ([], .answer usage)

/-- Read one argument. A single dash stands for itself. -/
def readArgument : Argument → List Occurrence × Next
  | [] => ([⟨.input, some []⟩], .argument)
  | [byte] => ([⟨.input, some [byte]⟩], .argument)
  | first :: second :: rest =>
    if first ≠ dash then ([⟨.input, some (first :: second :: rest)⟩], .argument)
    else if second ≠ dash then readLetters (second :: rest)
    else if rest = [] then ([], .positional)
    else readWord rest

/-- Whether an argument cannot be the value of the field before it. -/
def looksLikeOption (argument : Argument) : Bool :=
  argument.head? = some dash && argument != [dash]

/-- Put occurrences in front of what is read behind them. -/
def before (given : List Occurrence) (later : List Occurrence × Option Response) :
    List Occurrence × Option Response :=
  (given ++ later.1, later.2)

/-- Take a line apart: the occurrences on it, up to an answer that ends the reading. -/
def read : List Argument → List Occurrence × Option Response
  | [] => ([], none)
  | argument :: rest =>
    match readArgument argument with
    | (given, .argument) => before given (read rest)
    | (given, .positional) => (given ++ rest.map fun value => ⟨.input, some value⟩, none)
    | (given, .answer response) => (given, some response)
    | (given, .value field) =>
      match rest with
      | [] => (given, some usage)
      | value :: others =>
        if looksLikeOption value then (given, some usage)
        else before (given ++ [⟨field, some value⟩]) (read others)

/-- Whether occurrences can stand together: no field is given twice, and no value is empty. -/
def sound (given : List Occurrence) : Bool :=
  (given.map (·.field)).Nodup && given.all (·.value? != some [])

/-- The occurrences on a line, unless something is wrong with them or they are not asked for. -/
def split (arguments : List Argument) : Except Response (List Occurrence) :=
  match read arguments with
  | (given, answer?) =>
    if !sound given then .error usage
    else
      match answer? with
      | some answer => .error answer
      | none => .ok given

/-- The invocation that occurrences make, if there is an input and no conflict. -/
def collect (given : List Occurrence) : Except Response Invocation :=
  match valueOf? given .input with
  | none => .error usage
  | some input =>
    if fields.any fun field =>
        isGiven given field && field.declaration.conflicts.any (isGiven given) then .error usage
    else
      .ok {
        input := ⟨input⟩
        output? := (valueOf? given .output).map Path.mk
        noComments := isGiven given .noComments
        quiet := isGiven given .quiet
        verbose := isGiven given .verbose }

end Reader

/-- The reader of arguments as a parser. -/
def reader : ArgumentParser := ⟨Reader.split, Reader.collect⟩

end HackVm.CommandLine
