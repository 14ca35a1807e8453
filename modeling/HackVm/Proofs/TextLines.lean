import HackVm.Proofs.Concatenation

/-!
# Texts line by line

A text can be cut at its line feeds instead of its bytes, because no other character is encoded with
the byte of a line feed. What is wrong with a line of a text, its `Flaw`, and the command it holds
are read off its words, whatever its number. So `compile_of_lineFailure` and `compile_of_faultless`
say what a text is compiled to in terms of the words of its lines, without the bytes they were read
from.
-/
namespace HackVm

/-- The lines of a text; behind a line feed at its end there is an empty one. -/
def textLines (text : String) : List String := (text.toList.splitOn '\n').map String.ofList

namespace Text

/-- A line feed is encoded as its byte, and no other character with it. -/
theorem encode_singleton_lineFeed (char : Char) :
    char = '\n' ∧ encode (String.singleton char) = [lineFeed] ∨
      char ≠ '\n' ∧ ∀ byte ∈ encode (String.singleton char), (byte == lineFeed) = false := by
  by_cases newline : char = '\n'
  · subst newline
    exact .inl ⟨rfl, by decide⟩
  · refine .inr ⟨newline, ?_⟩
    intro byte listed
    rw [beq_eq_false_iff_ne]
    rintro rfl
    rcases encode_singleton_cases char with ⟨single, ascii⟩ | ⟨-, high⟩
    · rw [single, List.mem_singleton] at listed
      have code : '\n'.toNat = (UInt8.ofNat char.toNat).toNat := congrArg UInt8.toNat listed
      rw [UInt8.toNat_ofNat', Nat.mod_eq_of_lt (by omega)] at code
      exact newline (Char.toNat_inj.mp code.symm)
    · exact absurd (high _ listed) (by decide)

/-- The pieces of the bytes of a text between line feeds are the bytes of its lines. -/
theorem splitOn_encode (chars : List Char) :
    (encode (String.ofList chars)).splitOn lineFeed =
      (chars.splitOn '\n').map (encode ∘ String.ofList) := by
  induction chars with
  | nil => rfl
  | cons char rest ih =>
    have parts : String.ofList (char :: rest) = String.singleton char ++ String.ofList rest := by
      simp
    rw [parts, encode_append, List.splitOn_cons_eq_if_modifyHead char rest]
    rcases encode_singleton_lineFeed char with ⟨newline, byte⟩ | ⟨other, solid⟩
    · have apart (later : List UInt8) : (lineFeed :: later).splitOn lineFeed =
          [] :: later.splitOn lineFeed :=
        List.splitOn_append_cons_self_of_not_mem List.not_mem_nil later
      rw [byte, List.singleton_append, apart, ih, if_pos (by simp [newline])]
      rfl
    · rw [List.splitOn_eq_splitOnP, splitOnP_append_solid solid, ← List.splitOn_eq_splitOnP, ih,
        if_neg (by simp [other])]
      obtain ⟨line, others, lines⟩ := List.exists_cons_of_ne_nil (List.splitOn_ne_nil '\n' rest)
      simp [lines, ← encode_append]

end Text

/-- What is wrong with the words of a line. -/
inductive Flaw where
  /-- They are no command. -/
  | malformed (fault : LineFault)
  /-- They are a command that has no block of instructions. -/
  | refused (error : EmitError)
deriving DecidableEq, Repr

/-- The failure of a source whose first flaw is in a numbered line. -/
def Flaw.failure (line : Nat) : Flaw → Failure
  | malformed fault => .source ⟨line, .malformed fault⟩
  | refused error => .emission line error

/-- The flaw of the words of a line, if they have one. -/
def Flaw.ofWords? (words : List String) : Option Flaw :=
  match Command.ofWords words with
  | .error fault => some (.malformed fault)
  | .ok none => none
  | .ok (some command) => command.refusal?.map .refused

/-- The command that the words of a line are, if they are one. -/
def Command.ofWords? (words : List String) : Option Command :=
  match Command.ofWords words with
  | .error _ => none
  | .ok held? => held?

/-- The item of a line of a text. -/
def Item.ofText (line : String) : Item := .line (Text.encode line)

/-- The item of a line of a text says what the line says. -/
theorem Item.reading_ofText (text : String) (line : Nat) :
    (Item.ofText text).reading line = parseLine text line := by
  simp [Item.ofText, Item.reading, Item.text]

/-- The command of a line of a text. -/
theorem Item.command?_ofText (text : String) :
    (Item.ofText text).command? = Command.ofWords? (lineWords text) := by
  rw [Item.command?, Item.reading_ofText, parseLine, Command.ofLine, Command.ofWords?]
  cases Command.ofWords (lineWords text) <;> rfl

variable (qualifier : String) (comments : Bool)

/-- The failure of a line of a text. -/
theorem Item.failure?_ofText (text : String) (line : Nat) :
    (Item.ofText text).failure? qualifier comments line =
      (Flaw.ofWords? (lineWords text)).map (Flaw.failure line) := by
  rw [← Item.ending?_answer, Item.ending?, Item.reading_ofText, parseLine, Command.ofLine,
    Flaw.ofWords?]
  cases Command.ofWords (lineWords text) with
  | error fault => rfl
  | ok held? =>
    cases held? with
    | none => rfl
    | some command =>
      simp only [Except.mapError, Pass.answer]
      cases command.refusal? <;> rfl

/-- The bytes of a text with a line feed behind them hold its lines, each of which says the same as
without the carriage return at its end. -/
theorem closed_encode (text : String) :
    Source.closed (Text.encode text) =
      (textLines text).map fun line => .line (dropReturn (Text.encode line)) := by
  have split := Text.splitOn_encode text.toList
  rw [String.ofList_toList] at split
  rw [Source.closed, split, textLines, List.map_map, List.map_map]
  rfl

/-- An item of a text says what a line of the text says. -/
theorem Item.reading_of_text {text : String} {item : Item}
    (listed : item ∈ Source.items [.bytes (Text.encode text)]) :
    ∃ line ∈ textLines text, ∀ number, item.reading number = parseLine line number := by
  -- A line feed behind the text makes every item one of its lines, up to a carriage return.
  have closes : ∃ bytes, (item = .line bytes ∨ item = .line (dropReturn bytes)) ∧
      .line (dropReturn bytes) ∈ Source.closed (Text.encode text) := by
    obtain ⟨front, tail, closed, items⟩ := Source.closed_eq_items (Text.encode text)
    rw [items, List.mem_append] at listed
    rcases listed with early | last
    · have inside : item ∈ Source.closed (Text.encode text) := by
        rw [closed]
        exact List.mem_append_left _ early
      obtain ⟨piece, -, shape⟩ := List.mem_map.mp inside
      exact ⟨piece, .inr shape.symm, by rw [shape]; exact inside⟩
    · by_cases empty : tail = []
      · simp [empty] at last
      · rw [if_neg empty, List.mem_singleton] at last
        exact ⟨tail, .inl last, by rw [closed]; simp⟩
  obtain ⟨bytes, shape, inside⟩ := closes
  rw [closed_encode] at inside
  obtain ⟨line, written, same⟩ := List.mem_map.mp inside
  refine ⟨line, written, fun number => ?_⟩
  have reads : (Item.line (dropReturn bytes)).reading number = parseLine line number := by
    rw [← same, reading_dropReturn, ← Item.reading_ofText]
    rfl
  rcases shape with rfl | rfl
  · rw [← reads, reading_dropReturn]
  · exact reads

/-- The failure of the first of numbered entries that has a flaw. -/
def firstFlaw? {α : Type} (flaw? : α → Option Flaw) (entries : List (α × Nat)) : Option Failure :=
  entries.findSome? fun entry => (flaw? entry.1).map (Flaw.failure entry.2)

/-- The failure of the first of some lines that has a flaw. -/
def lineFailure? (lines : List String) : Option Failure :=
  firstFlaw? (fun line => Flaw.ofWords? (lineWords line)) (lines.zipIdx 1)

/-- Lines do not fail exactly when none of them has a flaw. -/
theorem lineFailure?_eq_none_iff {lines : List String} :
    lineFailure? lines = none ↔ ∀ line ∈ lines, Flaw.ofWords? (lineWords line) = none := by
  have numbered : (lines.zipIdx 1).map Prod.fst = lines := List.zipIdx_map_fst 1 lines
  conv_rhs => rw [← numbered]
  simp only [lineFailure?, firstFlaw?, List.findSome?_eq_none_iff, Option.map_eq_none_iff,
    List.forall_mem_map]

/-- The commands of some lines, in order. -/
def lineCommands (lines : List String) : List Command :=
  lines.filterMap fun line => Command.ofWords? (lineWords line)

/-- The commands of lines one after the other. -/
theorem lineCommands_append (front back : List String) :
    lineCommands (front ++ back) = lineCommands front ++ lineCommands back :=
  List.filterMap_append

/-- The first failure of a text is that of its lines. -/
theorem firstFailure?_text (text : String) :
    firstFailure? qualifier comments 1 (Source.items [.bytes (Text.encode text)]) =
      lineFailure? (textLines text) := by
  rw [← firstFailure?_closed, closed_encode, firstFailure?, List.zipIdx_map, List.findSome?_map,
    lineFailure?, firstFlaw?]
  refine congrArg (List.findSome? · _) (funext fun entry => ?_)
  rw [← Item.failure?_ofText qualifier comments]
  exact Item.failure?_of_reading qualifier comments (reading_dropReturn _ _)

/-- The commands of a text are those of its lines. -/
theorem commands_text (text : String) :
    (Source.items [.bytes (Text.encode text)]).filterMap Item.command? =
      lineCommands (textLines text) := by
  rw [← commands_closed, closed_encode, List.filterMap_map, lineCommands]
  refine List.filterMap_congr fun line _ => ?_
  rw [← Item.command?_ofText, Function.comp_apply, Item.command?, Item.command?,
    reading_dropReturn, Item.ofText]

variable {qualifier comments} {text : String}

/-- A text with a flaw is compiled to the failure of its first flawed line. -/
theorem compile_of_lineFailure {failure : Failure}
    (first : lineFailure? (textLines text) = some failure) :
    Source.compile [.bytes (Text.encode text)] qualifier comments = .error failure :=
  compile_of_failure ((firstFailure?_text qualifier comments text).trans first)

/-- A text without a flaw is compiled to the lines of its commands. -/
theorem compile_of_faultless (faultless : lineFailure? (textLines text) = none) :
    ∃ emitter,
      (Emitter.new qualifier comments #[]).emitAll (lineCommands (textLines text)) =
          (.ok (), emitter) ∧
        Source.compile [.bytes (Text.encode text)] qualifier comments = .ok emitter.sink := by
  rw [← commands_text]
  exact compile_of_clean ((firstFailure?_text qualifier comments text).trans faultless)

/-- A text without a flaw has the commands of its lines. -/
theorem parseText_of_faultless (faultless : lineFailure? (textLines text) = none) :
    parseText text = .ok (lineCommands (textLines text)).toArray := by
  have clean := (firstFailure?_text "" false text).trans faultless
  rw [parseText, commands_eq, unread?_of_clean clean, commands_text]

end HackVm
