import HackVm.Proofs.Labels
import HackVm.Proofs.TextLines

/-!
# Comments restate the program

With comments the output holds the program it was made from. No instruction can be taken for a
comment, whatever the qualifier, so the comments of the output are the texts of the commands in
order. The text of a command is read as that command: `ofWords_lineWords_text`. So the comments,
a line each, are a source with the same commands, which is compiled to the same output again.
-/
namespace HackVm

namespace Text

/-- Words joined by single spaces are cut apart again. -/
theorem words_intercalate {parts : List (List Char)}
    (solid : ∀ part ∈ parts, part ≠ [] ∧ ∀ char ∈ part, isBlank char = false) :
    words ([' '].intercalate parts) = parts := by
  induction parts with
  | nil => rfl
  | cons part rest ih =>
    obtain ⟨nonempty, word⟩ := solid part List.mem_cons_self
    have later := ih fun other listed => solid other (List.mem_cons_of_mem part listed)
    cases rest with
    | nil =>
      rw [List.intercalate_singleton]
      exact words_eq_singleton nonempty word
    | cons next others =>
      have space : isBlank ' ' = true := by decide
      rw [List.intercalate_cons_cons, List.append_assoc, List.singleton_append,
        words_append_blank _ _ space, words_eq_singleton nonempty word, later]
      rfl

/-- A character of words joined by spaces is a space or stands in a word. -/
theorem mem_intercalate {parts : List (List Char)} {char : Char}
    (written : char ∈ [' '].intercalate parts) : char = ' ' ∨ ∃ part ∈ parts, char ∈ part := by
  induction parts with
  | nil => contradiction
  | cons part rest ih =>
    by_cases single : rest = []
    · rw [single, List.intercalate_singleton] at written
      exact .inr ⟨part, List.mem_cons_self, written⟩
    · rw [List.intercalate_cons_of_ne_nil single, List.mem_append, List.mem_append,
        List.mem_singleton] at written
      rcases written with (here | space) | later
      · exact .inr ⟨part, List.mem_cons_self, here⟩
      · exact .inl space
      · rcases ih later with space | ⟨other, listed, inside⟩
        · exact .inl space
        · exact .inr ⟨other, List.mem_cons_of_mem part listed, inside⟩

end Text

/-- The words of the text of a command. -/
def Command.words : Command → List (List Char)
  | arithmetic operator => [operator.name.toList]
  | push segment index => ["push".toList, segment.name.toList, Nat.toDigits 10 index]
  | pop segment index => ["pop".toList, segment.name.toList, Nat.toDigits 10 index]

/-- The text of a command is its words with single spaces between them. -/
theorem Command.toList_text (command : Command) :
    command.text.toList = [' '].intercalate command.words := by
  cases command with
  | arithmetic operator => simp [text, words]
  | push segment index | pop segment index =>
    simp [text, words, Nat.repr, List.intercalate_cons_cons]

/-- A character of the text of a command is a space or stands in a word. -/
theorem Command.mem_text {command : Command} {char : Char} (written : char ∈ command.text.toList) :
    char = ' ' ∨ ∃ word ∈ command.words, char ∈ word := by
  rw [toList_text] at written
  exact Text.mem_intercalate written

/-- The words of a command are not empty and have no blanks. -/
theorem Command.solid_words (command : Command) :
    ∀ word ∈ command.words, word ≠ [] ∧ ∀ char ∈ word, Text.isBlank char = false := by
  have solid {word : List Char}
      (known : word ≠ [] ∧ (word.all fun char => !Text.isBlank char) = true) :
      word ≠ [] ∧ ∀ char ∈ word, Text.isBlank char = false := by
    -- `List.all` is evaluated letter by letter; the statement over all characters is not.
    simpa using known
  have segments (segment : Segment) : segment.name.toList ≠ [] ∧
      ∀ char ∈ segment.name.toList, Text.isBlank char = false :=
    solid (by cases segment <;> decide)
  have digits (index : Nat) : Nat.toDigits 10 index ≠ [] ∧
      ∀ char ∈ Nat.toDigits 10 index, Text.isBlank char = false := by
    refine ⟨Nat.toDigits_ne_nil, fun char listed => ?_⟩
    exact Text.isBlank_of_isDigit (Nat.isDigit_of_mem_toDigits (by decide) (by decide) listed)
  cases command with
  | arithmetic operator =>
    have named := @solid operator.name.toList (by cases operator <;> decide)
    simpa [words] using named
  | push segment index =>
    simp only [words, List.forall_mem_cons]
    exact ⟨solid (by decide), segments segment, digits index, List.forall_mem_nil _⟩
  | pop segment index =>
    simp only [words, List.forall_mem_cons]
    exact ⟨solid (by decide), segments segment, digits index, List.forall_mem_nil _⟩

/-- The digits of a number that can be loaded are an index. -/
theorem isIndex_toDigits {index : Nat} (loadable : index ≤ maxIndex) :
    IsIndex (Nat.toDigits 10 index) index :=
  ⟨Nat.toDigits_ne_nil, fun _ listed => Nat.isDigit_of_mem_toDigits (by decide) (by decide) listed,
    Nat.ofDigitChars_ten_toDigits, loadable⟩

/-- The index of a segment that is not refused can be loaded. -/
theorem Segment.loadable_of_refusal? {segment : Segment} {index : Nat}
    (accepted : segment.refusal? index = none) : index ≤ maxIndex := by
  by_contra great
  unfold Segment.refusal? at accepted
  rw [if_pos (by omega)] at accepted
  contradiction

/-- The index of a command that is not refused can be loaded. -/
theorem Command.loadable_of_refusal? {command : Command} (accepted : command.refusal? = none) :
    ∀ index, command.index? = some index → index ≤ maxIndex := by
  intro index indexed
  cases command with
  | arithmetic operator => contradiction
  | push segment held =>
    obtain rfl := Option.some.inj indexed
    exact Segment.loadable_of_refusal? accepted
  | pop segment held =>
    obtain rfl := Option.some.inj indexed
    rw [refusal?] at accepted
    cases refused : segment.refusal? held with
    | none => exact Segment.loadable_of_refusal? refused
    | some error => simp [refused] at accepted

/-- The words of a command whose index can be loaded write it. -/
theorem Command.writes_words {command : Command}
    (loadable : ∀ index, command.index? = some index → index ≤ maxIndex) :
    Writes command.words (some command) := by
  cases command with
  | arithmetic operator => exact .arithmetic rfl
  | push segment index => exact .push rfl rfl (isIndex_toDigits (loadable index rfl))
  | pop segment index => exact .pop rfl rfl (isIndex_toDigits (loadable index rfl))

/-- The words of the code of the text of a command are those of the command. -/
theorem words_codePart_text {command : Command}
    (loadable : ∀ index, command.index? = some index → index ≤ maxIndex) :
    Text.words (codePart command.text.toList) = command.words := by
  have slashless : '/' ∉ command.text.toList := by
    intro written
    rcases Command.mem_text written with space | ⟨word, listed, inside⟩
    · contradiction
    · exact slash_notMem_of_writes (Command.writes_words loadable) word listed inside
  rw [codePart_of_notMem slashless, Command.toList_text]
  exact Text.words_intercalate command.solid_words

/-- The text of a command whose index can be loaded is read as the command. -/
theorem ofLine_text {command : Command}
    (loadable : ∀ index, command.index? = some index → index ≤ maxIndex) :
    Command.ofLine command.text = .ok (some command) := by
  have written := Command.writes_words loadable
  rw [← words_codePart_text loadable] at written
  exact ofLine_eq_ok_iff_writes.mpr written

/-- The text of a command that is not refused is read as the command. -/
theorem ofWords_lineWords_text {command : Command} (accepted : command.refusal? = none) :
    Command.ofWords (lineWords command.text) = .ok (some command) :=
  ofLine_text (Command.loadable_of_refusal? accepted)

/-- The text of a command is one line. -/
theorem lineFeed_notMem_text (command : Command) : '\n' ∉ command.text.toList := by
  intro written
  rcases Command.mem_text written with space | ⟨word, listed, inside⟩
  · contradiction
  · have solid := (command.solid_words word listed).2 _ inside
    exact absurd solid (by decide)

/-- What stands behind two slashes and a space at the beginning of a line. -/
def remark? (line : String) : Option String :=
  match line.toList with
  | '/' :: '/' :: ' ' :: remark => some (String.ofList remark)
  | _ => none

/-- The remarks of an output, in order. -/
def remarks (lines : Array String) : List String := lines.toList.filterMap remark?

/-- The remark of a comment is what it was made with. -/
theorem remark?_comment (remark : String) :
    remark? (Assembly.Line.comment remark).text = some remark := by
  simp [remark?, Assembly.Line.text]

/-- An instruction or label has no remark. -/
theorem remark?_of_isCode {line : Assembly.Line} (code : line.isCode = true) :
    remark? line.text = none := by
  have other : line.text.toList.head? ≠ some '/' := by
    rw [ne_eq, Assembly.Line.head?_text_eq_some_iff (by decide)]
    cases line with
    | comment | blank => contradiction
    | load | assign | jump | label => simp [Assembly.Line.sign?]
  rw [remark?]
  split
  · rename_i chars
    exact absurd (by rw [chars, List.head?_cons]) other
  · rfl

variable {qualifier : String} {serial : Nat} {commands : List Command}

/-- The remarks of a listing with comments are the texts of its commands. -/
theorem remarks_listing {lines : List Assembly.Line}
    (listed : listing qualifier true serial commands = .ok lines) :
    (lines.map (·.text)).filterMap remark? = commands.map Command.text := by
  induction commands generalizing serial lines with
  | nil =>
    obtain rfl := Except.ok.inj listed
    rfl
  | cons command rest ih =>
    obtain ⟨body, later, made, others, rfl⟩ := listing_cons listed
    have code : (body.map (·.text)).filterMap remark? = [] := by
      rw [List.filterMap_map, List.filterMap_eq_nil_iff]
      exact fun line inside => remark?_of_isCode (isCode_of_block made line inside)
    have framed : Emitter.frame true command.text body =
        .comment command.text :: (body ++ [.blank]) := rfl
    have blank : remark? Assembly.Line.blank.text = none := rfl
    simp [framed, remark?_comment, code, blank, ih others]

/-- The text of lines, each followed by a line feed. -/
def transcript (lines : List String) : String :=
  String.ofList (lines.flatMap fun line => line.toList ++ ['\n'])

/-- The lines of a transcript, behind which there is an empty line. -/
theorem textLines_transcript {lines : List String} (single : ∀ line ∈ lines, '\n' ∉ line.toList) :
    textLines (transcript lines) = lines ++ [""] := by
  rw [textLines, transcript, String.toList_ofList]
  induction lines with
  | nil => rfl
  | cons line rest ih =>
    have later := ih fun other listed => single other (List.mem_cons_of_mem line listed)
    rw [List.flatMap_cons, List.append_assoc, List.singleton_append,
      List.splitOn_append_cons_self_of_not_mem (single line List.mem_cons_self), List.map_cons,
      later, String.ofList_toList, List.cons_append]

/-- The lines of the transcript of the texts of commands. -/
theorem textLines_transcript_text (commands : List Command) :
    textLines (transcript (commands.map Command.text)) = commands.map Command.text ++ [""] := by
  refine textLines_transcript fun line listed => ?_
  obtain ⟨command, -, rfl⟩ := List.mem_map.mp listed
  exact lineFeed_notMem_text command

/-- The transcript of the texts of commands that are not refused has no flaw. -/
theorem lineFailure?_transcript (accepted : ∀ command ∈ commands, command.refusal? = none) :
    lineFailure? (textLines (transcript (commands.map Command.text))) = none := by
  rw [textLines_transcript_text, lineFailure?_eq_none_iff]
  intro line listed
  rcases List.mem_append.mp listed with text | last
  · obtain ⟨command, among, rfl⟩ := List.mem_map.mp text
    have fine := accepted command among
    simp only [Flaw.ofWords?, ofWords_lineWords_text fine, fine, Option.map_none]
  · rw [List.mem_singleton.mp last]
    rfl

/-- The transcript of the texts of commands that are not refused holds the commands. -/
theorem lineCommands_transcript (accepted : ∀ command ∈ commands, command.refusal? = none) :
    lineCommands (textLines (transcript (commands.map Command.text))) = commands := by
  have held : ∀ command ∈ commands,
      Command.ofWords? (lineWords command.text) = some command := by
    intro command among
    rw [Command.ofWords?, ofWords_lineWords_text (accepted command among)]
  have last : lineCommands [""] = [] := rfl
  rw [textLines_transcript_text, lineCommands_append, last, List.append_nil, lineCommands,
    List.filterMap_map]
  exact (List.filterMap_congr held).trans List.filterMap_some

/-- With comments, a source is compiled to an output whose remarks are the texts of its commands in
order. The transcript of the remarks holds the same commands and is compiled to the same output. -/
theorem remarks_restate_source {source : Source} {lines : Array String}
    (compiled : source.compile qualifier true = .ok lines) :
    ∃ commands, source.commands = .ok commands ∧
      remarks lines = commands.toList.map Command.text ∧
      parseText (transcript (remarks lines)) = .ok commands ∧
      Source.compile [.bytes (Text.encode (transcript (remarks lines)))] qualifier true =
        .ok lines := by
  obtain ⟨commands, emitter, read, emitted, rfl⟩ := compile_eq_ok_iff.mp compiled
  have accepted := Emitter.refusal?_of_emitAll emitted
  obtain ⟨listed, made, collected⟩ := sink_emitAll rfl emitted
  have restated : remarks emitter.sink = commands.toList.map Command.text := by
    rw [remarks, collected]
    exact remarks_listing made
  have parsed : parseText (transcript (remarks emitter.sink)) = .ok commands := by
    rw [restated, parseText_of_faultless (lineFailure?_transcript accepted),
      lineCommands_transcript accepted, Array.toArray_toList]
  exact ⟨commands, read, restated, parsed,
    compile_eq_ok_iff.mpr ⟨commands, emitter, parsed, emitted, rfl⟩⟩

/-- The remarks of a source with capitals, comments and a carriage return, whose static variables
have a name that begins like a comment. -/
theorem remarks_restate_capitals :
    ∃ lines, Source.compile [.bytes (Text.encode "PUSH  Static 007 // x\r\n\nEq")] "// A" true =
        .ok lines ∧
      remarks lines = ["push static 7", "eq"] ∧
      Source.compile [.bytes (Text.encode "push static 7\neq\n")] "// A" true = .ok lines := by
  have read : Source.commands [.bytes (Text.encode "PUSH  Static 007 // x\r\n\nEq")] =
      .ok #[.push .statics 7, .arithmetic .eq] :=
    (commands_eq _).trans (by decide +kernel)
  obtain ⟨lines, compiled⟩ : ∃ lines, Source.compile
      [.bytes (Text.encode "PUSH  Static 007 // x\r\n\nEq")] "// A" true = .ok lines :=
    ⟨_, compile_eq_ok_iff.mpr ⟨_, _, read, rfl, rfl⟩⟩
  obtain ⟨commands, also, restated, -, again⟩ := remarks_restate_source compiled
  obtain rfl := Except.ok.inj (read.symm.trans also)
  rw [restated] at again
  exact ⟨_, compiled, restated, again⟩

end HackVm
