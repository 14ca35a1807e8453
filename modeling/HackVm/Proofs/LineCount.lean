import HackVm.Proofs.Remarks
import HackVm.Proofs.StoredOutput
import HackVm.Proofs.Symbols
import Mathlib.Algebra.GroupWithZero.Nat

/-!
# Counting the lines of an output

A compilation counts the lines it has emitted, and the file it writes is made of bytes. The two
agree when every emitted line is one line of the file. All that an emitted line is made of is free
of line feeds but for one thing: the qualifier, which is the stem of a file name and may hold any
byte but a slash, goes into the name of every static variable as it is. So the file has the counted
lines and, for every static access, as many more as the qualifier has line feeds.
-/
namespace HackVm

open Assembly

/-- A text has as many line feeds as its bytes. -/
theorem Text.count_lineFeed_encode (text : String) :
    (encode text).count lineFeed = text.toList.count '\n' := by
  have chars (chars : List Char) :
      (encode (String.ofList chars)).count lineFeed = chars.count '\n' := by
    induction chars with
    | nil => rfl
    | cons char rest ih =>
      have parts : String.ofList (char :: rest) = String.singleton char ++ String.ofList rest := by
        simp
      rw [parts, encode_append, List.count_append, ih, List.count_cons]
      rcases encode_singleton_lineFeed char with ⟨rfl, byte⟩ | ⟨other, solid⟩
      · rw [byte]
        simp [Nat.add_comm]
      · have none : (encode (String.singleton char)).count lineFeed = 0 := by
          rw [List.count_eq_zero]
          intro listed
          exact absurd (solid _ listed) (by simp)
        simp [none, other]
  simpa using chars text.toList

/-- A file has a line feed behind every line, and those within its lines. -/
theorem count_fileContent (lines : Array String) :
    (fileContent lines).count lineFeed =
      lines.size + (lines.toList.map fun line => line.toList.count '\n').sum := by
  rw [fileContent, ← Array.length_toList]
  induction lines.toList with
  | nil => rfl
  | cons line rest ih =>
    rw [List.flatMap_cons, List.count_append, List.count_append, ih, Text.count_lineFeed_encode,
      List.map_cons, List.sum_cons, List.length_cons, List.count_singleton_self]
    omega

/-- A file of at least one line ends with a line feed. -/
theorem getLast?_fileContent {lines : Array String} (nonempty : 0 < lines.size) :
    (fileContent lines).getLast? = some lineFeed := by
  obtain ⟨front, last, parts⟩ : ∃ front last, lines.toList = front ++ [last] := by
    refine ⟨_, _, (List.dropLast_append_getLast ?_).symm⟩
    rwa [← List.length_pos_iff, Array.length_toList]
  rw [fileContent, parts, List.flatMap_append, List.flatMap_singleton, ← List.append_assoc,
    List.getLast?_concat]

namespace Assembly

/-- A number is written without a line feed. -/
theorem count_lineFeed_toDigits (value : Nat) : (Nat.toDigits 10 value).count '\n' = 0 := by
  rw [List.count_eq_zero]
  intro listed
  have digit := Nat.isDigit_of_mem_toDigits (by decide) (by decide) listed
  exact absurd digit (by decide)

/-- A symbol has the line feeds of its qualifier, if it is a static variable, and no others. -/
theorem count_lineFeed_symbol (symbol : Symbol) :
    symbol.text.toList.count '\n' =
      (symbol.static?.toList.map fun static => static.1.toList.count '\n').sum := by
  cases symbol with
  | number value => simp [Symbol.text, Symbol.static?, count_lineFeed_toDigits]
  | pointer cell => cases cell <;> rfl
  | register cell => simp [Symbol.text, Symbol.static?, count_lineFeed_toDigits]
  | label serial branch =>
    cases branch <;> simp [Symbol.text, Symbol.static?, Branch.letter, count_lineFeed_toDigits]
  | static qualifier index => simp [Symbol.text, Symbol.static?, count_lineFeed_toDigits]

/-- How many line feeds the texts of lines hold. -/
def lineFeeds (lines : List Line) : Nat := (lines.map fun line => line.text.toList.count '\n').sum

/-- The line feeds of lines one after the other. -/
theorem lineFeeds_append (front back : List Line) :
    lineFeeds (front ++ back) = lineFeeds front + lineFeeds back := by
  simp [lineFeeds]

/-- An instruction or label has the line feeds of the static variable it loads, if it loads one, and
no others. -/
theorem count_lineFeed_line {line : Line} (code : line.isCode = true) :
    line.text.toList.count '\n' =
      ((statics [line]).map fun static => static.1.toList.count '\n').sum := by
  cases line with
  | comment | blank => contradiction
  | load symbol =>
    have loaded : statics [.load symbol] = symbol.static?.toList := by
      cases symbol <;> rfl
    simp [Line.text, loaded, count_lineFeed_symbol]
  | assign target value => cases target <;> cases value <;> rfl
  | jump value condition => cases value <;> cases condition <;> rfl
  | label serial branch =>
    have none : statics [.label serial branch] = [] := rfl
    simp [Line.text, none, count_lineFeed_symbol, Symbol.static?]

/-- Instructions and labels have the line feeds of the static variables they load. -/
theorem lineFeeds_eq {body : List Line} (code : ∀ line ∈ body, line.isCode = true) :
    lineFeeds body = ((statics body).map fun static => static.1.toList.count '\n').sum := by
  induction body with
  | nil => rfl
  | cons line rest ih =>
    have first := count_lineFeed_line (code line List.mem_cons_self)
    have later := ih fun other listed => code other (List.mem_cons_of_mem line listed)
    have split : statics (line :: rest) = statics [line] ++ statics rest :=
      statics_append [line] rest
    rw [split, List.map_append, List.sum_append, ← first, ← later]
    rfl

/-- The frame of a block adds no line feed if its remark has none. -/
theorem lineFeeds_frame {remark : String} (single : '\n' ∉ remark.toList) (comments : Bool)
    (body : List Line) : lineFeeds (Emitter.frame comments remark body) = lineFeeds body := by
  have comment : lineFeeds [.comment remark] = 0 := by
    simp [lineFeeds, Line.text, List.count_eq_zero.mpr single]
  have blank : lineFeeds [.blank] = 0 := rfl
  rw [Emitter.frame, lineFeeds_append, lineFeeds_append, blank]
  cases comments with
  | false => simp [lineFeeds]
  | true => simp [comment]

end Assembly

/-- Whether a command pushes or pops a static variable. -/
def Command.isStatic : Command → Bool
  | push .statics _ | pop .statics _ => true
  | _ => false

variable {qualifier : String} {comments : Bool} {serial : Nat} {command : Command}
  {commands : List Command} {body lines : List Line}

/-- The block of a command has the line feeds of the qualifier if the command has a static variable,
and none otherwise. -/
theorem lineFeeds_block (made : command.block qualifier serial = .ok body) :
    lineFeeds body = if command.isStatic then qualifier.toList.count '\n' else 0 := by
  rw [lineFeeds_eq (isCode_of_block made), (symbols_block made).2.2]
  cases command with
  | arithmetic operator => rfl
  | push segment index | pop segment index =>
    cases segment <;> simp [StackMachine.static?, Command.isStatic]

/-- A listing has the line feeds of the qualifier once for every command with a static variable. -/
theorem lineFeeds_listing (listed : listing qualifier comments serial commands = .ok lines) :
    lineFeeds lines = commands.countP Command.isStatic * qualifier.toList.count '\n' := by
  induction commands generalizing serial lines with
  | nil =>
    obtain rfl := Except.ok.inj listed
    simp [lineFeeds]
  | cons command rest ih =>
    obtain ⟨body, later, made, others, rfl⟩ := listing_cons listed
    rw [lineFeeds_append, lineFeeds_frame (lineFeed_notMem_text command), lineFeeds_block made,
      ih others, List.countP_cons]
    cases command.isStatic <;> simp [Nat.add_mul, Nat.add_comm]

/-- The bytes of the lines that a source is compiled to have a line feed for each line, and those of
the qualifier for each command with a static variable. -/
theorem count_compiled {source : Source} {texts : Array String}
    (compiled : source.compile qualifier comments = .ok texts) :
    ∃ commands, source.commands = .ok commands ∧
      (fileContent texts).count lineFeed =
        texts.size + commands.countP Command.isStatic * qualifier.toList.count '\n' := by
  obtain ⟨commands, emitter, read, accepted, rfl⟩ := compile_eq_ok_iff.mp compiled
  obtain ⟨lines, listed, collected⟩ := sink_emitAll rfl accepted
  refine ⟨commands, read, ?_⟩
  have feeds : lineFeeds lines =
      commands.toList.countP Command.isStatic * qualifier.toList.count '\n' :=
    lineFeeds_listing listed
  rw [count_fileContent, collected, List.map_map, ← Array.countP_toList, ← feeds]
  rfl

/-- A file that a compilation has written has one line feed for every counted line and, for every
command with a static variable, those of the stem of the input besides; it ends with a line feed if
a line was counted. So it has the counted number of lines exactly when the stem has no line feed or
no command has a static variable. -/
theorem output_line_count {σ : Type} [Journal σ] {tree after : FileTree} {input output : Path}
    {comments : Bool} {count : Nat} {journal later : σ}
    (succeeded : tree.compile input output comments journal = some ((.ok count, later), after)) :
    ∃ place content qualifier commands key, tree.locate input = .ok place ∧
      tree.get? place = some (.file content) ∧
      input.qualifier = .ok qualifier ∧ Source.commands [.bytes content] = .ok commands ∧
      tree.writeKey output = .ok key ∧
      (tree.get? key ≠ some .full → ∃ bytes, after.get? key = some (.file bytes) ∧
        bytes.count lineFeed =
          count + commands.countP Command.isStatic * qualifier.toList.count '\n' ∧
        (0 < count → bytes.getLast? = some lineFeed) ∧
        (bytes.count lineFeed = count ↔
          '\n' ∉ qualifier.toList ∨ ∀ command ∈ commands, command.isStatic = false)) := by
  obtain ⟨place, source, qualifier, lines, found, gives, named, passed, wrote, rfl⟩ :=
    compilation_eq_ok_iff.mp succeeded
  have compiled := compile_of_compileInto passed
  obtain ⟨content, stands, rfl⟩ := file_of_contents found gives compiled
  obtain ⟨commands, read, counted⟩ := count_compiled compiled
  obtain ⟨key, reached, outcome⟩ := FileTree.write_eq_ok_iff.mp wrote
  refine ⟨place, content, qualifier, commands, key, found, stands, named, read, reached,
    fun room => ?_⟩
  obtain ⟨full, -⟩ | ⟨-, rfl⟩ := outcome
  · exact absurd full room
  · refine ⟨fileContent lines, ?_, counted, getLast?_fileContent, ?_⟩
    · rw [FileTree.get?_put (FileTree.free_of_writeKey reached), if_pos rfl]
    · rw [counted, Nat.add_eq_left, Nat.mul_eq_zero, List.count_eq_zero, Array.countP_eq_zero,
        or_comm]
      simp

/-- A stem of two lines adds no line to an output without static variables. -/
theorem output_line_count_without_statics :
    let content := Text.encode "neg\n"
    let tree : FileTree := ⟨[([Text.encode "a\nb.vm"], .file content)], []⟩
    ∃ records after bytes,
      tree.compile (.ofString "/a\nb.vm") (.ofString "/a\nb.asm") false (#[] : Array Record) =
        some ((.ok 4, records), after) ∧
      after.get? [Text.encode "a\nb.asm"] = some (.file bytes) ∧
      bytes.count lineFeed = 4 ∧ bytes.getLast? = some lineFeed := by
  intro content tree
  have found : tree.locate (.ofString "/a\nb.vm") = .ok [Text.encode "a\nb.vm"] := by
    decide +kernel
  have gives : tree.contents [Text.encode "a\nb.vm"] = some [.bytes content] := by decide +kernel
  have named : (Path.ofString "/a\nb.vm").qualifier = .ok "a\nb" := by decide +kernel
  have compiled : Source.compile [.bytes content] "a\nb" false =
      .ok #["@SP", "A=M-1", "M=-M", ""] := by decide +kernel
  have wrote : tree.write (.ofString "/a\nb.asm") (fileContent #["@SP", "A=M-1", "M=-M", ""]) =
      .ok (tree.put [Text.encode "a\nb.asm"] (.file (Text.encode "@SP\nA=M-1\nM=-M\n\n"))) := by
    decide +kernel
  obtain ⟨records, passed⟩ := exists_compileInto compiled (#[] : Array Record)
  have succeeded : tree.compile (.ofString "/a\nb.vm") (.ofString "/a\nb.asm") false
      (#[] : Array Record) = some ((.ok 4, records), _) :=
    compilation_eq_ok_iff.mpr ⟨_, _, "a\nb", _, found, gives, named, passed, wrote, rfl⟩
  obtain ⟨place, _, qualifier, commands, key, input, source, -, read, reached, told⟩ :=
    output_line_count succeeded
  have output : tree.writeKey (.ofString "/a\nb.asm") = .ok [Text.encode "a\nb.asm"] := by
    decide +kernel
  have stands : tree.get? [Text.encode "a\nb.vm"] = some (.file content) := by decide +kernel
  rw [found] at input
  rw [output] at reached
  obtain rfl := Except.ok.inj input
  obtain rfl := Except.ok.inj reached
  rw [stands] at source
  obtain rfl := Entry.file.inj (Option.some.inj source)
  have held : Source.commands [.bytes content] = .ok #[.arithmetic .neg] :=
    (commands_eq _).trans (by decide +kernel)
  rw [held] at read
  obtain rfl := Except.ok.inj read
  obtain ⟨bytes, written, -, ended, exactly⟩ := told (by decide +kernel)
  refine ⟨records, _, bytes, succeeded, written, exactly.mpr (.inr ?_), ended (by decide)⟩
  simp [Command.isStatic]

/-- A stem of two lines breaks the name of a static variable, so the count of lines is too small. -/
theorem broken_static_name_miscounts :
    ¬∀ (tree after : FileTree) (input output : Path) (comments : Bool) (count : Nat)
      (journal later : Array Record) (key : Key) (bytes : List UInt8),
      tree.compile input output comments journal = some ((.ok count, later), after) →
        tree.writeKey output = .ok key → after.get? key = some (.file bytes) →
          bytes.count lineFeed = count := by
  intro counts
  let content := Text.encode "push static 0\n"
  let tree : FileTree := ⟨[([Text.encode "a\nb.vm"], .file content)], []⟩
  let texts := #["@a\nb.0", "D=M", "@SP", "M=M+1", "A=M-1", "M=D", ""]
  have found : tree.locate (.ofString "a\nb.vm") = .ok [Text.encode "a\nb.vm"] := by
    decide +kernel
  have gives : tree.contents [Text.encode "a\nb.vm"] = some [.bytes content] := by decide +kernel
  have named : (Path.ofString "a\nb.vm").qualifier = .ok "a\nb" := by decide +kernel
  have compiled : Source.compile [.bytes content] "a\nb" false = .ok texts := by decide +kernel
  have output : tree.writeKey (Path.ofString "a\nb.vm").output = .ok [Text.encode "a\nb.asm"] := by
    decide +kernel
  have wrote : tree.write (Path.ofString "a\nb.vm").output (fileContent texts) =
      .ok (tree.put [Text.encode "a\nb.asm"] (.file (fileContent texts))) := by decide +kernel
  obtain ⟨records, passed⟩ := exists_compileInto compiled (#[] : Array Record)
  have succeeded : tree.compile (.ofString "a\nb.vm") (Path.ofString "a\nb.vm").output false
      (#[] : Array Record) = some ((.ok 7, records), _) :=
    compilation_eq_ok_iff.mpr ⟨_, _, "a\nb", _, found, gives, named, passed, wrote, rfl⟩
  have eight : (fileContent texts).count lineFeed = 8 := by decide +kernel
  have seven := counts _ _ _ _ _ _ _ _ _ (fileContent texts) succeeded output (by decide +kernel)
  omega

end HackVm
