import HackVm.Proofs.TextLines
import Mathlib.Logic.Relation

/-!
# Layout and case

What a text is compiled to is decided by the words of its code, up to the case of ASCII letters: how
many lines without words it has, what its comments say and which blanks stand between its words make
no difference. Texts with the same code fail alike too, with a failure that differs in the number of
the line alone. `codeLines` keeps the numbers of the lines that have words, so that the numbers of
two failures can be compared though other lines stand between them. Edits of the layout are listed
in `Relaid`; a text that is compiled is compiled to the same lines after any number of them.
-/
namespace HackVm

open Text

/-- The code of a line has no comment of its own. -/
theorem codePart_codePart (line : List Char) : codePart (codePart line) = codePart line := by
  rcases uncommented_codePart line with ⟨same, -⟩ | ⟨-, first⟩
  · rw [same, same]
  · refine (uncommented_codePart _).unique (.inl ⟨rfl, ?_⟩)
    intro slashes
    exact first (slashes.trans List.infix_append_left)

/-- A comment behind a line whose code has no slash does not change the code. -/
theorem codePart_append_comment {line : List Char} (slashless : '/' ∉ codePart line)
    (comment : List Char) : codePart (line ++ '/' :: '/' :: comment) = codePart line := by
  fun_induction codePart line with
  | case1 => rfl
  | case2 => rfl
  | case3 first rest single ih =>
    rw [List.mem_cons, not_or] at slashless
    obtain ⟨notSlash, later⟩ := slashless
    rw [List.cons_append, codePart, ih later]
    exact fun _ slash _ => notSlash slash.symm

/-- The code of a line with small ASCII letters. -/
theorem codePart_map_toLower (line : List Char) :
    codePart (line.map Char.toLower) = (codePart line).map Char.toLower := by
  have slash (char : Char) : char.toLower = '/' ↔ char = '/' := toLower_eq_iff (by decide)
  fun_induction codePart line with
  | case1 => rfl
  | case2 comment => rfl
  | case3 first rest single ih =>
    rw [List.map_cons, codePart, ih, List.map_cons]
    intro tail begins next
    obtain ⟨second, others, rfl, lowered, -⟩ := List.map_eq_cons_iff.mp next
    exact single others ((slash first).mp begins) (by rw [(slash second).mp lowered])

/-- The words of the code of a line, as they are written. -/
def codeWords (line : String) : List (List Char) := words (codePart line.toList)

/-- Words without regard to the case of ASCII letters. -/
def foldCase (written : List (List Char)) : List (List Char) := written.map (List.map Char.toLower)

/-- Words as they are read. -/
def readWords (written : List (List Char)) : List String := written.map (String.ofList ∘ lowercase)

/-- The words of a line are those of its code as they are read. -/
theorem lineWords_eq_readWords (line : String) : lineWords line = readWords (codeWords line) :=
  lineWords_eq line

/-- Words are read without regard to the case of ASCII letters. -/
theorem readWords_foldCase (written : List (List Char)) :
    readWords (foldCase written) = readWords written := by
  rw [readWords, foldCase, List.map_map]
  refine List.map_congr_left fun word _ => ?_
  rw [Function.comp_apply, Function.comp_apply, lowercase_map_toLower, Function.comp_apply]

/-- The lines of a text that have words, each as its words and its number. -/
def codeLines (text : String) : List (List (List Char) × Nat) :=
  (((textLines text).map codeWords).zipIdx 1).filter fun entry => entry.1 ≠ []

/-- The code of a text: the words of its lines without regard to the case of ASCII letters. -/
def codeOf (text : String) : List (List (List Char)) :=
  (codeLines text).map fun entry => foldCase entry.1

/-- What is found in the lines of a text, and never in a line without words, is found in the lines
with words. -/
theorem filterMap_codeLines {β : Type} (find? : List String → Nat → Option β)
    (silent : ∀ line, find? [] line = none) (text : String) :
    ((textLines text).zipIdx 1).filterMap (fun entry => find? (lineWords entry.1) entry.2) =
      (codeLines text).filterMap fun entry => find? (readWords entry.1) entry.2 := by
  rw [codeLines, List.filterMap_filter, List.zipIdx_map, List.filterMap_map]
  refine List.filterMap_congr fun entry _ => ?_
  rw [lineWords_eq_readWords]
  by_cases empty : codeWords entry.1 = []
  · simp [empty, readWords, silent]
  · simp [empty]

/-- The first failure of a text is that of a line with words. -/
theorem lineFailure?_textLines (text : String) :
    lineFailure? (textLines text) =
      firstFlaw? (fun written => Flaw.ofWords? (readWords written)) (codeLines text) := by
  have found := filterMap_codeLines
    (fun said line => (Flaw.ofWords? said).map (Flaw.failure line)) (fun _ => rfl) text
  rw [lineFailure?, firstFlaw?, firstFlaw?, ← List.head?_filterMap, ← List.head?_filterMap, found]

/-- The commands of a text are those of its lines with words. -/
theorem lineCommands_textLines (text : String) :
    lineCommands (textLines text) =
      (codeLines text).filterMap fun entry => Command.ofWords? (readWords entry.1) := by
  rw [← filterMap_codeLines (fun said _ => Command.ofWords? said) (fun _ => rfl), lineCommands]
  conv_lhs => rw [← List.zipIdx_map_fst 1 (textLines text), List.filterMap_map]
  rfl

section FirstFlaw

variable {α : Type} {flaw? : α → Option Flaw}

/-- A flaw of the first entry is the first flaw. -/
theorem firstFlaw?_cons_of_some {entry : α × Nat} {flaw : Flaw}
    (flawed : flaw? entry.1 = some flaw) (rest : List (α × Nat)) :
    firstFlaw? flaw? (entry :: rest) = some (flaw.failure entry.2) := by
  rw [firstFlaw?, List.findSome?_cons, flawed]
  rfl

/-- An entry without a flaw is passed over. -/
theorem firstFlaw?_cons_of_none {entry : α × Nat} (faultless : flaw? entry.1 = none)
    (rest : List (α × Nat)) : firstFlaw? flaw? (entry :: rest) = firstFlaw? flaw? rest := by
  rw [firstFlaw?, List.findSome?_cons, faultless]
  rfl

/-- Numbered entries with the same flaws on two sides have none, or the first that has one is at the
same place on both sides. -/
theorem firstFlaw?_alike {left right : List (α × Nat)}
    (same : left.map (flaw? ·.1) = right.map (flaw? ·.1)) :
    firstFlaw? flaw? left = none ∧ firstFlaw? flaw? right = none ∨
      ∃ (position : Nat) (one other : α × Nat) (flaw : Flaw),
        left[position]? = some one ∧ right[position]? = some other ∧
          firstFlaw? flaw? left = some (flaw.failure one.2) ∧
          firstFlaw? flaw? right = some (flaw.failure other.2) := by
  induction left generalizing right with
  | nil =>
    obtain rfl := List.map_eq_nil_iff.mp same.symm
    exact .inl ⟨rfl, rfl⟩
  | cons first rest ih =>
    obtain ⟨second, others, rfl, alike, later⟩ := List.map_eq_cons_iff.mp same.symm
    cases flawed : flaw? first.1 with
    | some flaw =>
      have also : flaw? second.1 = some flaw := alike.trans flawed
      exact .inr ⟨0, first, second, flaw, rfl, rfl, firstFlaw?_cons_of_some flawed rest,
        firstFlaw?_cons_of_some also others⟩
    | none =>
      have also : flaw? second.1 = none := alike.trans flawed
      rw [firstFlaw?_cons_of_none flawed, firstFlaw?_cons_of_none also]
      rcases ih later.symm with clean | ⟨position, found⟩
      · exact .inl clean
      · exact .inr ⟨position + 1, found⟩

end FirstFlaw

variable {text other : String}

/-- Texts with the same code say the same in the lines that have words. -/
theorem map_codeLines_of_codeOf {β : Type} (same : codeOf text = codeOf other)
    (value : List String → β) :
    (codeLines text).map (fun entry => value (readWords entry.1)) =
      (codeLines other).map fun entry => value (readWords entry.1) := by
  have folded (source : String) : (codeLines source).map (fun entry => value (readWords entry.1)) =
      (codeOf source).map (value ∘ readWords) := by
    rw [codeOf, List.map_map]
    refine List.map_congr_left fun entry _ => ?_
    rw [Function.comp_apply, Function.comp_apply, readWords_foldCase]
  rw [folded, folded, same]

/-- Texts with the same code have the same commands. -/
theorem lineCommands_of_codeOf (same : codeOf text = codeOf other) :
    lineCommands (textLines text) = lineCommands (textLines other) := by
  have alike := congrArg (List.filterMap id) (map_codeLines_of_codeOf same Command.ofWords?)
  simpa only [List.filterMap_map, Function.id_comp, ← lineCommands_textLines] using alike

/-- Texts without a flaw that have the same commands are compiled alike. -/
theorem compile_of_lineCommands (qualifier : String) (comments : Bool)
    (faultless : lineFailure? (textLines text) = none)
    (also : lineFailure? (textLines other) = none)
    (same : lineCommands (textLines other) = lineCommands (textLines text)) :
    ∃ lines, Source.compile [.bytes (encode text)] qualifier comments = .ok lines ∧
      Source.compile [.bytes (encode other)] qualifier comments = .ok lines := by
  obtain ⟨emitter, emitted, compiled⟩ := @compile_of_faultless qualifier comments _ faultless
  obtain ⟨emitter', emitted', compiled'⟩ := @compile_of_faultless qualifier comments _ also
  rw [same, emitted] at emitted'
  obtain rfl := (Prod.mk.inj emitted').2
  exact ⟨_, compiled, compiled'⟩

/-- A line before and after an edit that changes its layout only. -/
inductive Edited : String → String → Prop where
  /-- A comment is put behind the line. -/
  | comment (line remark : String) : Edited line (line ++ "//" ++ remark)
  /-- The comment of the line is taken away. -/
  | uncomment (line : String) : Edited line (String.ofList (codePart line.toList))
  /-- Other blanks are put around the same words. -/
  | spacing {line other : String} (same : words line.toList = words other.toList) :
    Edited line other
  /-- Letters of ASCII are written in another case. -/
  | letters {line other : String}
    (same : line.toList.map Char.toLower = other.toList.map Char.toLower) : Edited line other

/-- A carriage return at the end of a line is spacing. -/
theorem edited_append_return (line : String) : Edited line (line ++ "\r") := by
  have parts : (line ++ "\r").toList = line.toList ++ ['\r'] := String.toList_append
  refine .spacing ?_
  rw [parts, words_append_return]

/-- The lines of a text before and after one edit of its layout. -/
inductive Relaid : List String → List String → Prop where
  /-- One line is edited. -/
  | edit (before : List String) {line other : String} (edited : Edited line other)
    (after : List String) : Relaid (before ++ line :: after) (before ++ other :: after)
  /-- A blank line or a line with a comment only is put in. -/
  | insert (before : List String) {line : String} (empty : codeWords line = [])
    (after : List String) : Relaid (before ++ after) (before ++ line :: after)
  /-- A blank line or a line with a comment only is taken out. -/
  | delete (before : List String) {line : String} (empty : codeWords line = [])
    (after : List String) : Relaid (before ++ line :: after) (before ++ after)

/-- The code of a line without a flaw has no slash. -/
theorem slash_notMem_codePart {line : String}
    (faultless : Flaw.ofWords? (lineWords line) = none) : '/' ∉ codePart line.toList := by
  have read : ∃ held?, Command.ofLine line = .ok held? := by
    cases told : Command.ofLine line with
    | error fault =>
      rw [Flaw.ofWords?, ← Command.ofLine, told] at faultless
      contradiction
    | ok held? => exact ⟨held?, rfl⟩
  obtain ⟨held?, read⟩ := read
  intro slash
  obtain ⟨word, listed, inside⟩ := exists_word slash (by decide)
  exact slash_notMem_of_writes (ofLine_eq_ok_iff_writes.mp read) word listed inside

/-- An edit of a line without a flaw changes none of its words. -/
theorem lineWords_of_edited {line other : String} (edited : Edited line other)
    (faultless : Flaw.ofWords? (lineWords line) = none) : lineWords other = lineWords line := by
  have written : foldCase (codeWords other) = foldCase (codeWords line) := by
    cases edited with
    | comment remark =>
      -- Behind code that ends in a slash the comment would begin one character earlier.
      have slashless := slash_notMem_codePart faultless
      have parts :
          (line ++ "//" ++ remark).toList = line.toList ++ '/' :: '/' :: remark.toList := by
        simp
      rw [codeWords, parts, codePart_append_comment slashless, ← codeWords]
    | uncomment =>
      rw [codeWords, String.toList_ofList, codePart_codePart, ← codeWords]
    | spacing same =>
      rw [codeWords, codeWords, words_codePart, words_codePart, same]
    | letters same =>
      rw [codeWords, codeWords, foldCase, foldCase, ← words_map_toLower, ← words_map_toLower,
        ← codePart_map_toLower, ← codePart_map_toLower, same]
  rw [lineWords_eq_readWords, lineWords_eq_readWords, ← readWords_foldCase, written,
    readWords_foldCase]

/-- A line without words among others has no flaw and no command. -/
theorem lineFailure?_silent {line : String} (empty : codeWords line = [])
    (before after : List String) :
    (lineFailure? (before ++ line :: after) = none ↔ lineFailure? (before ++ after) = none) ∧
      lineCommands (before ++ line :: after) = lineCommands (before ++ after) := by
  have silent : lineWords line = [] := by
    rw [lineWords_eq_readWords, empty]
    rfl
  have faultless : Flaw.ofWords? (lineWords line) = none := by
    rw [silent]
    rfl
  have nothing : Command.ofWords? (lineWords line) = none := by
    rw [silent]
    rfl
  constructor
  · simp only [lineFailure?_eq_none_iff, List.forall_mem_append, List.forall_mem_cons, faultless,
      true_and]
  · simp only [lineCommands, List.filterMap_append, List.filterMap_cons, nothing]

/-- One edit of the layout of lines without a flaw gives no flaw and changes no command. -/
theorem relaid_step {lines others : List String} (relaid : Relaid lines others)
    (faultless : lineFailure? lines = none) :
    lineFailure? others = none ∧ lineCommands others = lineCommands lines := by
  cases relaid with
  | @edit before line other edited after =>
    rw [lineFailure?_eq_none_iff] at faultless ⊢
    have same := lineWords_of_edited edited (faultless line (by simp))
    simp only [List.forall_mem_append, List.forall_mem_cons, same] at faultless ⊢
    refine ⟨faultless, ?_⟩
    simp only [lineCommands, List.filterMap_append, List.filterMap_cons, same]
  | @insert before line empty after =>
    obtain ⟨flaws, commands⟩ := lineFailure?_silent empty before after
    exact ⟨flaws.mpr faultless, commands⟩
  | @delete before line empty after =>
    obtain ⟨flaws, commands⟩ := lineFailure?_silent empty before after
    exact ⟨flaws.mp faultless, commands.symm⟩

/-- Any number of edits of the layout of lines without a flaw gives no flaw and changes no
command. -/
theorem relaid_run {lines others : List String} (relaid : Relation.ReflTransGen Relaid lines others)
    (faultless : lineFailure? lines = none) :
    lineFailure? others = none ∧ lineCommands others = lineCommands lines := by
  induction relaid with
  | refl => exact ⟨faultless, rfl⟩
  | tail before step ih =>
    obtain ⟨clean, commands⟩ := ih
    obtain ⟨still, same⟩ := relaid_step step clean
    exact ⟨still, same.trans commands⟩

/-- Texts with the same code, up to the case of ASCII letters, are compiled to the same lines or to
the same failure but for its number, which is on both sides that of the line at the same place among
the lines with words. And a text that is compiled is compiled to the same lines after any number of
edits of its layout: blank lines and lines with a comment only are put in or taken out, carriage
returns, comments and blanks are added, and letters are written in another case. -/
theorem layout_is_immaterial (text other qualifier : String) (comments : Bool) :
    (codeOf text = codeOf other →
      (∃ lines, Source.compile [.bytes (encode text)] qualifier comments = .ok lines ∧
        Source.compile [.bytes (encode other)] qualifier comments = .ok lines) ∨
      ∃ (position : Nat) (one another : List (List Char) × Nat) (flaw : Flaw),
        (codeLines text)[position]? = some one ∧ (codeLines other)[position]? = some another ∧
          Source.compile [.bytes (encode text)] qualifier comments =
            .error (flaw.failure one.2) ∧
          Source.compile [.bytes (encode other)] qualifier comments =
            .error (flaw.failure another.2)) ∧
    ∀ lines, Source.compile [.bytes (encode text)] qualifier comments = .ok lines →
      Relation.ReflTransGen Relaid (textLines text) (textLines other) →
        Source.compile [.bytes (encode other)] qualifier comments = .ok lines := by
  constructor
  · intro same
    have alike := map_codeLines_of_codeOf same Flaw.ofWords?
    rcases @firstFlaw?_alike _ (fun written => Flaw.ofWords? (readWords written)) _ _ alike with
      ⟨clean, also⟩ | ⟨position, one, another, flaw, here, there, first, second⟩
    · rw [← lineFailure?_textLines] at clean also
      exact .inl (compile_of_lineCommands qualifier comments clean also
        (lineCommands_of_codeOf same).symm)
    · rw [← lineFailure?_textLines] at first second
      exact .inr ⟨position, one, another, flaw, here, there, compile_of_lineFailure first,
        compile_of_lineFailure second⟩
  · intro lines compiled relaid
    have faultless : lineFailure? (textLines text) = none := by
      cases found : lineFailure? (textLines text) with
      | none => rfl
      | some failure =>
        rw [compile_of_lineFailure found] at compiled
        contradiction
    obtain ⟨clean, commands⟩ := relaid_run relaid faultless
    obtain ⟨others, before, after⟩ :=
      compile_of_lineCommands qualifier comments faultless clean commands
    rw [after, ← compiled, before]

/-- A word with a capital sigma at its end is named alike in failures at different lines; and a
command is compiled to the same lines with a comment, in capitals and between other lines. -/
theorem layout_is_immaterial_to_sigma :
    (Source.compile [.bytes (encode "Push temp 0\nAΣ 1")] "Q" true =
        .error (.source ⟨2, .malformed (.unknownCommand "aς")⟩) ∧
      Source.compile [.bytes (encode "\n PUSH TEMP 0 // x\r\n\r\naΣ\t1//B")] "Q" true =
        .error (.source ⟨4, .malformed (.unknownCommand "aς")⟩)) ∧
    ∃ lines, Source.compile [.bytes (encode "add")] "Q" true = .ok lines ∧
      Source.compile [.bytes (encode "// y\nADD // x\r\n")] "Q" true = .ok lines := by
  have failed : Source.compile [.bytes (encode "Push temp 0\nAΣ 1")] "Q" true =
      .error (.source ⟨2, .malformed (.unknownCommand "aς")⟩) :=
    compile_of_lineFailure (by decide +kernel)
  have same : codeOf "Push temp 0\nAΣ 1" = codeOf "\n PUSH TEMP 0 // x\r\n\r\naΣ\t1//B" := by
    decide +kernel
  have numbers : (codeLines "Push temp 0\nAΣ 1").map Prod.snd = [1, 2] := by decide +kernel
  have others : (codeLines "\n PUSH TEMP 0 // x\r\n\r\naΣ\t1//B").map Prod.snd = [2, 4] := by
    decide +kernel
  have place : ∀ position : Nat, [1, 2][position]? = some 2 → position = 1
    | 0, found | _ + 2, found => by simp at found
    | 1, _ => rfl
  refine ⟨⟨failed, ?_⟩, ?_⟩
  · rcases (layout_is_immaterial _ _ "Q" true).1 same with
      ⟨lines, compiled, -⟩ | ⟨position, one, another, flaw, here, there, first, second⟩
    · rw [failed] at compiled
      contradiction
    · have number : [1, 2][position]? = some one.2 := by
        rw [← numbers, List.getElem?_map, here, Option.map_some]
      have also : [2, 4][position]? = some another.2 := by
        rw [← others, List.getElem?_map, there, Option.map_some]
      rw [failed] at first
      cases flaw with
      | refused error => simp [Flaw.failure] at first
      | malformed fault =>
        simp only [Flaw.failure, Except.error.injEq, Failure.source.injEq, SourceError.mk.injEq,
          SourceFault.malformed.injEq] at first
        obtain ⟨line, rfl⟩ := first
        rw [← line] at number
        rw [place position number] at also
        rw [second, ← Option.some.inj also]
        rfl
  · have start : textLines "add" = ["add"] := by decide
    have result : textLines "// y\nADD // x\r\n" = ["// y", "ADD // x\r", ""] := by decide
    have capitals : Relaid ["add"] ["ADD"] := .edit [] (.letters (by decide)) []
    have space : Relaid ["ADD"] ["ADD "] := .edit [] (.spacing (by decide)) []
    have comment : Relaid ["ADD "] ["ADD // x"] := .edit [] (.comment "ADD " " x") []
    have ending : Relaid ["ADD // x"] ["ADD // x\r"] := .edit [] (edited_append_return _) []
    have last : Relaid ["ADD // x\r"] ["ADD // x\r", ""] := .insert ["ADD // x\r"] (by decide) []
    have first : Relaid ["ADD // x\r", ""] ["// y", "ADD // x\r", ""] := .insert [] (by decide) _
    have relaid : Relation.ReflTransGen Relaid (textLines "add")
        (textLines "// y\nADD // x\r\n") := by
      rw [start, result]
      exact .tail (.tail (.tail (.tail (.tail (.single capitals) space) comment) ending) last) first
    obtain ⟨emitter, -, compiled⟩ := @compile_of_faultless "Q" true "add" (by decide +kernel)
    exact ⟨_, compiled, (layout_is_immaterial _ _ "Q" true).2 _ compiled relaid⟩

end HackVm
