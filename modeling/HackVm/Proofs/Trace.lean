import HackVm.Proofs.Journal
import HackVm.Proofs.Remarks
import HackVm.Proofs.Session
import HackVm.Proofs.SourceFailures
import Mathlib.Data.List.Induction

/-!
# The trace of a compilation

A compilation logs each command it meets. `Source.meetings` says which these are without regard to
the pass: the commands of all lines up to the first that fails, that one included. `walk_cases` says
what a pass does at one item, and `trace_walk` follows it over all items, with any journal: what it
logs, and which of the commands it has emitted in the end. What a record says can be read again:
neither the blanks around a line nor the way its command is written make a difference to it.
-/
namespace HackVm

namespace Text

/-- Blanks before a text do not change its words. -/
theorem words_dropWhile (chars : List Char) : words (chars.dropWhile isBlank) = words chars := by
  induction chars with
  | nil => rfl
  | cons char rest ih =>
    rw [List.dropWhile_cons]
    split
    · rename_i blank
      have parted := words_append_blank [] rest blank
      rw [List.nil_append, words_nil, List.nil_append] at parted
      rw [parted, ih]
    · rfl

/-- Blanks behind a text do not change its words. -/
theorem words_reverse_dropWhile (chars : List Char) :
    words (chars.reverse.dropWhile isBlank).reverse = words chars := by
  induction chars using List.reverseRecOn with
  | nil => rfl
  | append_singleton front last ih =>
    rw [List.reverse_concat, List.dropWhile_cons]
    split
    · rename_i blank
      rw [ih, words_append_blank front [] blank, words_nil, List.append_nil]
    · rw [List.reverse_cons, List.reverse_reverse]

/-- The blanks around a text do not change its words. -/
theorem words_trim (chars : List Char) : words (trim chars) = words chars := by
  rw [trim, words_reverse_dropWhile, words_dropWhile]

end Text

/-- A line says the same without the blanks around it. -/
theorem parseLine_trim (raw : String) (line : Nat) :
    parseLine (String.ofList (Text.trim raw.toList)) line = parseLine raw line := by
  have words : lineWords (String.ofList (Text.trim raw.toList)) = lineWords raw := by
    rw [lineWords_eq, lineWords_eq, String.toList_ofList, words_codePart, words_codePart,
      Text.words_trim]
  rw [parseLine, parseLine, Command.ofLine, Command.ofLine, words]

/-- A command met in a source. -/
structure Meeting where
  /-- Number of the line that holds it. -/
  line : Nat
  /-- Text of the line without the blanks around it. -/
  text : String
  /-- The command. -/
  command : Command
deriving DecidableEq, Repr

/-- The record of a command met. -/
def Meeting.record (meeting : Meeting) : Record :=
  ⟨.debug, "line " ++ meeting.line.repr ++ ": `" ++ meeting.text ++ "` -> " ++
    meeting.command.text⟩

/-- The command that a numbered item holds, if it can be read as one. -/
def Item.meeting? (item : Item) (line : Nat) : Option Meeting :=
  match item.text with
  | .error _ => none
  | .ok raw =>
    match parseLine raw line with
    | .ok (some command) => some ⟨line, String.ofList (Text.trim raw.toList), command⟩
    | _ => none

variable (qualifier : String) (comments : Bool)

/-- The number of the first of numbered items that fails. -/
def failingLine? (entries : List (Item × Nat)) : Option Nat :=
  (entries.find? fun entry => (entry.1.failure? qualifier comments entry.2).isSome).map Prod.snd

/-- The commands of numbered items no later than the first that fails. -/
def meetings (entries : List (Item × Nat)) : List Meeting :=
  (entries.filter fun entry =>
    (failingLine? qualifier comments entries).all (entry.2 ≤ ·)).filterMap fun entry =>
      entry.1.meeting? entry.2

/-- The commands met in a source: those of its lines no later than the first that fails. -/
def Source.meetings (source : Source) : List Meeting :=
  HackVm.meetings qualifier comments source.numbered

section Meetings

variable {qualifier comments}

/-- Behind an item that fails no command is met. -/
theorem meetings_cons (item : Item) (rest : List Item) (line : Nat) :
    meetings qualifier comments ((item :: rest).zipIdx line) =
      (item.meeting? line).toList ++
        if (item.failure? qualifier comments line).isSome then []
        else meetings qualifier comments (rest.zipIdx (line + 1)) := by
  have greater : ∀ entry ∈ rest.zipIdx (line + 1), line < entry.2 := by
    intro entry listed
    have least := (List.mem_zipIdx listed).1
    omega
  have first (entries : List (Item × Nat)) :
      ((item, line) :: entries).filterMap (fun entry => entry.1.meeting? entry.2) =
        (item.meeting? line).toList ++ entries.filterMap fun entry => entry.1.meeting? entry.2 := by
    cases met : item.meeting? line <;> simp [met]
  cases fails : (item.failure? qualifier comments line).isSome with
  | true =>
    have failing : failingLine? qualifier comments ((item :: rest).zipIdx line) = some line := by
      simp [failingLine?, fails]
    have none : (rest.zipIdx (line + 1)).filter (fun entry => decide (entry.2 ≤ line)) = [] := by
      rw [List.filter_eq_nil_iff]
      intro entry listed
      have behind := greater entry listed
      simpa using behind
    rw [meetings, failing, List.zipIdx_cons, List.filter_cons_of_pos (by simp)]
    exact (first _).trans (by simp [none])
  | false =>
    have failing : failingLine? qualifier comments ((item :: rest).zipIdx line) =
        failingLine? qualifier comments (rest.zipIdx (line + 1)) := by
      simp [failingLine?, fails]
    have early : (failingLine? qualifier comments (rest.zipIdx (line + 1))).all (line ≤ ·) := by
      rw [failingLine?, Option.all_map]
      cases found : (rest.zipIdx (line + 1)).find? fun entry =>
          (entry.1.failure? qualifier comments entry.2).isSome with
      | none => rfl
      | some entry =>
        have behind := greater entry (List.mem_of_find?_eq_some found)
        exact decide_eq_true (Nat.le_of_lt behind)
    rw [meetings, failing, List.zipIdx_cons, List.filter_cons, if_pos early, first]
    rfl

end Meetings

variable {qualifier comments}

/-- What a pass does at an item, with any journal. It goes on behind an item that holds no command
and does not fail, and behind a command that is emitted; it ends at an item that cannot be read,
without logging, and at a command that is refused, which is logged. -/
theorem walk_cases (line : Nat) (emitter : Emitter (Array String)) (item : Item)
    (rest : List Item) :
    (item.meeting? (line + 1) = none ∧
      ((∃ error, item.failure? qualifier comments (line + 1) = some (.source error) ∧
          ∀ {σ : Type} [Journal σ] (journal : σ),
            walk Pass.visitAt Failure.source line ⟨journal, emitter⟩ (item :: rest) =
              (.error (.source error), ⟨journal, emitter⟩)) ∨
        item.failure? qualifier comments (line + 1) = none ∧
          ∀ {σ : Type} [Journal σ] (journal : σ),
            walk Pass.visitAt Failure.source line ⟨journal, emitter⟩ (item :: rest) =
              walk Pass.visitAt Failure.source (line + 1) ⟨journal, emitter⟩ rest)) ∨
    ∃ meeting, item.meeting? (line + 1) = some meeting ∧ meeting.line = line + 1 ∧
      ((∃ error, meeting.command.refusal? = some error ∧
          item.failure? qualifier comments (line + 1) = some (.emission (line + 1) error) ∧
          ∀ {σ : Type} [Journal σ] (journal : σ),
            walk Pass.visitAt Failure.source line ⟨journal, emitter⟩ (item :: rest) =
              (.error (.emission (line + 1) error),
                ⟨logAll journal [meeting.record], emitter⟩)) ∨
        item.failure? qualifier comments (line + 1) = none ∧
          ∃ next, emitter.emit meeting.command = (.ok (), next) ∧
            ∀ {σ : Type} [Journal σ] (journal : σ),
              walk Pass.visitAt Failure.source line ⟨journal, emitter⟩ (item :: rest) =
                walk Pass.visitAt Failure.source (line + 1)
                  ⟨logAll journal [meeting.record], next⟩ rest) := by
  rw [← Item.ending?_answer, Item.ending?, Item.reading, Item.meeting?]
  cases shown : item.text with
  | error fault =>
    refine .inl ⟨rfl, .inl ⟨_, rfl, fun journal => ?_⟩⟩
    simp only [walk, shown]
  | ok raw =>
    dsimp only
    cases parsed : parseLine raw (line + 1) with
    | error error =>
      refine .inl ⟨rfl, .inl ⟨error, rfl, fun journal => ?_⟩⟩
      simp only [walk, shown, parsed]
    | ok held? =>
      cases held? with
      | none =>
        refine .inl ⟨rfl, .inr ⟨rfl, fun journal => ?_⟩⟩
        simp only [walk, shown, parsed]
      | some command =>
        refine .inr ⟨_, rfl, rfl, ?_⟩
        have told := Emitter.fst_emit emitter command
        dsimp only
        rw [Pass.answer]
        cases emitted : emitter.emit command with
        | mk result next =>
          rw [emitted] at told
          cases refused : command.refusal? with
          | none =>
            rw [refused] at told
            obtain rfl : result = .ok () := told
            refine .inr ⟨rfl, next, rfl, fun journal => ?_⟩
            simp only [walk, shown, parsed, Pass.visitAt, Pass.visit, emitted]
            rfl
          | some error =>
            rw [refused] at told
            obtain rfl : result = .error error := told
            refine .inl ⟨error, rfl, rfl, fun journal => ?_⟩
            simp only [walk, shown, parsed, Pass.visitAt, Pass.visit, emitted]
            rw [Emitter.snd_emit_of_error emitted]
            rfl

/-- The commands met are those that were emitted, with one more when the last was refused, and then
the result is the refusal with its line. -/
def Accounts (result : Except Failure Unit) (met : List Meeting) (commands : List Command) : Prop :=
  match result with
  | .error (.emission line error) => ∃ early last, met = early ++ [last] ∧ last.line = line ∧
      last.command.refusal? = some error ∧ early.map Meeting.command = commands
  | _ => met.map Meeting.command = commands

/-- A command that is met and emitted before the others is one more on both sides. -/
theorem Accounts.cons {result : Except Failure Unit} {met : List Meeting}
    {commands : List Command} (accounts : Accounts result met commands) (meeting : Meeting) :
    Accounts result (meeting :: met) (meeting.command :: commands) := by
  unfold Accounts at accounts ⊢
  split at accounts
  · obtain ⟨early, last, rfl, here, refused, rfl⟩ := accounts
    exact ⟨meeting :: early, last, rfl, here, refused, rfl⟩
  · rw [List.map_cons, accounts]

/-- A pass over items logs the commands met, and has emitted them up to one that is refused. What it
comes to is the same with every journal. -/
theorem trace_walk (line : Nat) (emitter : Emitter (Array String)) (items : List Item) :
    ∃ result commands last,
      emitter.emitAll commands = (.ok (), last) ∧
      Accounts result (meetings qualifier comments (items.zipIdx (line + 1))) commands ∧
      ∀ {σ : Type} [Journal σ] (journal : σ),
        walk Pass.visitAt Failure.source line ⟨journal, emitter⟩ items =
          (result, ⟨logAll journal
            ((meetings qualifier comments (items.zipIdx (line + 1))).map Meeting.record),
              last⟩) := by
  induction items generalizing line emitter with
  | nil => exact ⟨.ok (), [], emitter, rfl, rfl, fun _ => rfl⟩
  | cons item rest ih =>
    rw [meetings_cons]
    obtain ⟨silent, ⟨error, fails, ended⟩ | ⟨fine, later⟩⟩ |
        ⟨meeting, met, here, ⟨error, refused, fails, ended⟩ | ⟨fine, next, emitted, later⟩⟩ :=
      walk_cases line emitter item rest
    · rw [silent, fails]
      exact ⟨.error (.source error), [], emitter, rfl, rfl, ended⟩
    · rw [silent, fine]
      obtain ⟨result, commands, last, accepted, accounts, walked⟩ := ih (line + 1) emitter
      exact ⟨result, commands, last, accepted, accounts,
        fun journal => (later journal).trans (walked journal)⟩
    · rw [met, fails]
      exact ⟨.error (.emission (line + 1) error), [], emitter, rfl,
        ⟨[], meeting, rfl, here, refused, rfl⟩, ended⟩
    · rw [met, fine]
      obtain ⟨result, commands, last, accepted, accounts, walked⟩ := ih (line + 1) next
      refine ⟨result, meeting.command :: commands, last, ?_, accounts.cons meeting,
        fun journal => (later journal).trans (walked _)⟩
      rw [Emitter.emitAll, emitted]
      exact accepted

/-- A command that is met in a line can be read again from the text of its record, and from its own
text. -/
theorem parseLine_of_meeting? {item : Item} {line : Nat} {meeting : Meeting}
    (met : item.meeting? line = some meeting) :
    parseLine meeting.text meeting.line = .ok (some meeting.command) ∧
      parseLine meeting.command.text meeting.line = .ok (some meeting.command) := by
  have held : meeting.line = line ∧ item.reading line = .ok (some meeting.command) ∧
      parseLine meeting.text line = .ok (some meeting.command) := by
    unfold Item.meeting? at met
    split at met
    · contradiction
    · rename_i raw shown
      split at met
      · rename_i command parsed
        obtain rfl := Option.some.inj met
        exact ⟨rfl, by simp only [Item.reading, shown, parsed], by rw [parseLine_trim, parsed]⟩
      · contradiction
  obtain ⟨here, read, again⟩ := held
  rw [here]
  refine ⟨again, ?_⟩
  rw [parseLine, ofLine_text fun index indexed => loadable_of_reading read indexed]
  rfl

/-- The records of the commands met in a source. -/
def Source.records (source : Source) (qualifier : String) (comments : Bool) : List Record :=
  (source.meetings qualifier comments).map Meeting.record

/-- A pass over a source logs the commands met, and what it comes to is the same with every
journal. -/
theorem exists_ofSource_eq (source : Source) (qualifier : String) (comments : Bool) :
    ∃ result commands last,
      (Emitter.new qualifier comments #[]).emitAll commands = (.ok (), last) ∧
      Accounts result (source.meetings qualifier comments) commands ∧
      ∀ {σ : Type} [Journal σ] (journal : σ),
        Pass.ofSource source qualifier comments journal =
          (result, ⟨logAll journal (source.records qualifier comments), last⟩) := by
  obtain ⟨result, commands, last, accepted, accounts, walked⟩ :=
    @trace_walk qualifier comments 0 (Emitter.new qualifier comments #[]) source.items
  refine ⟨result, commands, last, accepted, accounts, fun journal => ?_⟩
  rw [Pass.ofSource_eq_walk]
  exact walked journal

/-- Compiling a source logs the commands met. -/
theorem compileInto_eq {σ : Type} [Journal σ] (source : Source) (qualifier : String)
    (comments : Bool) (journal : σ) :
    source.compileInto qualifier comments journal =
      (source.compile qualifier comments,
        logAll journal (source.records qualifier comments)) := by
  obtain ⟨result, commands, last, -, -, passed⟩ := exists_ofSource_eq source qualifier comments
  rw [Source.compile, Source.compileInto, Source.compileInto, passed, passed]
  cases result <;> rfl

/-- A console shows the commands met as they are met, if it shows steps of the work at all. -/
theorem snd_compileInto_console (source : Source) (qualifier : String) (comments : Bool)
    (console : Console) :
    (source.compileInto qualifier comments console).2 =
      if console.minimum = .debug then
        console.write (String.join
          ((source.meetings qualifier comments).map (·.record.text console.terminal)))
      else console := by
  have levels (record : Record) (listed : record ∈ source.records qualifier comments) :
      console.enabled record.level = decide (console.minimum = .debug) := by
    obtain ⟨meeting, -, rfl⟩ := List.mem_map.mp listed
    cases least : console.minimum <;> simp [Console.enabled, least, Meeting.record, Level.rank]
  rw [compileInto_eq, Console.logAll_eq, Console.shown, List.filter_congr levels]
  by_cases least : console.minimum = .debug
  · rw [if_pos least]
    simp [least, Source.records, Function.comp_def]
  · rw [if_neg least]
    simp [least, Console.write]

/-- The records of a compilation are those of the commands it meets, in order. A console that shows
steps of the work shows them all as they are met, and any other console shows nothing. The commands
met are the commands emitted, with one more exactly when the last was refused, which is then the
failure of the compilation by its line. From the text of each record, and from the command in it,
the command can be read again. -/
theorem trace_is_exact (source : Source) (qualifier : String) (comments : Bool) :
    (source.trace qualifier comments).toList =
      (source.meetings qualifier comments).map Meeting.record ∧
    (∀ console : Console, (source.compileInto qualifier comments console).2 =
      if console.minimum = .debug then
        { console with
          stderr := console.stderr ++ String.join
            ((source.meetings qualifier comments).map (·.record.text console.terminal)) }
      else console) ∧
    (∃ commands,
      (Emitter.new qualifier comments #[]).emitAll commands =
          (.ok (), (Pass.ofSource source qualifier comments (#[] : Array Record)).2.emitter) ∧
        ((∀ line error, source.compile qualifier comments ≠ .error (.emission line error)) →
          (source.trace qualifier comments).size = commands.length ∧
            (source.meetings qualifier comments).map Meeting.command = commands) ∧
        ∀ line error, source.compile qualifier comments = .error (.emission line error) →
          (source.trace qualifier comments).size = commands.length + 1 ∧
            ∃ last, (source.meetings qualifier comments).getLast? = some last ∧
              last.line = line ∧
              (source.meetings qualifier comments).map Meeting.command =
                commands ++ [last.command]) ∧
    ∀ meeting ∈ source.meetings qualifier comments,
      parseLine meeting.text meeting.line = .ok (some meeting.command) ∧
        parseLine meeting.command.text meeting.line = .ok (some meeting.command) := by
  have left : (source.trace qualifier comments).toList =
      (source.meetings qualifier comments).map Meeting.record := by
    rw [Source.trace, compileInto_eq, toList_logAll]
    rfl
  have size : (source.trace qualifier comments).size =
      (source.meetings qualifier comments).length := by
    rw [← Array.length_toList, left, List.length_map]
  obtain ⟨result, commands, last, accepted, accounts, passed⟩ :=
    exists_ofSource_eq source qualifier comments
  have compiled : ∀ failure, source.compile qualifier comments = .error failure ↔
      result = .error failure := by
    intro failure
    rw [Source.compile, Source.compileInto, passed]
    cases result <;> simp
  refine ⟨left, snd_compileInto_console source qualifier comments,
    ⟨commands, by rw [passed, accepted], ?_, ?_⟩, ?_⟩
  · intro other
    have same : (source.meetings qualifier comments).map Meeting.command = commands := by
      unfold Accounts at accounts
      split at accounts
      · rename_i line error
        exact absurd ((compiled _).mpr rfl) (other line error)
      · exact accounts
    exact ⟨by rw [size, ← same, List.length_map], same⟩
  · intro line error failed
    rw [(compiled _).mp failed] at accounts
    obtain ⟨early, last, met, here, -, same⟩ := accounts
    rw [size, met, ← same]
    exact ⟨by simp, last, by simp, here, by simp⟩
  · intro meeting listed
    obtain ⟨entry, -, met⟩ := List.mem_filterMap.mp listed
    exact parseLine_of_meeting? met

/-- A pop that is refused is recorded as the line has it, and what follows it is not. -/
theorem refused_pop_is_recorded :
    let source : Source := [.bytes (Text.encode "NEG // x\n\tPop Constant 01 \nadd")]
    source.compile "T" true = .error (.emission 2 .popConstant) ∧
      (source.trace "T" true).toList =
        [⟨.debug, "line 1: `NEG // x` -> neg"⟩,
          ⟨.debug, "line 2: `Pop Constant 01` -> pop constant 1"⟩] ∧
      ∃ last : Meeting, (source.meetings "T" true).getLast? = some last ∧ last.line = 2 ∧
        parseLine last.text 2 = .ok (some (.pop .constant 1)) := by
  intro source
  have compiled : source.compile "T" true = .error (.emission 2 .popConstant) :=
    compile_of_failure (by decide +kernel)
  have met : source.meetings "T" true =
      [⟨1, "NEG // x", .arithmetic .neg⟩, ⟨2, "Pop Constant 01", .pop .constant 1⟩] := by
    decide +kernel
  obtain ⟨records, -, ⟨commands, -, -, refused⟩, again⟩ := trace_is_exact source "T" true
  obtain ⟨-, last, found, here, -⟩ := refused _ _ compiled
  refine ⟨compiled, by rw [records, met]; rfl, last, found, here, ?_⟩
  have listed := again last (List.mem_of_getLast? found)
  rw [met] at found
  obtain rfl := Option.some.inj found
  exact listed.1

end HackVm
