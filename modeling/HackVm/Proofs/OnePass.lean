import HackVm.Proofs.Emission
import HackVm.Proofs.Source.Items
import HackVm.Source.Compile
import Mathlib.Data.List.Pairwise

/-!
# One pass

A source is compiled in one pass, a line at a time. The outcome is the same as if all lines were
looked at first: the failure of the first item that has one, by its number, and without any the
lines of assembly of all commands in order. `fst_walk` and `snd_walk` say this for any walk whose
visitor refuses a command or not without regard to its state; compiling and collecting the commands
of a text are two such walks over the same items, so they can be compared.
-/
namespace HackVm

section Walk

variable {σ τ ε : Type} {visit : σ → Nat → String → Command → Except ε Unit × σ}
  {refuse : SourceError → ε} {answer : Nat → Command → Except ε Unit}

/-- What ends a walk at a numbered item, when the visitor answers by number and command. -/
def Item.ending? (refuse : SourceError → ε) (answer : Nat → Command → Except ε Unit)
    (item : Item) (line : Nat) : Option ε :=
  match item.reading line with
  | .error error => some (refuse error)
  | .ok none => none
  | .ok (some command) =>
    match answer line command with
    | .error error => some error
    | .ok () => none

/-- A walk goes on behind an item that does not end it, with the command of the item visited. -/
theorem walk_cons (steady : ∀ state line text command,
      (visit state line text command).1 = answer line command)
    (refuse : SourceError → ε) (line : Nat) (state : σ) (item : Item) (rest : List Item) :
    (∃ error, item.ending? refuse answer (line + 1) = some error ∧
        (walk visit refuse line state (item :: rest)).1 = .error error) ∨
      item.ending? refuse answer (line + 1) = none ∧
        ((item.command? = none ∧
            walk visit refuse line state (item :: rest) =
              walk visit refuse (line + 1) state rest) ∨
          ∃ text command, item.command? = some command ∧
            walk visit refuse line state (item :: rest) =
              walk visit refuse (line + 1) (visit state (line + 1) text command).2 rest) := by
  cases read : item.reading (line + 1) with
  | error error =>
    refine .inl ⟨refuse error, by simp only [Item.ending?, read], ?_⟩
    cases shown : item.text with
    | error fault =>
      simp only [Item.reading, shown, Except.error.injEq] at read
      simp only [walk, shown, read]
    | ok text =>
      simp only [Item.reading, shown] at read
      simp only [walk, shown, read]
  | ok held? =>
    have holds : item.command? = held? := Item.command?_of_reading read
    cases shown : item.text with
    | error fault =>
      simp only [Item.reading, shown] at read
      contradiction
    | ok text =>
      have parsed : parseLine text (line + 1) = .ok held? := by
        simpa only [Item.reading, shown] using read
      cases held? with
      | none =>
        refine .inr ⟨by simp only [Item.ending?, read], .inl ⟨holds, ?_⟩⟩
        simp only [walk, shown, parsed]
      | some command =>
        have told := steady state (line + 1) text command
        cases visited : visit state (line + 1) text command with
        | mk result after =>
          rw [visited] at told
          cases result with
          | error error =>
            refine .inl ⟨error, by simp only [Item.ending?, read, ← told], ?_⟩
            simp only [walk, shown, parsed, visited]
          | ok =>
            refine .inr ⟨by simp only [Item.ending?, read, ← told], .inr ⟨text, command, holds, ?_⟩⟩
            simp only [walk, shown, parsed, visited]

/-- A walk ends with what its first ending item says, or without an error. -/
theorem fst_walk (steady : ∀ state line text command,
      (visit state line text command).1 = answer line command)
    (refuse : SourceError → ε) (line : Nat) (state : σ) (items : List Item) :
    (walk visit refuse line state items).1 =
      match (items.zipIdx (line + 1)).findSome? fun entry =>
        entry.1.ending? refuse answer entry.2 with
      | some error => .error error
      | none => .ok () := by
  induction items generalizing line state with
  | nil => rfl
  | cons item rest ih =>
    rw [List.zipIdx_cons, List.findSome?_cons]
    obtain ⟨error, ends, result⟩ | ⟨goes, ⟨-, later⟩ | ⟨text, command, -, later⟩⟩ :=
      walk_cons steady refuse line state item rest
    · simp only [ends, result]
    · simp only [goes, later, ih]
    · simp only [goes, later, ih]

/-- A walk without an error has visited the commands of all items; `view` is what of the state is
looked at, and every visit moves it by the command alone. -/
theorem snd_walk (view : σ → τ) (move : τ → Command → τ)
    (steady : ∀ state line text command,
      (visit state line text command).1 = answer line command)
    (moves : ∀ state line text command,
      view (visit state line text command).2 = move (view state) command)
    {line : Nat} (state : σ) {items : List Item}
    (clean : (items.zipIdx (line + 1)).findSome? (fun entry =>
      entry.1.ending? refuse answer entry.2) = none) :
    view (walk visit refuse line state items).2 =
      (items.filterMap Item.command?).foldl move (view state) := by
  induction items generalizing line state with
  | nil => rfl
  | cons item rest ih =>
    rw [List.zipIdx_cons, List.findSome?_cons] at clean
    rw [List.filterMap_cons]
    obtain ⟨error, ends, -⟩ | ⟨goes, ⟨holds, later⟩ | ⟨text, command, holds, later⟩⟩ :=
      walk_cons steady refuse line state item rest
    · simp [ends] at clean
    · simp only [goes] at clean
      rw [later, holds, ih _ clean]
    · simp only [goes] at clean
      rw [later, holds, ih _ clean, moves, List.foldl_cons]

end Walk

/-- The items of a source with their numbers. -/
def Source.numbered (source : Source) : List (Item × Nat) := source.items.zipIdx 1

/-- Numbers grow along a source. -/
theorem Source.numbered_increasing (source : Source) :
    source.numbered.Pairwise fun before after => before.2 < after.2 := by
  have numbers : source.numbered.map Prod.snd = List.range' 1 source.items.length := by
    rw [Source.numbered, List.zipIdx_map_snd]
  have increasing : (source.numbered.map Prod.snd).Pairwise (· < ·) := by
    rw [numbers]
    exact List.pairwise_lt_range'
  exact List.pairwise_map.mp increasing

/-- The error of a numbered item that cannot be read as a line or a command. -/
def Item.unread? (item : Item) (line : Nat) : Option SourceError :=
  match item.reading line with
  | .error error => some error
  | .ok _ => none

/-- The refusal of the command that an item holds, with the number of the item. -/
def Item.refused? (qualifier : String) (comments : Bool) (item : Item) (line : Nat) :
    Option (Nat × EmitError) :=
  match item.reading line with
  | .ok (some command) =>
    match (Emitter.new qualifier comments (#[] : Array String)).emit command with
    | (.error error, _) => some (line, error)
    | (.ok (), _) => none
  | _ => none

/-- What is wrong with a numbered item: it cannot be read, it is no command, or it is a command that
an emitter refuses. -/
def Item.failure? (qualifier : String) (comments : Bool) (item : Item) (line : Nat) :
    Option Failure :=
  match item.unread? line with
  | some error => some (.source error)
  | none => (item.refused? qualifier comments line).map fun refusal =>
      .emission refusal.1 refusal.2

/-- A refusal is that of the command, whatever the emitter. -/
theorem Item.refused?_eq (qualifier : String) (comments : Bool) (item : Item) (line : Nat) :
    item.refused? qualifier comments line =
      match item.reading line with
      | .ok (some command) => command.refusal?.map fun error => (line, error)
      | _ => none := by
  rw [Item.refused?]
  cases item.reading line with
  | error error => rfl
  | ok held? =>
    cases held? with
    | none => rfl
    | some command =>
      have told := Emitter.fst_emit (Emitter.new qualifier comments (#[] : Array String)) command
      dsimp only
      cases emitted : (Emitter.new qualifier comments (#[] : Array String)).emit command with
      | mk result after =>
        rw [emitted] at told
        cases refused : command.refusal? with
        | none =>
          rw [refused] at told
          obtain rfl : result = .ok () := told
          rfl
        | some error =>
          rw [refused] at told
          obtain rfl : result = .error error := told
          rfl

/-- How a pass answers to a command of a numbered line. -/
def Pass.answer (line : Nat) (command : Command) : Except Failure Unit :=
  match command.refusal? with
  | some error => .error (.emission line error)
  | none => .ok ()

variable {σ : Type} [Journal σ]

/-- A pass visits a command by the number and the text of its line. -/
def Pass.visitAt (pass : Pass σ) (line : Nat) (text : String) (command : Command) :
    Except Failure Unit × Pass σ :=
  pass.visit ⟨[], line, text, none⟩ command

/-- A pass answers without regard to what it has done. -/
theorem Pass.fst_visitAt (pass : Pass σ) (line : Nat) (text : String) (command : Command) :
    (pass.visitAt line text command).1 = Pass.answer line command := by
  have told := Emitter.fst_emit pass.emitter command
  rw [Pass.visitAt, Pass.visit, Pass.answer]
  cases emitted : pass.emitter.emit command with
  | mk result after =>
    rw [emitted] at told
    cases refused : command.refusal? with
    | none =>
      rw [refused] at told
      obtain rfl : result = .ok () := told
      rfl
    | some error =>
      rw [refused] at told
      obtain rfl : result = .error error := told
      rfl

/-- A pass emits the commands it visits. -/
theorem Pass.emitter_visitAt (pass : Pass σ) (line : Nat) (text : String) (command : Command) :
    (pass.visitAt line text command).2.emitter = (pass.emitter.emit command).2 := by
  rw [Pass.visitAt, Pass.visit]
  cases pass.emitter.emit command with
  | mk result after => cases result <;> rfl

/-- What ends a pass at an item is what is wrong with the item. -/
theorem Item.ending?_answer (qualifier : String) (comments : Bool) (item : Item) (line : Nat) :
    item.ending? Failure.source Pass.answer line = item.failure? qualifier comments line := by
  rw [Item.ending?, Item.failure?, Item.unread?, Item.refused?_eq]
  cases item.reading line with
  | error error => rfl
  | ok held? =>
    cases held? with
    | none => rfl
    | some command => cases refused : command.refusal? <;> simp [Pass.answer, refused]

/-- The visitor that collects commands. -/
def collect (found : Array Command) (_ : Nat) (_ : String) (command : Command) :
    Except SourceError Unit × Array Command :=
  (.ok (), found.push command)

/-- What ends the collecting of commands at an item is that it cannot be read. -/
theorem Item.ending?_ok (item : Item) (line : Nat) :
    item.ending? id (fun _ _ => .ok ()) line = item.unread? line := by
  rw [Item.ending?, Item.unread?]
  cases item.reading line with
  | error error => rfl
  | ok held? => cases held? <;> rfl

variable {source : Source} {qualifier : String} {comments : Bool}

/-- A pass walks over the items of its source. -/
theorem Pass.ofSource_eq_walk (source : Source) (qualifier : String) (comments : Bool)
    (journal : σ) :
    Pass.ofSource source qualifier comments journal =
      walk Pass.visitAt Failure.source 0 ⟨journal, Emitter.new qualifier comments #[]⟩
        source.items :=
  Reader.scan_eq_walk Pass.visitAt Failure.source (Reader.ofSource source) _

/-- A source with a failing item is compiled to the failure of the first, whatever the journal. -/
theorem compileInto_of_failure {failure : Failure}
    (first : source.numbered.findSome? (fun entry =>
      entry.1.failure? qualifier comments entry.2) = some failure) (journal : σ) :
    (source.compileInto qualifier comments journal).1 = .error failure := by
  simp only [← Item.ending?_answer] at first
  have told := fst_walk Pass.fst_visitAt Failure.source 0
    ⟨journal, Emitter.new qualifier comments #[]⟩ source.items
  rw [← Pass.ofSource_eq_walk, ← Source.numbered, first] at told
  rw [Source.compileInto]
  cases passed : Pass.ofSource source qualifier comments journal with
  | mk result pass =>
    rw [passed] at told
    obtain rfl : result = .error failure := told
    rfl

/-- A source with a failing item is compiled to the failure of the first. -/
theorem compile_of_failure {failure : Failure}
    (first : source.numbered.findSome? (fun entry =>
      entry.1.failure? qualifier comments entry.2) = some failure) :
    source.compile qualifier comments = .error failure :=
  compileInto_of_failure first _

/-- The items of a source are those that have a number. -/
theorem Source.mem_items_iff {item : Item} :
    item ∈ source.items ↔ ∃ line, (item, line) ∈ source.numbered := by
  have items : source.numbered.map Prod.fst = source.items := by
    rw [Source.numbered, List.zipIdx_map_fst]
  rw [← items, List.mem_map]
  constructor
  · rintro ⟨⟨_, line⟩, numbered, rfl⟩
    exact ⟨line, numbered⟩
  · rintro ⟨line, numbered⟩
    exact ⟨(item, line), numbered, rfl⟩

/-- The command of an item that does not fail is not refused. -/
theorem Item.refusal?_of_failure? {item : Item} {line : Nat} {command : Command}
    (fine : item.failure? qualifier comments line = none) (holds : item.command? = some command) :
    command.refusal? = none := by
  rw [Item.failure?, Item.unread?, Item.refused?_eq] at fine
  cases read : item.reading line with
  | error error => simp [read] at fine
  | ok held? =>
    obtain rfl : held? = some command := by rw [← Item.command?_of_reading read, holds]
    simpa [read] using fine

/-- No command is refused where no item fails. -/
theorem refusal?_of_clean
    (clean : source.numbered.findSome? (fun entry =>
      entry.1.failure? qualifier comments entry.2) = none) :
    ∀ command ∈ source.items.filterMap Item.command?, command.refusal? = none := by
  intro command listed
  obtain ⟨item, found, holds⟩ := List.mem_filterMap.mp listed
  obtain ⟨line, numbered⟩ := Source.mem_items_iff.mp found
  have fine := List.findSome?_eq_none_iff.mp clean (item, line) numbered
  exact Item.refusal?_of_failure? fine holds

/-- A source without a failing item is compiled to the lines of its commands, whatever the
journal. -/
theorem compileInto_of_clean
    (clean : source.numbered.findSome? (fun entry =>
      entry.1.failure? qualifier comments entry.2) = none) :
    ∃ emitter,
      (Emitter.new qualifier comments #[]).emitAll (source.items.filterMap Item.command?) =
          (.ok (), emitter) ∧
        ∀ journal : σ, (source.compileInto qualifier comments journal).1 = .ok emitter.sink := by
  refine ⟨_, Emitter.emitAll_eq_foldl (refusal?_of_clean clean) _, fun journal => ?_⟩
  simp only [← Item.ending?_answer] at clean
  have told := fst_walk Pass.fst_visitAt Failure.source 0
    ⟨journal, Emitter.new qualifier comments #[]⟩ source.items
  have emitted := snd_walk Pass.emitter (fun emitter command => (emitter.emit command).2)
    Pass.fst_visitAt Pass.emitter_visitAt ⟨journal, Emitter.new qualifier comments #[]⟩ clean
  rw [← Pass.ofSource_eq_walk, ← Source.numbered, clean] at told
  rw [← Pass.ofSource_eq_walk] at emitted
  rw [Source.compileInto, ← emitted]
  cases passed : Pass.ofSource source qualifier comments journal with
  | mk result pass =>
    rw [passed] at told
    obtain rfl : result = .ok () := told
    rfl

/-- A source without a failing item is compiled to the lines of its commands. -/
theorem compile_of_clean
    (clean : source.numbered.findSome? (fun entry =>
      entry.1.failure? qualifier comments entry.2) = none) :
    ∃ emitter,
      (Emitter.new qualifier comments #[]).emitAll (source.items.filterMap Item.command?) =
          (.ok (), emitter) ∧
        source.compile qualifier comments = .ok emitter.sink := by
  obtain ⟨emitter, accepted, compiled⟩ := compileInto_of_clean (σ := Array Record) clean
  exact ⟨emitter, accepted, compiled _⟩

/-- What a source is compiled to does not depend on the journal. -/
theorem fst_compileInto (source : Source) (qualifier : String) (comments : Bool) (journal : σ) :
    (source.compileInto qualifier comments journal).1 = source.compile qualifier comments := by
  cases first : source.numbered.findSome? (fun entry =>
      entry.1.failure? qualifier comments entry.2) with
  | some failure => rw [compileInto_of_failure first, compile_of_failure first]
  | none =>
    obtain ⟨emitter, accepted, compiled⟩ := compileInto_of_clean (σ := σ) first
    obtain ⟨other, also, same⟩ := compile_of_clean first
    rw [accepted] at also
    obtain rfl := (Prod.mk.inj also).2
    rw [compiled, same]

/-- A source that is compiled is compiled to the same with every journal. -/
theorem exists_compileInto {result : Except Failure (Array String)}
    (compiled : source.compile qualifier comments = result) (journal : σ) :
    ∃ later, source.compileInto qualifier comments journal = (result, later) :=
  ⟨_, Prod.ext ((fst_compileInto source qualifier comments journal).trans compiled) rfl⟩

/-- What a source is compiled to with a journal is what it is compiled to. -/
theorem compile_of_compileInto {result : Except Failure (Array String)} {journal later : σ}
    (passed : source.compileInto qualifier comments journal = (result, later)) :
    source.compile qualifier comments = result := by
  rw [← fst_compileInto source qualifier comments journal, passed]

/-- A source that is not compiled fails with the failure of one of its items. -/
theorem exists_item_of_compile {failure : Failure}
    (failed : source.compile qualifier comments = .error failure) :
    ∃ item line, (item, line) ∈ source.numbered ∧
      item.failure? qualifier comments line = some failure := by
  cases first : source.numbered.findSome? (fun entry =>
      entry.1.failure? qualifier comments entry.2) with
  | none =>
    obtain ⟨emitter, -, compiled⟩ := compile_of_clean first
    rw [compiled] at failed
    contradiction
  | some other =>
    rw [compile_of_failure first] at failed
    obtain rfl := Except.error.inj failed
    obtain ⟨⟨item, line⟩, listed, fails⟩ := List.exists_of_findSome?_eq_some first
    exact ⟨item, line, listed, fails⟩

/-- The commands of a source are those of its items, unless one cannot be read. -/
theorem commands_eq (source : Source) :
    source.commands =
      match source.numbered.findSome? (fun entry => entry.1.unread? entry.2) with
      | some error => .error error
      | none => .ok (source.items.filterMap Item.command?).toArray := by
  have answers : ∀ found line text command,
      (collect found line text command).1 = (fun _ _ => .ok ()) line command :=
    fun _ _ _ _ => rfl
  have told := fst_walk answers id 0 #[] source.items
  simp only [Item.ending?_ok] at told
  rw [← Source.numbered] at told
  have scanned : Reader.scan (fun found _ command => (.ok (), found.push command)) id
      (Reader.ofSource source) #[] = walk collect id 0 #[] source.items :=
    Reader.scan_eq_walk collect id (Reader.ofSource source) #[]
  rw [Source.commands, scanned]
  cases first : source.numbered.findSome? (fun entry => entry.1.unread? entry.2) with
  | some error =>
    rw [first] at told
    cases walked : walk collect id 0 #[] source.items with
    | mk result found =>
      rw [walked] at told
      obtain rfl : result = .error error := told
      rfl
  | none =>
    rw [first] at told
    simp only [← Item.ending?_ok] at first
    have collected := snd_walk id Array.push answers (fun _ _ _ _ => rfl) #[] first
    cases walked : walk collect id 0 #[] source.items with
    | mk result found =>
      rw [walked] at told collected
      obtain rfl : result = .ok () := told
      have pushed : (source.items.filterMap Item.command?).foldl Array.push #[] =
          (source.items.filterMap Item.command?).toArray := by simp
      rw [← pushed]
      exact congrArg Except.ok collected

/-- Where every item can be read, a failing item is one whose command is refused. -/
theorem Item.failure?_of_unread? {item : Item} {line : Nat} (read : item.unread? line = none) :
    item.failure? qualifier comments line =
      (item.refused? qualifier comments line).map fun refusal =>
        .emission refusal.1 refusal.2 := by
  rw [Item.failure?, read]

/-- An item that cannot be read fails. -/
theorem unread?_of_clean
    (clean : source.numbered.findSome? (fun entry =>
      entry.1.failure? qualifier comments entry.2) = none) :
    source.numbered.findSome? (fun entry => entry.1.unread? entry.2) = none := by
  rw [List.findSome?_eq_none_iff] at clean ⊢
  intro entry listed
  have fine := clean entry listed
  rw [Item.failure?] at fine
  cases read : entry.1.unread? entry.2 with
  | none => rfl
  | some error => simp [read] at fine

/-- A source whose items can be read and whose commands are accepted has no failing item. -/
theorem clean_of_accepted {emitter : Emitter (Array String)}
    (read : source.numbered.findSome? (fun entry => entry.1.unread? entry.2) = none)
    (accepted : (Emitter.new qualifier comments #[]).emitAll
      (source.items.filterMap Item.command?) = (.ok (), emitter)) :
    source.numbered.findSome? (fun entry => entry.1.failure? qualifier comments entry.2) =
      none := by
  rw [List.findSome?_eq_none_iff] at read ⊢
  rintro ⟨item, line⟩ listed
  rw [Item.failure?_of_unread? (read _ listed), Item.refused?_eq]
  cases told : item.reading line with
  | error error => rfl
  | ok held? =>
    cases held? with
    | none => rfl
    | some command =>
      have inside : command ∈ source.items.filterMap Item.command? :=
        List.mem_filterMap.mpr
          ⟨item, Source.mem_items_iff.mpr ⟨line, listed⟩, Item.command?_of_reading told⟩
      simp [Emitter.refusal?_of_emitAll accepted command inside]

/-- A source is compiled exactly when its commands can be read and are accepted. -/
theorem compile_eq_ok_iff {lines : Array String} :
    source.compile qualifier comments = .ok lines ↔
      ∃ commands emitter, source.commands = .ok commands ∧
        (Emitter.new qualifier comments #[]).emitAll commands.toList = (.ok (), emitter) ∧
        emitter.sink = lines := by
  cases first : source.numbered.findSome? (fun entry =>
      entry.1.failure? qualifier comments entry.2) with
  | none =>
    obtain ⟨emitter, accepted, compiled⟩ := compile_of_clean first
    have read := commands_eq source
    rw [unread?_of_clean first] at read
    constructor
    · intro result
      rw [compiled] at result
      exact ⟨_, emitter, read, accepted, Except.ok.inj result⟩
    · rintro ⟨commands, other, found, also, rfl⟩
      rw [read] at found
      obtain rfl := Except.ok.inj found
      rw [accepted] at also
      rw [compiled, (Prod.mk.inj also).2]
  | some failure =>
    have compiled := compile_of_failure first
    constructor
    · intro result
      rw [compiled] at result
      contradiction
    · rintro ⟨commands, other, found, also, rfl⟩
      have read := commands_eq source
      cases unread : source.numbered.findSome? (fun entry => entry.1.unread? entry.2) with
      | some error =>
        rw [unread, found] at read
        contradiction
      | none =>
        rw [unread, found] at read
        obtain rfl := Except.ok.inj read
        rw [clean_of_accepted unread also] at first
        contradiction

/-- A refusal carries the number of its item. -/
theorem Item.line_of_refused? {item : Item} {line : Nat} {refusal : Nat × EmitError}
    (refused : item.refused? qualifier comments line = some refusal) : refusal.1 = line := by
  rw [Item.refused?_eq] at refused
  split at refused
  · obtain ⟨error, -, rfl⟩ := Option.map_eq_some_iff.mp refused
    rfl
  · contradiction

/-- The first item that cannot be read gives the error, with its number. -/
theorem unread?_of_commands {error : SourceError} (unread : source.commands = .error error) :
    ∃ early bad late, source.numbered = early ++ (bad, error.line) :: late ∧
      bad.reading error.line = .error error ∧
      ∀ entry ∈ early, entry.1.unread? entry.2 = none := by
  have read := commands_eq source
  cases stop : source.numbered.findSome? (fun entry => entry.1.unread? entry.2) with
  | none =>
    rw [stop, unread] at read
    contradiction
  | some stopped =>
    rw [stop, unread] at read
    obtain rfl := Except.error.inj read
    obtain ⟨early, ⟨bad, number⟩, late, parts, told, fine⟩ := List.findSome?_eq_some_iff.mp stop
    have reading : bad.reading number = .error error := by
      dsimp only [Item.unread?] at told
      cases reading : bad.reading number with
      | ok held? => simp [reading] at told
      | error other =>
        rw [reading] at told
        rw [Option.some.inj told]
    have numbered : error.line = number := (Item.reading_eq_error reading).1
    rw [numbered]
    exact ⟨early, bad, late, parts, reading, fine⟩

/-- A refused command before the first item that cannot be read is what compiling reports, by the
first line with a refused command. -/
theorem compile_of_refused {error : SourceError} (unread : source.commands = .error error)
    {item : Item} {line : Nat} (listed : (item, line) ∈ source.numbered)
    (before : line < error.line) {refusal : Nat × EmitError}
    (refused : item.refused? qualifier comments line = some refusal) :
    ∃ first, source.numbered.findSome? (fun entry =>
        entry.1.refused? qualifier comments entry.2) = some first ∧
      first.1 ≤ line ∧ source.compile qualifier comments = .error (.emission first.1 first.2) := by
  obtain ⟨early, bad, late, parts, -, fine⟩ := unread?_of_commands unread
  have increasing := source.numbered_increasing
  rw [parts, List.pairwise_append, List.pairwise_cons] at increasing
  -- Numbers grow, so the refused command stands before the item that cannot be read.
  have inside : (item, line) ∈ early := by
    rw [parts, List.mem_append, List.mem_cons] at listed
    rcases listed with here | same | behind
    · exact here
    · have equal : line = error.line := congrArg Prod.snd same
      omega
    · have greater : error.line < line := increasing.2.1.1 (item, line) behind
      omega
  have found : ∃ first, early.findSome? (fun entry =>
      entry.1.refused? qualifier comments entry.2) = some first := by
    rw [← Option.isSome_iff_exists, List.findSome?_isSome_iff]
    exact ⟨(item, line), inside, by simp [refused]⟩
  obtain ⟨first, found⟩ := found
  obtain ⟨front, ⟨holder, number⟩, back, divided, told, earlier⟩ :=
    List.findSome?_eq_some_iff.mp found
  have numbered : first.1 = number := Item.line_of_refused? told
  have whole : source.numbered =
      front ++ (holder, number) :: (back ++ (bad, error.line) :: late) := by
    rw [parts, divided]
    simp
  refine ⟨first, List.findSome?_eq_some_iff.mpr ⟨front, _, _, whole, told, earlier⟩, ?_, ?_⟩
  · rw [numbered]
    have order := increasing.1
    rw [divided, List.pairwise_append, List.pairwise_cons] at order
    rw [divided, List.mem_append, List.mem_cons] at inside
    rcases inside with passed | same | behind
    · have accepted := earlier (item, line) passed
      simp [refused] at accepted
    · have equal : line = number := congrArg Prod.snd same
      omega
    · have greater : number < line := order.2.1.1 (item, line) behind
      omega
  · apply compile_of_failure
    have readable : ∀ entry ∈ front ++ [(holder, number)], entry.1.unread? entry.2 = none := by
      intro entry member
      refine fine entry ?_
      rw [divided]
      rcases List.mem_append.mp member with passed | same
      · exact List.mem_append_left _ passed
      · rw [List.mem_singleton.mp same]
        exact List.mem_append_right _ List.mem_cons_self
    refine List.findSome?_eq_some_iff.mpr ⟨front, _, _, whole, ?_, ?_⟩
    · have last : (holder, number) ∈ front ++ [(holder, number)] := by simp
      rw [Item.failure?_of_unread? (readable _ last), told]
      rfl
    · intro entry passed
      have member : entry ∈ front ++ [(holder, number)] := List.mem_append_left _ passed
      rw [Item.failure?_of_unread? (readable _ member), earlier entry passed]
      rfl

/-- Compiling a source in one pass reports the failure of the first item that has one, with its
number, and otherwise gives the lines of all commands in order. So a text is compiled exactly when
it can be parsed and its commands are accepted, to the same lines; and a refused command before the
first line that cannot be parsed is reported instead of that line. -/
theorem one_pass_agrees (qualifier : String) (comments : Bool) :
    (∀ (source : Source) (failure : Failure),
      source.numbered.findSome? (fun entry => entry.1.failure? qualifier comments entry.2) =
          some failure →
        source.compile qualifier comments = .error failure) ∧
    (∀ source : Source,
      source.numbered.findSome? (fun entry => entry.1.failure? qualifier comments entry.2) =
          none →
        ∃ emitter,
          (Emitter.new qualifier comments #[]).emitAll (source.items.filterMap Item.command?) =
              (.ok (), emitter) ∧
            source.compile qualifier comments = .ok emitter.sink) ∧
    (∀ (text : String) (lines : Array String),
      Source.compile [.bytes (Text.encode text)] qualifier comments = .ok lines ↔
        ∃ commands emitter, parseText text = .ok commands ∧
          (Emitter.new qualifier comments #[]).emitAll commands.toList = (.ok (), emitter) ∧
          emitter.sink = lines) ∧
    ∀ (text : String) (error : SourceError), parseText text = .error error →
      ∀ (item : Item) (line : Nat),
        (item, line) ∈ Source.numbered [.bytes (Text.encode text)] → line < error.line →
          (item.refused? qualifier comments line).isSome →
            ∃ first,
              (Source.numbered [.bytes (Text.encode text)]).findSome? (fun entry =>
                  entry.1.refused? qualifier comments entry.2) = some first ∧
                first.1 ≤ line ∧
                Source.compile [.bytes (Text.encode text)] qualifier comments =
                  .error (.emission first.1 first.2) := by
  refine ⟨fun _ _ => compile_of_failure, fun _ => compile_of_clean,
    fun _ _ => compile_eq_ok_iff, ?_⟩
  intro text error unread item line listed before refused
  obtain ⟨refusal, refused⟩ := Option.isSome_iff_exists.mp refused
  exact compile_of_refused unread listed before refused

/-- A pop into a constant is reported by its line though a later line is no command. -/
theorem pop_constant_before_unknown :
    parseText "add\npop constant 1\nx\n" = .error ⟨3, .malformed (.unknownCommand "x")⟩ ∧
      Source.compile [.bytes (Text.encode "add\npop constant 1\nx\n")] "T" true =
        .error (.emission 2 .popConstant) := by
  have unread : parseText "add\npop constant 1\nx\n" =
      .error ⟨3, .malformed (.unknownCommand "x")⟩ :=
    (commands_eq _).trans (by decide +kernel)
  have listed : (.line (Text.encode "pop constant 1"), 2) ∈
      Source.numbered [.bytes (Text.encode "add\npop constant 1\nx\n")] := by decide +kernel
  obtain ⟨first, found, -, compiled⟩ :=
    (one_pass_agrees "T" true).2.2.2 _ _ unread _ 2 listed (by decide +kernel) (by decide +kernel)
  have here : (Source.numbered [.bytes (Text.encode "add\npop constant 1\nx\n")]).findSome?
      (fun entry => entry.1.refused? "T" true entry.2) = some (2, .popConstant) := by decide +kernel
  rw [here] at found
  obtain rfl := Option.some.inj found
  exact ⟨unread, compiled⟩

end HackVm
