import HackVm.Proofs.Source.Advance

/-!
# Calls to a reader

A reader is asked whether there are more lines and told to move on, in any order. `after` is the
reader after some calls and `moves` what the moves among them found. Asking may read an item and
keep it, and yet it cannot be noticed: a peeking reader agrees with a reader that reads nothing
ahead, and `Agrees.calls` says that it does so after any calls. `Coherent` relates a reader to the
items of its source by the moves that met one; a call keeps it, so it holds after any calls.
-/
namespace HackVm

/-- What a reader shows: the number, the text and the command of its line, and what is read off the
command. -/
structure Display where
  /-- How many lines and failed reads lie behind. -/
  lineNumber : Nat
  /-- Text of the last line that could be read. -/
  rawLine : String
  /-- The command of the current line. -/
  command? : Option Command
  /-- The kind of the current line. -/
  kind : Kind
  /-- The operator or segment of the current command. -/
  subject? : Option String
  /-- The index of the current command. -/
  index? : Option Nat
deriving DecidableEq, Repr

/-- What a reader shows. -/
def Reader.display (reader : Reader) : Display :=
  ⟨reader.lineNumber, reader.rawLine, reader.command?, reader.kind, reader.subject?, reader.index?⟩

/-- What a reader may be called for. -/
inductive Call where
  /-- To say whether there is a further line. -/
  | hasMore
  /-- To move to the next line. -/
  | advance
deriving DecidableEq, Repr

/-- What a move onto an item finds and shows: the item alone says it, but for the number, and for
the text where the item has none. -/
theorem Reader.meet_eq (reader : Reader) (item : Item) :
    reader.meet item =
      ((item.reading (reader.lineNumber + 1)).map fun _ => (),
        ⟨reader.unread, reader.lineNumber + 1, item.text.toOption.getD reader.rawLine,
          (item.reading (reader.lineNumber + 1)).toOption.join⟩) := by
  cases shown : item.text with
  | error fault =>
    simp only [Reader.meet, Item.reading, shown]
    rfl
  | ok text =>
    simp only [Reader.meet, Item.reading, shown]
    cases parseLine text (reader.lineNumber + 1) <;> rfl

/-- The text of the last of some items that has one, and no text if none has. -/
def lastText (items : List Item) : String :=
  (items.filterMap fun item => item.text.toOption).getLast?.getD ""

/-- The last text is that of the last item, or else of the items before it. -/
theorem lastText_concat (items : List Item) (item : Item) :
    lastText (items ++ [item]) = item.text.toOption.getD (lastText items) := by
  rw [lastText, lastText, List.filterMap_append]
  cases shown : item.text.toOption with
  | none => simp [shown]
  | some text => simp [shown]

/-- What a number of moves find, each with what the reader shows after it. -/
def Reader.moves : Nat → Reader → List (Except SourceError Unit × Display)
  | 0, _ => []
  | count + 1, reader =>
    (reader.advance.1, reader.advance.2.display) :: Reader.moves count reader.advance.2

/-- Moves are one move and then the others. -/
theorem Reader.moved_succ (count : Nat) (reader : Reader) :
    Reader.moved (count + 1) reader = Reader.moved count reader.advance.2 := by
  induction count with
  | zero => rfl
  | succ count ih => exact congrArg (fun later => later.advance.2) ih

namespace PeekingReader

/-- The reader after some calls. -/
def after (reader : PeekingReader) : List Call → PeekingReader
  | [] => reader
  | .hasMore :: rest => reader.hasMore.2.after rest
  | .advance :: rest => reader.advance.2.after rest

/-- What the moves among some calls found, each with what the reader showed after it. -/
def moves (reader : PeekingReader) : List Call → List (Except SourceError Unit × Display)
  | [] => []
  | .hasMore :: rest => reader.hasMore.2.moves rest
  | .advance :: rest =>
    (reader.advance.1, reader.advance.2.display) :: reader.advance.2.moves rest

/-- Whether a move found that there was no item left. -/
def isExhausted : Except SourceError Unit → Bool
  | .error ⟨_, .exhausted⟩ => true
  | _ => false

/-- What the moves among some calls found that met an item. -/
def met (reader : PeekingReader) (calls : List Call) : List (Except SourceError Unit) :=
  ((reader.moves calls).map Prod.fst).filter fun found => !isExhausted found

/-- A move onto an item finds what the item says and shows its text and its command; the items
behind it are left. -/
theorem advance_of_reading {reader : PeekingReader} {item : Item} {rest : List Item}
    (ahead : reader.items = item :: rest) :
    ∃ unread : Source, unread.items = rest ∧
      reader.advance =
        ((item.reading (reader.lineNumber + 1)).map fun _ => (),
          ofReader ⟨unread, reader.lineNumber + 1, item.text.toOption.getD reader.rawLine,
            (item.reading (reader.lineNumber + 1)).toOption.join⟩) := by
  obtain ⟨unread, later, moves⟩ := advance_of_item ahead
  refine ⟨unread, later, ?_⟩
  rw [moves, Reader.meet_eq]
  rfl

/-- A move onto an item does not find that there is none. -/
theorem isExhausted_of_item {reader : PeekingReader} {item : Item} {rest : List Item}
    (ahead : reader.items = item :: rest) : isExhausted reader.advance.1 = false := by
  obtain ⟨unread, -, moves⟩ := advance_of_reading ahead
  rw [moves]
  cases read : item.reading (reader.lineNumber + 1) with
  | ok held? => rfl
  | error error =>
    have other := (Item.reading_eq_error read).2
    obtain ⟨line, fault⟩ := error
    cases fault with
    | exhausted => contradiction
    | malformed | unreadable => rfl

/-- Looking ahead changes nothing of what a reader shows. -/
theorem display_hasMore (reader : PeekingReader) :
    reader.hasMore.2.display = reader.display := by
  obtain ⟨-, -, unread, same⟩ := reader.hasMore_eq
  rw [same]
  rfl

/-- A reader that may have looked ahead shows the same as one that has not, and has the same items
before it. -/
structure Agrees (peeking : PeekingReader) (reader : Reader) : Prop where
  /-- The same items are before both. -/
  items : peeking.items = reader.unread.items
  /-- Both show the same. -/
  display : peeking.display = reader.display

namespace Agrees

variable {peeking : PeekingReader} {reader : Reader}

/-- Looking ahead tells what the other reader would tell, and is not noticed. -/
theorem hasMore (agrees : Agrees peeking reader) :
    peeking.hasMore.1 = reader.hasMore ∧ Agrees peeking.hasMore.2 reader := by
  obtain ⟨told, items, -⟩ := peeking.hasMore_eq
  refine ⟨?_, items.trans agrees.items, peeking.display_hasMore.trans agrees.display⟩
  rw [told, agrees.items, Reader.hasMore_eq]

/-- A move finds the same for both readers and leaves them in agreement. -/
theorem advance (agrees : Agrees peeking reader) :
    peeking.advance.1 = reader.advance.1 ∧ Agrees peeking.advance.2 reader.advance.2 := by
  have number : peeking.lineNumber = reader.lineNumber := congrArg Display.lineNumber agrees.display
  have text : peeking.rawLine = reader.rawLine := congrArg Display.rawLine agrees.display
  cases ahead : peeking.items with
  | nil =>
    have other : reader.unread.items = [] := by rw [← agrees.items, ahead]
    have unread : peeking.unread.items = [] := unread_of_end ahead
    rw [advance_of_end ahead, Reader.advance_of_end other, number]
    exact ⟨rfl, unread.trans other.symm, agrees.display⟩
  | cons item rest =>
    have other : reader.unread.items = item :: rest := by rw [← agrees.items, ahead]
    obtain ⟨unread, later, moves⟩ := advance_of_reading ahead
    obtain ⟨unread', later', moves'⟩ := Reader.advance_of_item other
    change reader.advance = { reader with unread := unread' }.meet item at moves'
    rw [moves, moves', Reader.meet_eq, number, text]
    exact ⟨rfl, later.trans later'.symm, rfl⟩

/-- Over any calls the moves find and show the same as they do for a reader that is only moved. -/
theorem calls (agrees : Agrees peeking reader) (calls : List Call) :
    peeking.moves calls = Reader.moves (calls.count .advance) reader ∧
      Agrees (peeking.after calls) (Reader.moved (calls.count .advance) reader) := by
  induction calls generalizing peeking reader with
  | nil => exact ⟨rfl, agrees⟩
  | cons call rest ih =>
    cases call with
    | hasMore =>
      rw [List.count_cons_of_ne (by decide)]
      exact ih agrees.hasMore.2
    | advance =>
      obtain ⟨found, next⟩ := agrees.advance
      obtain ⟨moves, later⟩ := ih next
      rw [List.count_cons_self, Reader.moved_succ, PeekingReader.moves, Reader.moves, found,
        next.display, moves]
      exact ⟨rfl, later⟩

end Agrees

/-- The error of a move has the number that the reader shows after it. -/
theorem line_of_advance {reader : PeekingReader} {error : SourceError}
    (failed : reader.advance.1 = .error error) : error.line = reader.advance.2.lineNumber := by
  cases ahead : reader.items with
  | nil =>
    rw [advance_of_end ahead] at failed ⊢
    exact (congrArg SourceError.line (Except.error.inj failed)).symm
  | cons item rest =>
    obtain ⟨unread, -, moves⟩ := advance_of_reading ahead
    rw [moves] at failed ⊢
    cases read : item.reading (reader.lineNumber + 1) with
    | ok held? => simp [read, Except.map] at failed
    | error other =>
      have same : other = error := by simpa [read, Except.map] using failed
      rw [← same]
      exact (Item.reading_eq_error read).1

/-- How a reader stands to its source when `past` is what the moves found that met an item. -/
structure Coherent (source : Source) (past : List (Except SourceError Unit))
    (reader : PeekingReader) : Prop where
  /-- The moves found what the items met say by their numbers. -/
  found : past = ((source.items.take past.length).zipIdx 1).map fun entry =>
    (entry.1.reading entry.2).map fun _ => ()
  /-- The items met are counted. -/
  lineNumber : reader.lineNumber = past.length
  /-- The items behind them are before the reader. -/
  items : reader.items = source.items.drop past.length
  /-- The text is that of the last item met that has one. -/
  rawLine : reader.rawLine = lastText (source.items.take past.length)
  /-- The command is the one in the text, if the last item met was read without an error. -/
  command : match past.getLast? with
    | some (.ok ()) => parseLine reader.rawLine reader.lineNumber = .ok reader.command?
    | _ => reader.command? = none

namespace Coherent

variable {source : Source} {past : List (Except SourceError Unit)} {reader : PeekingReader}

/-- A reader before the first line has met no item. -/
theorem ofSource (source : Source) : Coherent source [] (PeekingReader.ofSource source) :=
  ⟨rfl, rfl, rfl, rfl, rfl⟩

/-- Looking ahead meets no item. -/
theorem hasMore (coherent : Coherent source past reader) :
    Coherent source past reader.hasMore.2 := by
  obtain ⟨-, items, unread, same⟩ := reader.hasMore_eq
  constructor
  · exact coherent.found
  · rw [same]
    exact coherent.lineNumber
  · rw [items]
    exact coherent.items
  · rw [same]
    exact coherent.rawLine
  · rw [same]
    exact coherent.command

/-- A move behind the last item meets none. -/
theorem advance_of_end (coherent : Coherent source past reader) (ended : reader.items = []) :
    Coherent source past reader.advance.2 := by
  have place : reader.advance.2 = ofReader reader.toReader := by
    rw [PeekingReader.advance_of_end ended]
  have unread : reader.unread.items = [] := unread_of_end ended
  have items : (ofReader reader.toReader).items = source.items.drop past.length := by
    rw [← coherent.items, ended]
    exact unread
  rw [place]
  exact ⟨coherent.found, coherent.lineNumber, items, coherent.rawLine, coherent.command⟩

/-- A move onto an item meets it: the item is counted, its text is shown if it has one, and its
command if it was read without an error. -/
theorem advance_of_item (coherent : Coherent source past reader) {item : Item} {rest : List Item}
    (ahead : reader.items = item :: rest) :
    Coherent source (past ++ [reader.advance.1]) reader.advance.2 := by
  obtain ⟨unread, later, moves⟩ := advance_of_reading ahead
  have drop : source.items.drop past.length = item :: rest := by rw [← coherent.items, ahead]
  have behind : source.items.drop (past.length + 1) = rest := by
    rw [← List.drop_drop, drop]
    rfl
  have taken : source.items.take (past.length + 1) = source.items.take past.length ++ [item] := by
    rw [List.take_add, drop]
    rfl
  have text : item.text.toOption.getD reader.rawLine =
      lastText (source.items.take past.length ++ [item]) := by
    rw [lastText_concat, coherent.rawLine]
  have length : (past ++ [reader.advance.1]).length = past.length + 1 := List.length_append
  constructor
  · have counted : (source.items.take past.length).length = past.length := by
      simpa using (congrArg List.length coherent.found).symm
    rw [length, taken, List.zipIdx_append, List.map_append, ← coherent.found, counted, moves,
      coherent.lineNumber, Nat.add_comm]
    rfl
  · rw [length, moves, ← coherent.lineNumber]
    rfl
  · rw [length, moves, behind, ← later]
    rfl
  · rw [length, moves, taken, ← text]
    rfl
  · rw [List.getLast?_concat, moves]
    cases shown : item.text with
    | error fault =>
      simp only [Item.reading, shown]
      rfl
    | ok text =>
      simp only [Item.reading, shown]
      cases parsed : parseLine text (reader.lineNumber + 1) with
      | error error => rfl
      | ok held? => exact parsed

/-- A reader stays coherent with its source over any calls. -/
theorem after (coherent : Coherent source past reader) (calls : List Call) :
    Coherent source (past ++ reader.met calls) (reader.after calls) := by
  induction calls generalizing past reader with
  | nil => simpa [met, moves, PeekingReader.after] using coherent
  | cons call rest ih =>
    cases call with
    | hasMore => exact ih coherent.hasMore
    | advance =>
      cases ahead : reader.items with
      | nil =>
        have ended : reader.met (.advance :: rest) = reader.advance.2.met rest := by
          have none : isExhausted reader.advance.1 = true := by
            rw [PeekingReader.advance_of_end ahead]
            rfl
          simp [met, moves, none]
        rw [ended]
        exact ih (coherent.advance_of_end ahead)
      | cons item others =>
        have meets : reader.met (.advance :: rest) =
            reader.advance.1 :: reader.advance.2.met rest := by
          simp [met, moves, isExhausted_of_item ahead]
        have later := ih (coherent.advance_of_item ahead)
        rw [List.append_assoc] at later
        rw [meets]
        exact later

end Coherent

end PeekingReader

/-- After any calls a reader says that there are more lines exactly when fewer moves have met an
item than its source has items. Asking changes nothing that the reader shows. Moves find and show
the same without the questions between them, and the same as those of a reader that reads nothing
ahead. A move that finds no item left, as it does exactly when there are no more lines, reports
the number that is shown and changes nothing that is shown. -/
theorem asking_is_invisible (source : Source) (calls : List Call) :
    let fresh := PeekingReader.ofSource source
    let reader := fresh.after calls
    let plain := Reader.moved (calls.count .advance) (Reader.ofSource source)
    (reader.hasMore.1 = true ↔ (fresh.met calls).length < source.items.length) ∧
    reader.hasMore.2.display = reader.display ∧
    fresh.moves (calls.filter (· = .advance)) = fresh.moves calls ∧
    (fresh.after (calls.filter (· = .advance))).display = reader.display ∧
    (reader.hasMore.1 = plain.hasMore ∧ reader.display = plain.display) ∧
    (PeekingReader.isExhausted reader.advance.1 = true ↔ reader.hasMore.1 = false) ∧
    ∀ line, reader.advance.1 = .error ⟨line, .exhausted⟩ →
      line = reader.lineNumber ∧ reader.advance.2.display = reader.display := by
  intro fresh reader plain
  have coherent : PeekingReader.Coherent source (fresh.met calls) reader :=
    (PeekingReader.Coherent.ofSource source).after calls
  have agrees : PeekingReader.Agrees fresh (Reader.ofSource source) := ⟨rfl, rfl⟩
  obtain ⟨moves, shown⟩ := agrees.calls calls
  -- The questions do not count, so both sequences have the same number of moves.
  obtain ⟨others, unasked⟩ := agrees.calls (calls.filter (· = .advance))
  rw [List.count_filter (by decide)] at others unasked
  have told := reader.hasMore_eq.1
  refine ⟨?_, reader.display_hasMore, others.trans moves.symm,
    unasked.display.trans shown.display.symm, ⟨shown.hasMore.1, shown.display⟩, ?_, ?_⟩
  · rw [told, coherent.items]
    simp
  · cases ahead : reader.items with
    | nil =>
      rw [told, ahead, PeekingReader.advance_of_end ahead]
      exact ⟨fun _ => rfl, fun _ => rfl⟩
    | cons item rest =>
      rw [told, ahead, PeekingReader.isExhausted_of_item ahead]
      exact ⟨fun wrong => absurd wrong Bool.false_ne_true, fun wrong => absurd wrong (by simp)⟩
  · intro line exhausted
    cases ahead : reader.items with
    | nil =>
      rw [PeekingReader.advance_of_end ahead] at exhausted ⊢
      exact ⟨(congrArg SourceError.line (Except.error.inj exhausted)).symm, rfl⟩
    | cons item rest =>
      have other := PeekingReader.isExhausted_of_item ahead
      rw [exhausted] at other
      contradiction

/-- A reader that looks ahead twice and then finds its source exhausted keeps its command. -/
theorem exhausted_reader_keeps_command :
    let source : Source :=
      [.bytes (Text.encode "add\npu"), .failure (.other "gone"), .bytes (Text.encode "neg")]
    let reader := (PeekingReader.ofSource source).after
      [.hasMore, .hasMore, .advance, .hasMore, .advance, .advance, .hasMore, .hasMore, .advance]
    reader.hasMore.1 = false ∧ reader.advance.1 = .error ⟨3, .exhausted⟩ ∧
      reader.command? = some (.arithmetic .neg) ∧
      reader.advance.2.display = reader.display := by
  intro source reader
  obtain ⟨-, -, -, -, -, -, unchanged⟩ := asking_is_invisible source
    [.hasMore, .hasMore, .advance, .hasMore, .advance, .advance, .hasMore, .hasMore, .advance]
  have exhausted : reader.advance.1 = .error ⟨3, .exhausted⟩ := by decide +kernel
  exact ⟨by decide +kernel, exhausted, by decide +kernel, (unchanged 3 exhausted).2⟩

/-- After any calls a reader has counted the moves that met an item, and shows the text of the
last item met that has one. A command that is shown is the one in the text that is shown, and the
last move that met an item found no error; after an error no command is shown, though the text may
be older. The error of a move has the number that is shown after it. -/
theorem reader_stays_coherent (source : Source) (calls : List Call) :
    let fresh := PeekingReader.ofSource source
    let reader := fresh.after calls
    let met := fresh.met calls
    let behind := source.items.take met.length
    met = (behind.zipIdx 1).map (fun entry => (entry.1.reading entry.2).map fun _ => ()) ∧
    reader.lineNumber = met.length ∧
    reader.rawLine = lastText behind ∧
    (∀ command, reader.command? = some command →
      met.getLast? = some (.ok ()) ∧
        parseLine reader.rawLine reader.lineNumber = .ok (some command)) ∧
    (met.getLast? = some (.ok ()) →
      parseLine reader.rawLine reader.lineNumber = .ok reader.command?) ∧
    (∀ error, met.getLast? = some (.error error) →
      reader.command? = none ∧ reader.kind = .blank ∧ reader.subject? = none ∧
        reader.index? = none) ∧
    ∀ error, reader.advance.1 = .error error → error.line = reader.advance.2.lineNumber := by
  intro fresh reader met behind
  have coherent : PeekingReader.Coherent source met reader :=
    (PeekingReader.Coherent.ofSource source).after calls
  have held := coherent.command
  refine ⟨coherent.found, coherent.lineNumber, coherent.rawLine, ?_, ?_, ?_, ?_⟩
  · intro command shown
    rw [shown] at held
    cases last : met.getLast? with
    | none => simp [last] at held
    | some result =>
      cases result with
      | error error => simp [last] at held
      | ok => exact ⟨rfl, by simpa [last] using held⟩
  · intro last
    simpa [last] using held
  · intro error last
    have cleared : reader.command? = none := by simpa [last] using held
    refine ⟨cleared, ?_, ?_, ?_⟩
    · rw [Reader.kind, cleared]
      rfl
    · rw [Reader.subject?, cleared]
      rfl
    · rw [Reader.index?, cleared]
      rfl
  · intro error failed
    exact PeekingReader.line_of_advance failed

/-- Behind a failed read a reader has the number of the failure and the text of the line before it,
and no longer shows the command of that line; the next move finds bytes that are no text. -/
theorem failed_read_leaves_text :
    let source : Source :=
      [.bytes (Text.encode "push local 2\npu"), .failure (.other "gone"), .bytes [255, lineFeed]]
    let before := (PeekingReader.ofSource source).after [.hasMore, .advance]
    let behind := (PeekingReader.ofSource source).after [.hasMore, .advance, .advance, .hasMore]
    before.command? = some (.push .locals 2) ∧
      parseLine before.rawLine before.lineNumber = .ok (some (.push .locals 2)) ∧
      behind.lineNumber = 2 ∧ behind.rawLine = "push local 2" ∧ behind.command? = none ∧
      behind.index? = none ∧ behind.advance.1 = .error ⟨3, .unreadable .notText⟩ ∧
      behind.advance.2.lineNumber = 3 := by
  intro source
  dsimp only
  have holds : ((PeekingReader.ofSource source).after [.hasMore, .advance]).command? =
      some (.push .locals 2) := by decide +kernel
  have failed : ((PeekingReader.ofSource source).after
      [.hasMore, .advance, .advance, .hasMore]).advance.1 = .error ⟨3, .unreadable .notText⟩ := by
    decide +kernel
  have met : (PeekingReader.ofSource source).met [.hasMore, .advance, .advance, .hasMore] =
      [.ok (), .error ⟨2, .unreadable (.other "gone")⟩] := by decide +kernel
  have text : lastText (source.items.take 2) = "push local 2" := by decide +kernel
  obtain ⟨-, -, -, reads, -⟩ := reader_stays_coherent source [.hasMore, .advance]
  obtain ⟨-, counted, shown, -, -, cleared, lines⟩ :=
    reader_stays_coherent source [.hasMore, .advance, .advance, .hasMore]
  rw [met] at counted shown cleared
  generalize (PeekingReader.ofSource source).after [.hasMore, .advance] = before at holds reads ⊢
  generalize (PeekingReader.ofSource source).after [.hasMore, .advance, .advance, .hasMore] =
    behind at failed counted shown cleared lines ⊢
  have last := cleared ⟨2, .unreadable (.other "gone")⟩ rfl
  exact ⟨holds, (reads _ holds).2, counted, shown.trans text, last.1, last.2.2.2, failed,
    (lines _ failed).symm⟩

end HackVm
