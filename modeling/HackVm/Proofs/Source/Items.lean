import HackVm.Source.Reader
import Mathlib.Data.List.TakeWhile

/-!
# The items of a source

What a source holds, said at once for the whole source: the bytes between two failed reads are
joined, whatever chunks they came in, and cut at line feeds. The pieces before a line feed are
lines, without one carriage return at their end. The piece behind the last line feed is a line
only at the end of the source, and only if it is not empty; before a failure it is lost.
`items_eq_next?` says that a source hands out these items one by one. A reader that has looked
ahead still has the item it kept before it: `PeekingReader.items` counts it, and `advance_hasMore`
says that a move does not tell a kept item from an unread one. `scan_eq_walk` says that a reader
that scans a source walks over its items, counting from one.
-/
namespace HackVm

namespace Source

/-- The lines of bytes that end at a line feed. -/
def terminated (bytes : List UInt8) : List Item :=
  (bytes.splitOn lineFeed).dropLast.map fun piece => .line (dropReturn piece)

/-- The line of bytes that ends at no line feed, if it is not empty. -/
def unterminated (bytes : List UInt8) : List Item :=
  ((bytes.splitOn lineFeed).getLast?.toList.filter (· ≠ [])).map .line

/-- The items of a source, when the bytes since the last failure were already joined. -/
def itemsFrom (joined : List UInt8) : Source → List Item
  | [] => terminated joined ++ unterminated joined
  | .bytes data :: rest => itemsFrom (joined ++ data) rest
  | .failure fault :: rest => terminated joined ++ .failure fault :: itemsFrom [] rest

/-- The items of a source. -/
def items (source : Source) : List Item := itemsFrom [] source

/-- Bytes without a line feed have no terminated line. -/
theorem terminated_of_notMem {bytes : List UInt8} (unbroken : lineFeed ∉ bytes) :
    terminated bytes = [] := by
  rw [terminated, List.splitOn_eq_singleton unbroken]
  rfl

/-- Bytes without a line feed are one unterminated line, unless there are none. -/
theorem unterminated_of_notMem {bytes : List UInt8} (unbroken : lineFeed ∉ bytes) :
    unterminated bytes = if bytes = [] then [] else [.line bytes] := by
  rw [unterminated, List.splitOn_eq_singleton unbroken]
  by_cases empty : bytes = [] <;> simp [empty]

/-- The first line feed terminates the first line. -/
theorem terminated_append {line : List UInt8} (unbroken : lineFeed ∉ line) (later : List UInt8) :
    terminated (line ++ lineFeed :: later) = .line (dropReturn line) :: terminated later := by
  have pieces : List.splitOn lineFeed later ≠ [] := List.splitOn_ne_nil lineFeed later
  rw [terminated, List.splitOn_append_cons_self_of_not_mem unbroken,
    List.dropLast_cons_of_ne_nil pieces, List.map_cons, ← terminated]

/-- The unterminated line is behind every line feed. -/
theorem unterminated_append {line : List UInt8} (unbroken : lineFeed ∉ line)
    (later : List UInt8) : unterminated (line ++ lineFeed :: later) = unterminated later := by
  obtain ⟨first, rest, pieces⟩ :=
    List.exists_cons_of_ne_nil (List.splitOn_ne_nil lineFeed later)
  rw [unterminated, List.splitOn_append_cons_self_of_not_mem unbroken, pieces,
    List.getLast?_cons_cons, ← pieces, ← unterminated]

/-- A terminated line is the first item, and the bytes behind it are joined to what follows. -/
theorem itemsFrom_append {line : List UInt8} (unbroken : lineFeed ∉ line) (later : List UInt8)
    (source : Source) :
    itemsFrom (line ++ lineFeed :: later) source =
      .line (dropReturn line) :: itemsFrom later source := by
  induction source generalizing later with
  | nil => rw [itemsFrom, itemsFrom, terminated_append unbroken, unterminated_append unbroken,
      List.cons_append]
  | cons chunk source ih =>
    cases chunk with
    | bytes data =>
      have joined : line ++ lineFeed :: later ++ data = line ++ lineFeed :: (later ++ data) := by
        simp
      rw [itemsFrom, itemsFrom, joined, ih]
    | failure fault => rw [itemsFrom, itemsFrom, terminated_append unbroken, List.cons_append]

/-- Taking an item off a source of which a part of a line was read leaves the later items. -/
theorem itemsFrom_eq_nextFrom? {begun : List UInt8} (unbroken : lineFeed ∉ begun)
    (source : Source) :
    itemsFrom begun source =
      match nextFrom? begun source with
      | none => []
      | some (item, rest) => item :: rest.items := by
  induction source generalizing begun with
  | nil =>
    rw [itemsFrom, nextFrom?, terminated_of_notMem unbroken, unterminated_of_notMem unbroken]
    by_cases empty : begun = []
    · simp [empty]
    · simp only [if_neg empty, List.nil_append, items, itemsFrom]
      rfl
  | cons chunk source ih =>
    cases chunk with
    | failure fault => rw [itemsFrom, nextFrom?, terminated_of_notMem unbroken]; rfl
    | bytes data =>
      have parts : data.takeWhile (· != lineFeed) ++ data.dropWhile (· != lineFeed) = data :=
        List.takeWhile_append_dropWhile
      have early : lineFeed ∉ data.takeWhile (· != lineFeed) := by
        intro listed
        have differs := List.mem_takeWhile_imp listed
        simp at differs
      rw [itemsFrom, nextFrom?]
      cases found : data.dropWhile (· != lineFeed) with
      | nil =>
        rw [found, List.append_nil] at parts
        rw [parts] at early
        have both : lineFeed ∉ begun ++ data := by
          rw [List.mem_append, not_or]
          exact ⟨unbroken, early⟩
        exact ih both
      | cons feed later =>
        have isFeed : feed = lineFeed := by
          have stopped := List.head?_dropWhile_not (· != lineFeed) data
          rw [found] at stopped
          simpa using stopped
        rw [isFeed] at found
        have both : lineFeed ∉ begun ++ data.takeWhile (· != lineFeed) := by
          rw [List.mem_append, not_or]
          exact ⟨unbroken, early⟩
        have joined : begun ++ data =
            begun ++ data.takeWhile (· != lineFeed) ++ lineFeed :: later := by
          rw [List.append_assoc, ← found, parts]
        rw [joined, itemsFrom_append both]
        rfl

/-- A source hands out its items one by one. -/
theorem items_eq_next? (source : Source) :
    source.items =
      match source.next? with
      | none => []
      | some (item, rest) => item :: rest.items :=
  itemsFrom_eq_nextFrom? List.not_mem_nil source

end Source

/-- What a numbered item says: an error, no command or a command. -/
def Item.reading (line : Nat) (item : Item) : Except SourceError (Option Command) :=
  match item.text with
  | .error fault => .error ⟨line, .unreadable fault⟩
  | .ok text => parseLine text line

/-- The error of a numbered line that is no command has its number and a fault of the line. -/
theorem parseLine_eq_error {text : String} {line : Nat} {error : SourceError}
    (failed : parseLine text line = .error error) : ∃ fault, error = ⟨line, .malformed fault⟩ := by
  rw [parseLine] at failed
  cases parsed : Command.ofLine text with
  | ok held? =>
    rw [parsed] at failed
    contradiction
  | error fault =>
    rw [parsed] at failed
    exact ⟨fault, (Except.error.inj failed).symm⟩

/-- The error of a numbered item has its number, and never is that there is no item. -/
theorem Item.reading_eq_error {line : Nat} {item : Item} {error : SourceError}
    (read : item.reading line = .error error) : error.line = line ∧ error.fault ≠ .exhausted := by
  cases shown : item.text with
  | error fault =>
    simp only [Item.reading, shown, Except.error.injEq] at read
    rw [← read]
    exact ⟨rfl, SourceFault.noConfusion⟩
  | ok text =>
    simp only [Item.reading, shown] at read
    obtain ⟨fault, rfl⟩ := parseLine_eq_error read
    exact ⟨rfl, SourceFault.noConfusion⟩

/-- The command an item holds, if it can be read as one. -/
def Item.command? (item : Item) : Option Command :=
  match item.reading 0 with
  | .error _ => none
  | .ok command? => command?

/-- The command of an item does not depend on its number. -/
theorem Item.command?_of_reading {line : Nat} {item : Item} {held? : Option Command}
    (read : item.reading line = .ok held?) : item.command? = held? := by
  cases shown : item.text with
  | error fault =>
    simp only [Item.reading, shown] at read
    contradiction
  | ok text =>
    simp only [Item.reading, shown, parseLine] at read
    simp only [Item.command?, Item.reading, shown, parseLine]
    cases parsed : Command.ofLine text with
    | error fault =>
      rw [parsed] at read
      contradiction
    | ok found? =>
      rw [parsed] at read
      obtain rfl := Except.ok.inj read
      rfl

/-- Walk over items as a scan does over lines, numbering them from the one after the given. -/
def walk {σ ε : Type} (visit : σ → Nat → String → Command → Except ε Unit × σ)
    (refuse : SourceError → ε) : Nat → σ → List Item → Except ε Unit × σ
  | _, state, [] => (.ok (), state)
  | line, state, item :: rest =>
    match item.text with
    | .error fault => (.error (refuse ⟨line + 1, .unreadable fault⟩), state)
    | .ok text =>
      match parseLine text (line + 1) with
      | .error error => (.error (refuse error), state)
      | .ok none => walk visit refuse (line + 1) state rest
      | .ok (some command) =>
        match visit state (line + 1) text command with
        | (.error error, state) => (.error error, state)
        | (.ok (), state) => walk visit refuse (line + 1) state rest

namespace PeekingReader

/-- The items before a reader: the one that was kept, if there is one, and those that are unread. -/
def items (reader : PeekingReader) : List Item :=
  match reader.ahead? with
  | none => reader.unread.items
  | some none => []
  | some (some item) => item :: reader.unread.items

variable {reader : PeekingReader} {item : Item} {rest : List Item}

/-- Looking ahead tells whether there are items, leaves them before the reader, and leaves what the
reader shows. -/
theorem hasMore_eq (reader : PeekingReader) :
    reader.hasMore.1 = !reader.items.isEmpty ∧ reader.hasMore.2.items = reader.items ∧
      ∃ unread : Source, reader.hasMore.2.toReader = { reader.toReader with unread } := by
  obtain ⟨found?, kept, same⟩ | ⟨kept, met, same⟩ | ⟨kept, item, unread, met, same⟩ :=
    reader.hasMore_cases
  · rw [same]
    refine ⟨?_, rfl, reader.unread, rfl⟩
    cases found? <;> simp [items, kept]
  · have none : reader.items = [] := by simp [items, kept, Source.items_eq_next?, met]
    rw [same, none]
    exact ⟨rfl, rfl, reader.unread, rfl⟩
  · have found : reader.items = item :: unread.items := by
      rw [items, kept]
      dsimp only
      rw [Source.items_eq_next?, met]
    rw [same, found]
    exact ⟨rfl, rfl, unread, rfl⟩

/-- A move does the same whether or not the reader has looked ahead before it. -/
theorem advance_hasMore (reader : PeekingReader) : reader.hasMore.2.advance = reader.advance := by
  obtain ⟨found?, -, same⟩ | ⟨kept, met, same⟩ | ⟨kept, item, unread, met, same⟩ :=
    reader.hasMore_cases
  · rw [same]
  · rw [same]
    simp [advance, kept, Reader.advance, met]
  · rw [same]
    simp [advance, kept, Reader.advance, met]

/-- A move behind the last item finds nothing, and the reader shows what it did before. -/
theorem advance_of_end (ended : reader.items = []) :
    reader.advance = (.error ⟨reader.lineNumber, .exhausted⟩, ofReader reader.toReader) := by
  cases kept : reader.ahead? with
  | none =>
    have told : reader.unread.items = [] := by simpa [items, kept] using ended
    rw [Source.items_eq_next?] at told
    cases met : reader.unread.next? with
    | none => simp [advance, kept, Reader.advance, met]
    | some found => simp [met] at told
  | some found? =>
    cases found? with
    | none => simp [advance, kept]
    | some item => simp [items, kept] at ended

/-- A reader with no items before it has nothing more to read, also where it has kept that. -/
theorem unread_of_end (ended : reader.items = []) : reader.unread.items = [] := by
  cases kept : reader.ahead? with
  | none => simpa [items, kept] using ended
  | some found? =>
    cases found? with
    | none => rw [Source.items_eq_next?, reader.ended kept]
    | some item => simp [items, kept] at ended

/-- A move goes onto the first of the items, whether it was kept or is read now, and leaves the
others before the reader. -/
theorem advance_of_item (ahead : reader.items = item :: rest) :
    ∃ unread : Source, unread.items = rest ∧
      reader.advance = ({ reader.toReader with unread }.meet item).map id ofReader := by
  cases kept : reader.ahead? with
  | none =>
    have told : reader.unread.items = item :: rest := by simpa [items, kept] using ahead
    rw [Source.items_eq_next?] at told
    cases met : reader.unread.next? with
    | none => simp [met] at told
    | some found =>
      obtain ⟨first, unread⟩ := found
      rw [met] at told
      obtain ⟨rfl, later⟩ := List.cons.inj told
      exact ⟨unread, later, by simp [advance, kept, Reader.advance, met]⟩
  | some found? =>
    cases found? with
    | none => simp [items, kept] at ahead
    | some first =>
      have told : first :: reader.unread.items = item :: rest := by
        simpa [items, kept] using ahead
      obtain ⟨rfl, later⟩ := List.cons.inj told
      exact ⟨reader.unread, later, by simp [advance, kept]⟩

/-- What a scan does after a move of its reader. -/
def proceed {σ ε : Type} (visit : σ → Reader → Command → Except ε Unit × σ)
    (refuse : SourceError → ε) (state : σ) :
    Except SourceError Unit × PeekingReader → Except ε Unit × σ
  | (.error error, _) => (.error (refuse error), state)
  | (.ok (), next) =>
    match next.command? with
    | none => scan visit refuse next state
    | some command =>
      match visit state next.toReader command with
      | (.error error, state) => (.error error, state)
      | (.ok (), state) => scan visit refuse next state

/-- A scan moves its reader as long as there are lines. -/
theorem scan_eq {σ ε : Type} (visit : σ → Reader → Command → Except ε Unit × σ)
    (refuse : SourceError → ε) (reader : PeekingReader) (state : σ) :
    scan visit refuse reader state =
      if reader.hasMore.1 then proceed visit refuse state reader.advance else (.ok (), state) := by
  rw [scan]
  split
  · rename_i peeked
    rw [peeked]
    rfl
  · rename_i ready peeked
    have same : ready.advance = reader.advance := by rw [← reader.advance_hasMore, peeked]
    rw [peeked, if_pos rfl, ← same]
    split
    · rename_i moved
      exact (congrArg (proceed visit refuse state) moved).symm
    · rename_i moved
      exact (congrArg (proceed visit refuse state) moved).symm

/-- A reader that scans walks over the items before it. -/
theorem scan_eq_walk {σ ε : Type} (visit : σ → Nat → String → Command → Except ε Unit × σ)
    (refuse : SourceError → ε) {reader : PeekingReader} (state : σ) {ahead : List Item}
    (before : reader.items = ahead) :
    scan (fun state reader => visit state reader.lineNumber reader.rawLine) refuse reader state =
      walk visit refuse reader.lineNumber state ahead := by
  induction ahead generalizing reader state with
  | nil =>
    have none : reader.hasMore.1 = false := by rw [reader.hasMore_eq.1, before]; rfl
    rw [scan_eq, none]
    rfl
  | cons item rest ih =>
    have more : reader.hasMore.1 = true := by rw [reader.hasMore_eq.1, before]; rfl
    obtain ⟨unread, later, moves⟩ := advance_of_item before
    rw [scan_eq, more, if_pos rfl, moves, Reader.meet, walk]
    dsimp only
    cases shown : item.text with
    | error fault => rfl
    | ok text =>
      dsimp only
      cases parsed : parseLine text (reader.lineNumber + 1) with
      | error error => rfl
      | ok held? =>
        have next : (ofReader ⟨unread, reader.lineNumber + 1, text, held?⟩).items = rest := later
        cases held? with
        | none => exact ih state next
        | some command =>
          dsimp only [Prod.map, id, proceed, ofReader]
          cases visited : visit state (reader.lineNumber + 1) text command with
          | mk result state =>
            cases result with
            | error error => rfl
            | ok => exact ih state next

end PeekingReader

/-- A reader that scans a source walks over its items. -/
theorem Reader.scan_eq_walk {σ ε : Type} (visit : σ → Nat → String → Command → Except ε Unit × σ)
    (refuse : SourceError → ε) (reader : Reader) (state : σ) :
    Reader.scan (fun state reader => visit state reader.lineNumber reader.rawLine) refuse reader
        state =
      walk visit refuse reader.lineNumber state reader.unread.items :=
  PeekingReader.scan_eq_walk visit refuse state rfl

end HackVm
