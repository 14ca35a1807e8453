import HackVm.Source.Basic
import HackVm.Source.Error

/-!
# Reading a source line by line

A reader walks over a source and shows the line it stands on: its number, its text and the
command in it. `Reader.advance` moves to the next line. A line that is no command, or cannot be
read, is an error of that one line, and the reader can go on behind it. To know whether there is
a further line, an item has to be read; a `PeekingReader` keeps that item until it moves on.
`Reader.scan` visits the commands of all lines in order, looking ahead before each move, and
stops at the first error.
-/
namespace HackVm

/-- A place in a source. -/
structure Reader where
  /-- What is still to be read. -/
  unread : Source
  /-- How many lines and failed reads lie behind. -/
  lineNumber : Nat
  /-- Text of the last line that could be read. -/
  rawLine : String
  /-- The command of the current line, if it holds one. -/
  command? : Option Command
deriving Repr

namespace Reader

/-- The reader before the first line of a source. -/
def ofSource (source : Source) : Reader := ⟨source, 0, "", none⟩

/-- Whether there is a further line. -/
def hasMore (reader : Reader) : Bool := reader.unread.next?.isSome

/-- The kind of the current line. -/
def kind (reader : Reader) : Kind := reader.command?.elim .blank (·.kind)

/-- The operator or segment of the current command. -/
def subject? (reader : Reader) : Option String := reader.command?.map (·.subject)

/-- The index of the current command, if it is a push or pop. -/
def index? (reader : Reader) : Option Nat := reader.command?.bind (·.index?)

/-- Move onto an item that was read, whatever it holds. An item that cannot be read as text
leaves the text of the line before; a line without a readable command clears the command. -/
def meet (reader : Reader) (item : Item) : Except SourceError Unit × Reader :=
  let line := reader.lineNumber + 1
  match item.text with
  | .error fault =>
    (.error ⟨line, .unreadable fault⟩, ⟨reader.unread, line, reader.rawLine, none⟩)
  | .ok text =>
    match parseLine text line with
    | .error error => (.error error, ⟨reader.unread, line, text, none⟩)
    | .ok command? => (.ok (), ⟨reader.unread, line, text, command?⟩)

/-- Move to the next line, whatever it holds; behind the last line nothing changes. -/
def advance (reader : Reader) : Except SourceError Unit × Reader :=
  match reader.unread.next? with
  | none => (.error ⟨reader.lineNumber, .exhausted⟩, reader)
  | some (item, unread) => { reader with unread }.meet item

/-- Moving onto an item reads nothing. -/
theorem unread_meet (reader : Reader) (item : Item) :
    (reader.meet item).2.unread = reader.unread := by
  unfold meet
  dsimp only
  split
  · rfl
  · split <;> rfl

end Reader

/-- A reader that may have read one item ahead of the line it shows. -/
structure PeekingReader extends Reader where
  /-- What was read ahead, if anything was: an item, or that there is none left. -/
  ahead? : Option (Option Item)
  /-- Where there was no item left there is nothing more to read. -/
  ended : ahead? = some none → unread.next? = none

namespace PeekingReader

/-- A reader that has read nothing ahead. -/
def ofReader (reader : Reader) : PeekingReader := ⟨reader, none, nofun⟩

/-- The reader before the first line of a source. -/
def ofSource (source : Source) : PeekingReader := ofReader (Reader.ofSource source)

/-- Whether there is a further line. If that is not known yet, an item is read and kept. -/
def hasMore (reader : PeekingReader) : Bool × PeekingReader :=
  match reader.ahead? with
  | some found? => (found?.isSome, reader)
  | none =>
    match met : reader.unread.next? with
    | none => (false, ⟨reader.toReader, some none, fun _ => met⟩)
    | some (item, unread) => (true, ⟨{ reader.toReader with unread }, some (some item), nofun⟩)

/-- Looking ahead answers from what was kept, keeps the first item that is unread, or keeps that
there is none. -/
theorem hasMore_cases (reader : PeekingReader) :
    (∃ found?, reader.ahead? = some found? ∧ reader.hasMore = (found?.isSome, reader)) ∨
      (reader.ahead? = none ∧ ∃ met : reader.unread.next? = none,
        reader.hasMore = (false, ⟨reader.toReader, some none, fun _ => met⟩)) ∨
      (reader.ahead? = none ∧ ∃ item unread, reader.unread.next? = some (item, unread) ∧
        reader.hasMore = (true, ⟨{ reader.toReader with unread }, some (some item), nofun⟩)) := by
  unfold hasMore
  split
  · rename_i found? kept
    exact .inl ⟨found?, kept, rfl⟩
  · rename_i kept
    split
    · rename_i met
      exact .inr (.inl ⟨kept, met, rfl⟩)
    · rename_i item unread met
      exact .inr (.inr ⟨kept, item, unread, met, rfl⟩)

/-- Move to the next line: onto what was kept, if anything was. -/
def advance (reader : PeekingReader) : Except SourceError Unit × PeekingReader :=
  match reader.ahead? with
  | none => reader.toReader.advance.map id ofReader
  | some none => (.error ⟨reader.lineNumber, .exhausted⟩, ofReader reader.toReader)
  | some (some item) => (reader.toReader.meet item).map id ofReader

/-- How much a reader has before it: what is unread, and an item that was kept. -/
def weight (reader : PeekingReader) : Nat :=
  reader.unread.weight + if reader.ahead?.join.isSome then 1 else 0

/-- Looking ahead adds nothing to what a reader has before it. -/
theorem weight_hasMore {reader ready : PeekingReader} {more : Bool}
    (peeked : reader.hasMore = (more, ready)) : ready.weight ≤ reader.weight := by
  obtain ⟨found?, -, same⟩ | ⟨-, met, same⟩ | ⟨-, item, unread, taken, same⟩ :=
    reader.hasMore_cases
  · obtain rfl : reader = ready := congrArg Prod.snd (same.symm.trans peeked)
    exact Nat.le_refl _
  · obtain rfl := congrArg Prod.snd (same.symm.trans peeked)
    exact Nat.le_add_right _ _
  · obtain rfl := congrArg Prod.snd (same.symm.trans peeked)
    have lighter := Source.weight_next? taken
    change unread.weight + 1 ≤ reader.unread.weight + _
    omega

/-- Moving on to a readable line leaves less before a reader. -/
theorem weight_advance {reader next : PeekingReader} (moved : reader.advance = (.ok (), next)) :
    next.weight < reader.weight := by
  have unkept (place : Reader) : (ofReader place).weight = place.unread.weight := rfl
  unfold advance at moved
  split at moved
  · cases taken : reader.unread.next? with
    | none => simp [Reader.advance, taken] at moved
    | some found =>
      obtain ⟨item, unread⟩ := found
      have lighter := Source.weight_next? taken
      have placed : next = ofReader ({ reader.toReader with unread }.meet item).2 := by
        simpa [Reader.advance, taken] using (congrArg Prod.snd moved).symm
      rw [placed, unkept, Reader.unread_meet]
      simp only [weight]
      omega
  · simp at moved
  · rename_i item kept
    have placed : next = ofReader (reader.toReader.meet item).2 := (congrArg Prod.snd moved).symm
    rw [placed, unkept, Reader.unread_meet]
    simp [weight, kept]

/-- Visit the commands of all further lines in order, each with the reader standing on its line.
The first error ends the visit: one of a line, passed through `refuse`, or one of the visitor.
The state the visitor had reached is returned in either case. -/
def scan {σ ε : Type} (visit : σ → Reader → Command → Except ε Unit × σ)
    (refuse : SourceError → ε) (reader : PeekingReader) (state : σ) : Except ε Unit × σ :=
  match _ : reader.hasMore with
  | (false, _) => (.ok (), state)
  | (true, ready) =>
    match _ : ready.advance with
    | (.error error, _) => (.error (refuse error), state)
    | (.ok (), next) =>
      match next.command? with
      | none => scan visit refuse next state
      | some command =>
        match visit state next.toReader command with
        | (.error error, state) => (.error error, state)
        | (.ok (), state) => scan visit refuse next state
termination_by reader.weight
decreasing_by all_goals
  exact Nat.lt_of_lt_of_le (weight_advance (by assumption)) (weight_hasMore (by assumption))

end PeekingReader

/-- Visit the commands of all lines behind a reader in order, looking one item ahead. -/
def Reader.scan {σ ε : Type} (visit : σ → Reader → Command → Except ε Unit × σ)
    (refuse : SourceError → ε) (reader : Reader) (state : σ) : Except ε Unit × σ :=
  (PeekingReader.ofReader reader).scan visit refuse state

/-- The commands of a source, in order, or the first error of a line. -/
def Source.commands (source : Source) : Except SourceError (Array Command) :=
  match Reader.scan (fun found _ command => (.ok (), found.push command)) id
      (Reader.ofSource source) #[] with
  | (.error error, _) => .error error
  | (.ok (), found) => .ok found

/-- The commands of a text, in order, or the first error of a line. -/
def parseText (text : String) : Except SourceError (Array Command) :=
  Source.commands [.bytes (Text.encode text)]

end HackVm
