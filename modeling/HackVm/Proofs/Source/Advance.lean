import HackVm.Proofs.Source.Items

/-!
# Moving over a source

A reader that is moved again and again meets the items of its source one by one: the first move
meets the first item, and every move behind the last item finds nothing and changes nothing. What a
move finds depends on the item and its number only, not on what earlier moves found and not on how
the bytes were cut into chunks. `Source.groups` is what is left of a source when the cuts are
forgotten: the bytes between failed reads, joined. `items_eq_groups` makes the items from the
groups, so sources with the same groups cannot be told apart by a reader.
-/
namespace HackVm

namespace Source

end Source

namespace Reader

/-- The reader after a number of moves. -/
def moved : Nat → Reader → Reader
  | 0, reader => reader
  | count + 1, reader => (moved count reader).advance.2

variable {reader : Reader} {item : Item} {rest : List Item}

/-- A move goes on to the next item and counts it. An item without text is an error and leaves the
text of the item before; the text of any other is shown and read as a command. -/
theorem advance_of_item (ahead : reader.unread.items = item :: rest) :
    ∃ unread : Source, unread.items = rest ∧
      reader.advance =
        match item.text with
        | .error fault =>
          (.error ⟨reader.lineNumber + 1, .unreadable fault⟩,
            ⟨unread, reader.lineNumber + 1, reader.rawLine, none⟩)
        | .ok text =>
          match parseLine text (reader.lineNumber + 1) with
          | .error error => (.error error, ⟨unread, reader.lineNumber + 1, text, none⟩)
          | .ok found? => (.ok (), ⟨unread, reader.lineNumber + 1, text, found?⟩) := by
  rw [Source.items_eq_next?] at ahead
  cases taken : reader.unread.next? with
  | none => simp [taken] at ahead
  | some found =>
    obtain ⟨first, unread⟩ := found
    rw [taken] at ahead
    obtain ⟨rfl, later⟩ := List.cons.inj ahead
    refine ⟨unread, later, ?_⟩
    rw [advance, taken]
    rfl

/-- A move behind the last item finds nothing and changes nothing. -/
theorem advance_of_end (ended : reader.unread.items = []) :
    reader.advance = (.error ⟨reader.lineNumber, .exhausted⟩, reader) := by
  rw [Source.items_eq_next?] at ended
  cases taken : reader.unread.next? with
  | none => rw [advance, taken]
  | some found => simp [taken] at ended

/-- Two readers show the same and have the same items ahead. -/
structure Alike (left right : Reader) : Prop where
  /-- The same items are ahead. -/
  items : left.unread.items = right.unread.items
  /-- The same number is shown. -/
  lineNumber : left.lineNumber = right.lineNumber
  /-- The same text is shown. -/
  rawLine : left.rawLine = right.rawLine
  /-- The same command is shown. -/
  command : left.command? = right.command?

/-- Readers that are alike find the same and stay alike. -/
theorem Alike.advance {left right : Reader} (alike : Alike left right) :
    left.advance.1 = right.advance.1 ∧ Alike left.advance.2 right.advance.2 := by
  cases ahead : left.unread.items with
  | nil =>
    have other : right.unread.items = [] := by rw [← alike.items, ahead]
    rw [advance_of_end ahead, advance_of_end other, alike.lineNumber]
    exact ⟨rfl, alike⟩
  | cons item rest =>
    have other : right.unread.items = item :: rest := by rw [← alike.items, ahead]
    obtain ⟨unread, later, moves⟩ := advance_of_item ahead
    obtain ⟨unread', later', moves'⟩ := advance_of_item other
    have same : unread.items = unread'.items := by rw [later, later']
    rw [moves, moves', alike.lineNumber, alike.rawLine]
    cases item.text with
    | error fault => exact ⟨rfl, same, rfl, rfl, rfl⟩
    | ok text =>
      dsimp only
      cases parseLine text (right.lineNumber + 1) with
      | error error => exact ⟨rfl, same, rfl, rfl, rfl⟩
      | ok found? => exact ⟨rfl, same, rfl, rfl, rfl⟩

/-- Readers that are alike stay alike over any number of moves. -/
theorem Alike.moved {left right : Reader} (alike : Alike left right) (count : Nat) :
    Alike (moved count left) (moved count right) := by
  induction count with
  | zero => exact alike
  | succ count ih => exact ih.advance.2

/-- There is a further line exactly when there are items left. -/
theorem hasMore_eq (reader : Reader) : reader.hasMore = !reader.unread.items.isEmpty := by
  rw [Reader.hasMore, Source.items_eq_next?]
  cases reader.unread.next? <;> rfl

/-- Readers that are alike agree on whether there is a further line. -/
theorem Alike.hasMore {left right : Reader} (alike : Alike left right) :
    left.hasMore = right.hasMore := by
  rw [hasMore_eq, hasMore_eq, alike.items]

end Reader

end HackVm
