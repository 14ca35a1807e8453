import HackVm.Proofs.OnePass
import HackVm.Proofs.Renumbering
import HackVm.Proofs.Source.LineEnding

/-!
# Compiling sources one after the other

A source is put before another with a line feed between them. The line feed ends the last line of
the first source, if it was not ended before, and otherwise adds an empty line; neither changes what
the first source says. So the whole fails as the first source does; or as the second does, at a line
that has all lines of the first before it; or it is compiled to the lines of both, where the labels
of the second are numbered behind those of the first.
-/
namespace HackVm

namespace Source

/-- The lines of bytes when a line feed is put behind them. -/
def closed (bytes : List UInt8) : List Item :=
  (bytes.splitOn lineFeed).map fun piece => .line (dropReturn piece)

/-- What stands before a line feed is closed by it and keeps apart from what stands behind it. -/
theorem items_concatenation (first second : List UInt8) :
    items [.bytes (first ++ lineFeed :: second)] = closed first ++ items [.bytes second] := by
  obtain ⟨piece, rest, pieces⟩ := List.exists_cons_of_ne_nil (List.splitOn_ne_nil lineFeed second)
  simp only [items, itemsFrom, List.nil_append, terminated, unterminated, closed,
    List.splitOn_append_cons_self, pieces]
  rw [List.dropLast_append_of_ne_nil (List.cons_ne_nil _ _), List.map_append,
    List.getLast?_append_of_ne_nil _ (List.cons_ne_nil _ _), List.append_assoc]

/-- A line feed behind bytes ends their last line, or adds an empty line. -/
theorem closed_eq_items (bytes : List UInt8) :
    ∃ front tail, closed bytes = front ++ [.line (dropReturn tail)] ∧
      items [.bytes bytes] = front ++ if tail = [] then [] else [.line tail] := by
  obtain ⟨front, tail, pieces⟩ : ∃ front tail, bytes.splitOn lineFeed = front ++ [tail] :=
    ⟨_, _, (List.dropLast_append_getLast (List.splitOn_ne_nil lineFeed bytes)).symm⟩
  refine ⟨front.map fun piece => .line (dropReturn piece), tail, ?_, ?_⟩
  · rw [closed, pieces, List.map_append, List.map_singleton]
  · rw [items, itemsFrom, itemsFrom, List.nil_append, terminated, unterminated, pieces,
      List.dropLast_concat, List.getLast?_concat]
    by_cases empty : tail = []
    · simp [empty]
    · simp [empty]

/-- There is one line more than there are line feeds. -/
theorem length_closed (bytes : List UInt8) :
    (closed bytes).length = bytes.count lineFeed + 1 := by
  rw [closed, List.length_map]
  induction bytes with
  | nil => rfl
  | cons byte rest ih =>
    rw [List.splitOn, List.splitOnP_cons_eq_if_modifyHead, ← List.splitOn, List.count_cons]
    split
    · rw [List.length_cons, ih]
    · rw [List.length_modifyHead, ih]

end Source

/-- The error at a line that has more lines before it. -/
def SourceError.later (count : Nat) (error : SourceError) : SourceError :=
  { error with line := error.line + count }

/-- The failure at a line that has more lines before it. -/
def Failure.later (count : Nat) : Failure → Failure
  | source error => source (error.later count)
  | emission line error => emission (line + count) error
  | failure => failure

/-- The number of comparisons among the commands of a source that can be read. -/
def Source.comparisons (source : Source) : Nat :=
  match source.commands with
  | .ok commands => commands.countP Command.compares
  | .error _ => 0

/-- Where an item stands makes no difference to what it says, but for the number in its error. -/
theorem Item.reading_add (item : Item) (line count : Nat) :
    item.reading (line + count) = (item.reading line).mapError (SourceError.later count) := by
  cases shown : item.text with
  | error fault =>
    simp only [Item.reading, shown]
    rfl
  | ok text =>
    simp only [Item.reading, shown, parseLine]
    cases Command.ofLine text <;> rfl

variable (qualifier : String) (comments : Bool)

/-- An item fails wherever it stands, but for the number in its failure. -/
theorem Item.failure?_add (item : Item) (line count : Nat) :
    item.failure? qualifier comments (line + count) =
      (item.failure? qualifier comments line).map (Failure.later count) := by
  rw [← Item.ending?_answer, ← Item.ending?_answer, Item.ending?, Item.ending?, Item.reading_add]
  cases item.reading line with
  | error error => rfl
  | ok held? =>
    cases held? with
    | none => rfl
    | some command =>
      simp only [Except.mapError, Pass.answer]
      cases command.refusal? <;> rfl

/-- The failure of the first item that has one, where the items are numbered from a given line. -/
def firstFailure? (line : Nat) (items : List Item) : Option Failure :=
  (items.zipIdx line).findSome? fun entry => entry.1.failure? qualifier comments entry.2

/-- The first failure of items one after the other. -/
theorem firstFailure?_append (line : Nat) (front back : List Item) :
    firstFailure? qualifier comments line (front ++ back) =
      (firstFailure? qualifier comments line front).or
        (firstFailure? qualifier comments (line + front.length) back) := by
  rw [firstFailure?, List.zipIdx_append, List.findSome?_append]
  rfl

/-- The first failure of items with more lines before them. -/
theorem firstFailure?_add (line count : Nat) (items : List Item) :
    firstFailure? qualifier comments (line + count) items =
      (firstFailure? qualifier comments line items).map (Failure.later count) := by
  induction items generalizing line with
  | nil => rfl
  | cons item rest ih =>
    have order : line + count + 1 = line + 1 + count := by omega
    rw [firstFailure?, firstFailure?, List.zipIdx_cons, List.zipIdx_cons, List.findSome?_cons,
      List.findSome?_cons, Item.failure?_add, order]
    cases item.failure? qualifier comments line with
    | some failure => rfl
    | none => exact ih (line + 1)

/-- Items that say the same at a line fail alike there. -/
theorem Item.failure?_of_reading {item other : Item} {line : Nat}
    (same : item.reading line = other.reading line) :
    item.failure? qualifier comments line = other.failure? qualifier comments line := by
  rw [← Item.ending?_answer, ← Item.ending?_answer, Item.ending?, Item.ending?, same]

/-- A line feed behind bytes does not change their first failure. -/
theorem firstFailure?_closed (line : Nat) (bytes : List UInt8) :
    firstFailure? qualifier comments line (Source.closed bytes) =
      firstFailure? qualifier comments line (Source.items [.bytes bytes]) := by
  obtain ⟨front, tail, closed, items⟩ := Source.closed_eq_items bytes
  rw [closed, items, firstFailure?_append, firstFailure?_append]
  congr 1
  by_cases empty : tail = []
  · rw [empty, if_pos rfl]
    rfl
  · have alike := Item.failure?_of_reading qualifier comments
      (reading_dropReturn tail (line + front.length))
    rw [if_neg empty, firstFailure?, firstFailure?, List.zipIdx_singleton, List.zipIdx_singleton,
      List.findSome?_singleton, List.findSome?_singleton, alike]

/-- A line feed behind bytes does not change their commands. -/
theorem commands_closed (bytes : List UInt8) :
    (Source.closed bytes).filterMap Item.command? =
      (Source.items [.bytes bytes]).filterMap Item.command? := by
  obtain ⟨front, tail, closed, items⟩ := Source.closed_eq_items bytes
  have alike : (Item.line (dropReturn tail)).command? = (Item.line tail).command? := by
    rw [Item.command?, Item.command?, reading_dropReturn]
  rw [closed, items, List.filterMap_append, List.filterMap_append]
  congr 1
  by_cases empty : tail = []
  · rw [empty, if_pos rfl]
    rfl
  · rw [if_neg empty, List.filterMap_cons, List.filterMap_cons, alike]

/-- The lines that a source without a failing item is compiled to are those of the listing of its
commands. -/
theorem compile_eq_listing {qualifier : String} {comments : Bool} {source : Source}
    (clean : firstFailure? qualifier comments 1 source.items = none) :
    ∃ lines, listing qualifier comments 0 (source.items.filterMap Item.command?) = .ok lines ∧
      source.compile qualifier comments = .ok (lines.map (·.text)).toArray := by
  obtain ⟨emitter, accepted, compiled⟩ := compile_of_clean clean
  obtain ⟨lines, listed, collected⟩ := sink_emitAll rfl accepted
  refine ⟨lines, listed, ?_⟩
  rw [compiled, ← collected, Array.toArray_toList]

/-- The commands of a source without a failing item use up a label number for each comparison. -/
theorem comparisons_of_clean {qualifier : String} {comments : Bool} {source : Source}
    (clean : firstFailure? qualifier comments 1 source.items = none) :
    labelTotal (source.items.filterMap Item.command?) = source.comparisons := by
  have read := commands_eq source
  rw [unread?_of_clean clean] at read
  rw [Source.comparisons, read, labelTotal_eq_countP]
  simp

/-- Two sources with a line feed between them fail as the first does. If the first is compiled they
fail as the second does, at a line that has the lines of the first before it. If both are compiled
they are compiled to the lines of the first and then those of the second, with the number of every
label raised by the number of comparisons in the first. -/
theorem compile_concatenation (first second : List UInt8) :
    Source.compile [.bytes (first ++ lineFeed :: second)] qualifier comments =
      match Source.compile [.bytes first] qualifier comments with
      | .error failure => .error failure
      | .ok lines =>
        match Source.compile [.bytes second] qualifier comments with
        | .error failure => .error (failure.later (first.count lineFeed + 1))
        | .ok others =>
          .ok (lines ++ others.map (Assembly.relabel (Source.comparisons [.bytes first]))) := by
  have whole := Source.items_concatenation first second
  have fails : firstFailure? qualifier comments 1
      (Source.items [.bytes (first ++ lineFeed :: second)]) =
        (firstFailure? qualifier comments 1 (Source.items [.bytes first])).or
          ((firstFailure? qualifier comments 1 (Source.items [.bytes second])).map
            (Failure.later (first.count lineFeed + 1))) := by
    rw [whole, firstFailure?_append, firstFailure?_closed, Source.length_closed, firstFailure?_add]
  cases early : firstFailure? qualifier comments 1 (Source.items [.bytes first]) with
  | some failure =>
    rw [early, Option.some_or] at fails
    rw [compile_of_failure fails, compile_of_failure early]
  | none =>
    rw [early, Option.none_or] at fails
    obtain ⟨lines, listed, compiled⟩ := compile_eq_listing early
    rw [compiled]
    cases late : firstFailure? qualifier comments 1 (Source.items [.bytes second]) with
    | some failure =>
      rw [late] at fails
      rw [compile_of_failure fails, compile_of_failure late]
    | none =>
      rw [late] at fails
      obtain ⟨others, also, behind⟩ := compile_eq_listing late
      obtain ⟨joined, both, together⟩ := compile_eq_listing fails
      -- The second part of the listing starts from the number that the first has reached.
      rw [whole, List.filterMap_append, commands_closed, listing_append, listed, listing_add, also,
        comparisons_of_clean early] at both
      obtain rfl := Except.ok.inj both
      rw [behind, together]
      simp [Assembly.relabel_text]

end HackVm
