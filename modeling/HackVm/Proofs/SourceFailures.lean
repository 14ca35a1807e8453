import HackVm.Proofs.Grammar
import HackVm.Proofs.Refusal
import HackVm.Proofs.TextLines

/-!
# What a source can fail with

The bound of an index is checked where a line is read and again where its command is emitted. A
command that was read has an index that can be loaded, so the second check never refuses it; what
remains are the bounds of the two small segments and the pop into a constant. An error has the
number of an item of the source, because every failure is that of an item. `Failure.OfItems` lists
the failures that are left when a source is compiled.
-/
namespace HackVm

/-- The reasons for which a command that was read may be refused. -/
def EmitError.OfRead : EmitError → Prop
  | tempIndex index => 8 ≤ index ∧ index ≤ 32767
  | pointerIndex index => 2 ≤ index ∧ index ≤ 32767
  | popConstant => True
  | indexRange _ | notAccess _ => False

/-- The failures that compiling a source may end with, by the number of its items. -/
def Failure.OfItems (count : Nat) : Failure → Prop
  | source error => error.fault ≠ .exhausted ∧ 1 ≤ error.line ∧ error.line ≤ count
  | emission line error => error.OfRead ∧ 1 ≤ line ∧ line ≤ count
  | inputNotFound _ | noQualifier _ | output _ _ => False

/-- The index of a command that was read can be loaded. -/
theorem loadable_of_reading {item : Item} {line index : Nat} {command : Command}
    (read : item.reading line = .ok (some command)) (indexed : command.index? = some index) :
    index ≤ maxIndex := by
  cases shown : item.text with
  | error fault =>
    simp only [Item.reading, shown] at read
    contradiction
  | ok text =>
    simp only [Item.reading, shown] at read
    have written := parseLine_eq_ok_iff_writes.mp read
    generalize Text.words (codePart text.toList) = words at written
    cases written with
    | arithmetic named => contradiction
    | push named into counted =>
      obtain rfl := Option.some.inj indexed
      exact counted.2.2.2
    | pop named into counted =>
      obtain rfl := Option.some.inj indexed
      exact counted.2.2.2

/-- A segment refuses an index that can be loaded only if it is one of the two small ones. -/
theorem Segment.ofRead_refusal? {segment : Segment} {index : Nat} {error : EmitError}
    (loadable : index ≤ maxIndex) (refused : segment.refusal? index = some error) :
    error.OfRead := by
  have bound : index ≤ 32767 := loadable
  rw [Segment.refusal?_eq, if_neg (by omega)] at refused
  split at refused
  · rename_i outside
    obtain rfl := Option.some.inj refused
    exact ⟨by omega, bound⟩
  · split at refused
    · rename_i outside
      obtain rfl := Option.some.inj refused
      exact ⟨by omega, bound⟩
    · contradiction

/-- A command whose index can be loaded is refused only for a small segment or into a constant. -/
theorem Command.ofRead_refusal? {command : Command} {error : EmitError}
    (loadable : ∀ index, command.index? = some index → index ≤ maxIndex)
    (refused : command.refusal? = some error) : error.OfRead := by
  cases command with
  | arithmetic operator => contradiction
  | push segment index => exact Segment.ofRead_refusal? (loadable index rfl) refused
  | pop segment index =>
    rw [Command.refusal?] at refused
    cases bounded : segment.refusal? index with
    | some reason =>
      rw [bounded] at refused
      obtain rfl := Option.some.inj refused
      exact Segment.ofRead_refusal? (loadable index rfl) bounded
    | none =>
      rw [bounded] at refused
      dsimp only at refused
      split at refused
      · obtain rfl := Option.some.inj refused
        trivial
      · contradiction

variable {source : Source} {qualifier : String} {comments : Bool}

/-- The number of an item is one of those from one to the number of items. -/
theorem Source.line_of_numbered {item : Item} {line : Nat}
    (listed : (item, line) ∈ source.numbered) : 1 ≤ line ∧ line ≤ source.items.length := by
  obtain ⟨low, high, -⟩ := List.mem_zipIdx listed
  omega

/-- The failure of a numbered item is one that a source may end with. -/
theorem Item.ofItems_failure? {item : Item} {line count : Nat} {failure : Failure}
    (numbered : 1 ≤ line ∧ line ≤ count)
    (fails : item.failure? qualifier comments line = some failure) : failure.OfItems count := by
  rw [← Item.ending?_answer, Item.ending?] at fails
  cases read : item.reading line with
  | error error =>
    rw [read] at fails
    obtain rfl := Option.some.inj fails
    obtain ⟨same, other⟩ := Item.reading_eq_error read
    exact ⟨other, by omega, by omega⟩
  | ok held? =>
    cases held? with
    | none => simp [read] at fails
    | some command =>
      have loadable (index : Nat) (indexed : command.index? = some index) : index ≤ maxIndex :=
        loadable_of_reading read indexed
      cases refused : command.refusal? with
      | none => simp [read, Pass.answer, refused] at fails
      | some error =>
        simp only [read, Pass.answer, refused, Option.some.injEq] at fails
        obtain rfl := fails
        exact ⟨Command.ofRead_refusal? loadable refused, numbered⟩

/-- Compiling a source never ends with an exhausted reader, an index that cannot be loaded, a
request of another kind, or a failure of files. A command is refused only for the bounds of `temp`
and `pointer` and for a pop into a constant. The lines of a text are never unreadable. Every error
has the number of a line or a failed read of the source. -/
theorem internal_errors_unreachable (source : Source) (qualifier : String) (comments : Bool) :
    (∀ failure, source.compile qualifier comments = .error failure →
      failure.OfItems source.items.length) ∧
    ∀ text error, parseText text = .error error →
      (∃ fault, error.fault = .malformed fault) ∧ 1 ≤ error.line ∧
        error.line ≤ (Source.items [.bytes (Text.encode text)]).length := by
  constructor
  · intro failure failed
    obtain ⟨item, line, listed, fails⟩ := exists_item_of_compile failed
    exact Item.ofItems_failure? (Source.line_of_numbered listed) fails
  · intro text error failed
    obtain ⟨early, item, late, parts, read, -⟩ := unread?_of_commands failed
    have listed : (item, error.line) ∈ Source.numbered [.bytes (Text.encode text)] := by
      rw [parts]
      exact List.mem_append_right early List.mem_cons_self
    obtain ⟨line, -, told⟩ := Item.reading_of_text (Source.mem_items_iff.mpr ⟨_, listed⟩)
    rw [told] at read
    obtain ⟨fault, same⟩ := parseLine_eq_error read
    exact ⟨⟨fault, congrArg SourceError.fault same⟩, Source.line_of_numbered listed⟩

/-- A push from behind the last scratch cell is refused by its line, before the read that fails, and
a line that is no command is the second of two though no line feed ends it. -/
theorem temp_refused_before_failed_read :
    let source : Source :=
      [.bytes (Text.encode "add\npush temp 8\nneg"), .failure (.other "gone")]
    source.compile "T" true = .error (.emission 2 (.tempIndex 8)) ∧
      (Failure.emission 2 (.tempIndex 8)).OfItems 3 ∧
      parseText "neg\r\nx" = .error ⟨2, .malformed (.unknownCommand "x")⟩ ∧
      2 ≤ (Source.items [.bytes (Text.encode "neg\r\nx")]).length := by
  intro source
  have compiled : source.compile "T" true = .error (.emission 2 (.tempIndex 8)) :=
    compile_of_failure (by decide +kernel)
  have parsed : parseText "neg\r\nx" = .error ⟨2, .malformed (.unknownCommand "x")⟩ :=
    (commands_eq _).trans (by decide +kernel)
  obtain ⟨compiling, parsing⟩ := internal_errors_unreachable source "T" true
  have count : source.items.length = 3 := by decide
  have numbered := compiling _ compiled
  rw [count] at numbered
  exact ⟨compiled, numbered, parsed, (parsing _ _ parsed).2.2⟩

end HackVm
