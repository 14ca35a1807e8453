import HackVm.Proofs.Compilation

/-!
# What a compilation writes

A compilation that succeeds has read a regular file, compiled it as a whole and written its lines
to the entry that the output names, and to no other. `compilation_eq_ok_iff` tells from the parts of
a compilation whether it succeeds. The written file makes the tree grow, so the paths of input and
output lead to the same places afterwards, and the same compilation can be made again, with the same
outcome, as long as it has not overwritten its own input.
-/
namespace HackVm

/-- Lines have no bytes exactly when there are none. -/
theorem fileContent_eq_nil_iff {lines : Array String} : fileContent lines = [] ↔ lines = #[] := by
  obtain ⟨lines⟩ := lines
  cases lines <;> simp [fileContent]

variable {σ : Type} [Journal σ] {tree after : FileTree} {input output path : Path}
  {comments : Bool} {count : Nat} {journal later : σ}

/-- A write succeeds exactly where a path can be opened: nothing may be written to a full device,
and otherwise the bytes become the file. -/
theorem FileTree.write_eq_ok_iff {content : List UInt8} :
    tree.write path content = .ok after ↔
      ∃ key, tree.writeKey path = .ok key ∧
        ((tree.get? key = some .full ∧ content = [] ∧ after = tree) ∨
          tree.get? key ≠ some .full ∧ after = tree.put key (.file content)) := by
  rw [write]
  cases opened : tree.writeKey path with
  | error fault => simp [bind, Except.bind]
  | ok key =>
    simp only [bind, Except.bind, fill, Except.ok.injEq, exists_eq_left']
    by_cases full : tree.get? key = some .full
    · by_cases empty : content = [] <;> simp [full, empty, eq_comm]
    · simp [full, eq_comm]

/-- A write changes the entry that its path names and no other. -/
theorem FileTree.get?_of_write {content : List UInt8} {key other : Key}
    (wrote : tree.write path content = .ok after) (opened : tree.writeKey path = .ok key)
    (apart : other ≠ key) : after.get? other = tree.get? other := by
  obtain ⟨found, also, ⟨-, -, rfl⟩ | ⟨-, rfl⟩⟩ := write_eq_ok_iff.mp wrote
  · rfl
  · rw [opened] at also
    obtain rfl := Except.ok.inj also
    rw [get?_put (free_of_writeKey opened), if_neg apart]

/-- A tree grows by what is written to it. -/
theorem FileTree.grows_of_write {content : List UInt8}
    (wrote : tree.write path content = .ok after) : tree.Grows after := by
  obtain ⟨key, opened, ⟨-, -, rfl⟩ | ⟨-, rfl⟩⟩ := write_eq_ok_iff.mp wrote
  · exact ⟨rfl, fun _ => id, fun _ => id⟩
  · exact grows_put (free_of_writeKey opened) content

/-- A write makes no directory. -/
theorem FileTree.directory_of_write {content : List UInt8} {key : Key}
    (wrote : tree.write path content = .ok after) (stands : after.get? key = some .directory) :
    tree.get? key = some .directory := by
  obtain ⟨written, opened, ⟨-, -, rfl⟩ | ⟨-, rfl⟩⟩ := write_eq_ok_iff.mp wrote
  · exact stands
  · rw [get?_put (free_of_writeKey opened)] at stands
    split at stands
    · exact absurd (Option.some.inj stands) nofun
    · exact stands

/-- Writing the same bytes again changes nothing. -/
theorem FileTree.write_again {content : List UInt8} (wrote : tree.write path content = .ok after) :
    after.write path content = .ok after := by
  have grows := grows_of_write wrote
  obtain ⟨key, opened, ⟨full, empty, rfl⟩ | ⟨-, rfl⟩⟩ := write_eq_ok_iff.mp wrote
  · exact wrote
  · have stands : (tree.put key (.file content)).get? key = some (.file content) := by
      rw [get?_put (free_of_writeKey opened), if_pos rfl]
    refine write_eq_ok_iff.mpr ⟨key, writeKey_of_grows grows opened ?_, .inr ⟨?_, ?_⟩⟩
    · rw [stands]
      simp
    · rw [stands]
      simp
    · rw [put_put]

/-- A compilation succeeds exactly when its input can be read and compiled and its output written,
and then counts the lines of the output. -/
theorem compilation_eq_ok_iff :
    tree.compile input output comments journal = some ((.ok count, later), after) ↔
      ∃ place source qualifier lines, tree.locate input = .ok place ∧
        tree.contents place = some source ∧ input.qualifier = .ok qualifier ∧
        source.compileInto qualifier comments journal = (.ok lines, later) ∧
        tree.write output (fileContent lines) = .ok after ∧ count = lines.size := by
  constructor
  · intro succeeded
    have goes := goes_compile tree input output comments journal
    generalize tree.compile input output comments journal = outcome at goes succeeded
    cases goes with
    | fails => simp at succeeded
    | endless => contradiction
    | @stores place source qualifier lines logged found named gives passed =>
      have stored := Option.some.inj succeeded
      rw [FileTree.store] at stored
      cases wrote : tree.write output (fileContent lines) with
      | error fault => cases removed : tree.remove output <;> simp [wrote, removed] at stored
      | ok next =>
        simp only [wrote, Prod.mk.injEq, Except.ok.injEq] at stored
        obtain ⟨⟨rfl, rfl⟩, rfl⟩ := stored
        exact ⟨place, source, qualifier, lines, found, gives, named, passed, wrote, rfl⟩
  · rintro ⟨place, source, qualifier, lines, opened, gives, named, passed, wrote, rfl⟩
    rw [compile_eq]
    simp [opened, named, gives, passed, FileTree.store, wrote]

/-- A directory is no source: reading it fails. -/
theorem compile_directory (qualifier : String) (comments : Bool) :
    Source.compile [.failure .isDirectory] qualifier comments =
      .error (.source ⟨1, .unreadable .isDirectory⟩) :=
  compile_of_failure rfl

/-- What is compiled is a regular file of the tree. -/
theorem file_of_contents {place : Key} {source : Source} {qualifier : String}
    {lines : Array String} (found : tree.locate input = .ok place)
    (gives : tree.contents place = some source)
    (compiled : source.compile qualifier comments = .ok lines) :
    ∃ content, tree.get? place = some (.file content) ∧ source = [.bytes content] := by
  obtain ⟨entry, stands⟩ := Option.isSome_iff_exists.mp (FileTree.stands_of_locate found).present
  simp only [FileTree.contents, stands] at gives
  cases entry with
  | file content => exact ⟨content, stands, (Option.some.inj gives).symm⟩
  | directory =>
    obtain rfl := Option.some.inj gives
    rw [compile_directory] at compiled
    contradiction
  | full => contradiction

/-- A compilation that succeeds has compiled a regular file of the tree as a whole, counts the lines
it was compiled to, and has written them, each with a line feed behind it, to the entry that the
output names; a full device takes no line and leaves the tree as it was. Every other entry is
unchanged, and so are the directories. If the output does not name the input, the input keeps its
bytes, and the same compilation succeeds again with the same count and leaves the tree unchanged. -/
theorem successful_compilation_writes_lines
    (succeeded : tree.compile input output comments journal = some ((.ok count, later), after)) :
    ∃ place content qualifier lines key,
      tree.locate input = .ok place ∧ tree.get? place = some (.file content) ∧
      input.qualifier = .ok qualifier ∧
      Source.compile [.bytes content] qualifier comments = .ok lines ∧ count = lines.size ∧
      tree.writeKey output = .ok key ∧
      (tree.get? key ≠ some .full →
        after.get? key =
            some (.file (lines.toList.flatMap fun line => Text.encode line ++ [lineFeed])) ∧
          after.locate output = .ok key) ∧
      (tree.get? key = some .full → lines = #[] ∧ after = tree) ∧
      (∀ other, other ≠ key → after.get? other = tree.get? other) ∧
      (∀ other, after.get? other = some .directory ↔ tree.get? other = some .directory) ∧
      (place ≠ key →
        after.locate input = .ok place ∧ after.get? place = some (.file content) ∧
          after.compile input output comments journal = some ((.ok count, later), after) ∧
          ∀ fresh : σ, ∃ told,
            after.compile input output comments fresh = some ((.ok count, told), after)) := by
  obtain ⟨place, source, qualifier, lines, found, gives, named, passed, wrote, counted⟩ :=
    compilation_eq_ok_iff.mp succeeded
  have compiled := compile_of_compileInto passed
  obtain ⟨content, stands, rfl⟩ := file_of_contents found gives compiled
  obtain ⟨key, reached, outcome⟩ := FileTree.write_eq_ok_iff.mp wrote
  have free := FileTree.free_of_writeKey reached
  have grows := FileTree.grows_of_write wrote
  refine ⟨place, content, qualifier, lines, key, found, stands, named, compiled, counted, reached,
    ?_, ?_, fun other => FileTree.get?_of_write wrote reached,
    fun other => ⟨FileTree.directory_of_write wrote, grows.directory other⟩, ?_⟩
  · intro room
    obtain ⟨full, -⟩ | ⟨-, rfl⟩ := outcome
    · exact absurd full room
    · have written := FileTree.get?_put free (.file (fileContent lines)) key
      rw [if_pos rfl] at written
      refine ⟨written, FileTree.locate_of_writeKey ?_ (by simp [written])⟩
      exact FileTree.writeKey_of_grows grows reached (by simp [written])
  · intro full
    obtain ⟨-, empty, same⟩ | ⟨room, -⟩ := outcome
    · exact ⟨fileContent_eq_nil_iff.mp empty, same⟩
    · exact absurd full room
  · intro apart
    have again := FileTree.locate_of_grows grows found
    have still := (FileTree.get?_of_write wrote reached apart).trans stands
    have reads : after.contents place = some [.bytes content] := by rw [FileTree.contents, still]
    have rewritten := FileTree.write_again wrote
    refine ⟨again, still, compilation_eq_ok_iff.mpr ⟨place, _, qualifier, lines, again, reads,
      named, passed, rewritten, counted⟩, fun fresh => ?_⟩
    obtain ⟨told, repeated⟩ := exists_compileInto compiled fresh
    exact ⟨told, compilation_eq_ok_iff.mpr ⟨place, _, qualifier, lines, again, reads, named,
      repeated, rewritten, counted⟩⟩

/-- A longer output is cut to the lines of the source, and compiling again changes nothing. The
output is named from the root, and the source from the current directory. -/
theorem longer_output_is_replaced :
    let source : Entry := .file (Text.encode "neg\n")
    let tree : FileTree := ⟨[([Text.encode "d", Text.encode "a.vm"], source),
      ([Text.encode "b"], .file (Text.encode "@SP\nA=M-1\nM=!M\n\nold lines\n"))],
      [Text.encode "d"]⟩
    ∃ records after,
      tree.compile (.ofString "a.vm") (.ofString "/b") false (#[] : Array Record) =
        some ((.ok 4, records), after) ∧
      after.get? [Text.encode "b"] = some (.file (Text.encode "@SP\nA=M-1\nM=-M\n\n")) ∧
      after.get? [Text.encode "d", Text.encode "a.vm"] = some source ∧
      after.compile (.ofString "a.vm") (.ofString "/b") false (#[] : Array Record) =
        some ((.ok 4, records), after) := by
  intro source tree
  have found : tree.locate (.ofString "a.vm") = .ok [Text.encode "d", Text.encode "a.vm"] := by
    decide +kernel
  have gives : tree.contents [Text.encode "d", Text.encode "a.vm"] =
      some [.bytes (Text.encode "neg\n")] := by decide +kernel
  have named : (Path.ofString "a.vm").qualifier = .ok "a" := by decide +kernel
  have compiled : Source.compile [.bytes (Text.encode "neg\n")] "a" false =
      .ok #["@SP", "A=M-1", "M=-M", ""] := by decide +kernel
  have wrote : tree.write (.ofString "/b") (fileContent #["@SP", "A=M-1", "M=-M", ""]) =
      .ok (tree.put [Text.encode "b"] (.file (Text.encode "@SP\nA=M-1\nM=-M\n\n"))) := by
    decide +kernel
  obtain ⟨records, passed⟩ := exists_compileInto compiled (#[] : Array Record)
  have succeeded : tree.compile (.ofString "a.vm") (.ofString "/b") false (#[] : Array Record) =
      some ((.ok 4, records), _) :=
    compilation_eq_ok_iff.mpr ⟨_, _, "a", _, found, gives, named, passed, wrote, rfl⟩
  obtain ⟨place, content, qualifier, lines, key, input, stands, -, -, -, output, -, -, -, -,
    again⟩ := successful_compilation_writes_lines succeeded
  have reached : tree.writeKey (.ofString "/b") = .ok [Text.encode "b"] := by decide +kernel
  rw [found] at input
  rw [reached] at output
  obtain rfl := Except.ok.inj input
  obtain rfl := Except.ok.inj output
  obtain ⟨-, kept, same, -⟩ := again (by decide +kernel)
  have held : some (Entry.file content) = some source := stands.symm.trans (by decide +kernel)
  exact ⟨records, _, succeeded, by decide +kernel, kept.trans held, same⟩

end HackVm
