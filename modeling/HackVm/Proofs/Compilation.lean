import HackVm.Proofs.FileTree.Writing
import HackVm.Proofs.OnePass

/-!
# Compiling a file is all or nothing

A compilation touches the file tree only when the whole source is compiled, and then only the entry
its output names. When writing fails the output is removed, whatever the reason was; so it matters
that nothing can be removed by a path at which nothing could be opened for writing.
`remove_eq_ok` says this: a path that removes an entry would have opened that entry. The one
entry that is ever lost is a full device that was opened and refused a byte. A full device is also
the one input whose compilation never returns. `Goes` lists the ways a compilation can go, and what
holds of all compilations that fail, succeed or never return is read off it.
-/
namespace HackVm

namespace FileTree

variable {tree after : FileTree} {path : Path} {content : List UInt8} {fault : AccessFault}

/-- A path that removes an entry can be opened for writing at that entry. -/
theorem remove_eq_ok (removed : tree.remove path = .ok after) :
    ∃ key, tree.writeKey path = .ok key ∧ after = tree.erase key := by
  rw [remove] at removed
  cases reached : tree.approach path with
  | error fault => simp [reached, bind, Except.bind] at removed
  | ok approach =>
    cases approach with
    | root => simp [reached, bind, Except.bind, throw, throwThe, MonadExceptOf.throw] at removed
    | name directory last slashed =>
      simp only [reached, bind, Except.bind, throw, throwThe, MonadExceptOf.throw, pure,
        Except.pure] at removed
      split at removed
      · contradiction
      · rename_i proper
        rw [not_or] at proper
        cases stepped : tree.step directory last with
        | error fault => simp [stepped] at removed
        | ok place =>
          obtain ⟨-, way⟩ := step_eq_ok_iff.mp stepped
          cases way with
          | here => exact absurd rfl proper.1
          | above => exact absurd rfl proper.2
          | down _ short _ =>
            simp only [stepped] at removed
            split at removed
            · contradiction
            · rename_i free
              split at removed
              · contradiction
              · rename_i unslashed
                obtain rfl : slashed = false := by simpa using unslashed
                exact ⟨directory ++ [last], writeKey_eq_ok_iff.mpr ⟨directory, last, reached,
                  proper, short, free, rfl⟩, (Except.ok.inj removed).symm⟩

/-- A write fails when nothing can be opened, or when a full device was opened and there is a byte
to write. -/
theorem write_eq_error (refused : tree.write path content = .error fault) :
    tree.writeKey path = .error fault ∨
      ∃ key, tree.writeKey path = .ok key ∧ tree.get? key = some .full ∧ content ≠ [] ∧
        fault = .deviceFull := by
  rw [write] at refused
  cases opened : tree.writeKey path with
  | error reason =>
    simp only [opened, bind, Except.bind] at refused
    exact .inl (by rw [Except.error.inj refused])
  | ok key =>
    simp only [opened, bind, Except.bind] at refused
    exact .inr ⟨key, rfl, fill_eq_error_iff.mp refused⟩

/-- A full device that can be opened for writing is opened as it is. -/
theorem create_of_full {key : Key} (opened : tree.writeKey path = .ok key)
    (full : tree.get? key = some .full) : tree.create path = .ok (key, tree) := by
  simp [create, opened, full, bind, Except.bind, pure, Except.pure]

end FileTree

/-- An action on files leaves the journal alone. -/
theorem lift_run {σ α : Type} (action : StateT FileTree Option α) (journal : σ)
    (tree : FileTree) :
    (liftM action : StateT σ (StateT FileTree Option) α) journal tree =
      (action tree).map fun (answer, after) => ((answer, journal), after) := by
  change (action tree).bind _ = _
  cases action tree <;> rfl

variable {σ : Type} [Journal σ]

/-- Store lines at an output: all of them, or none and the output is removed. -/
def FileTree.store (tree : FileTree) (output : Path) (lines : Array String) (journal : σ) :
    (Except Failure Nat × σ) × FileTree :=
  match tree.write output (fileContent lines) with
  | .ok after => ((.ok lines.size, journal), after)
  | .error fault =>
    match tree.remove output with
    | .ok after =>
      ((.error (.output output fault),
        Journal.log journal .warn ("removed partial output " ++ output.display)), after)
    | .error _ => ((.error (.output output fault), journal), tree)

/-- Compile a file on a file tree: what it came to, the journal and the tree afterwards, if it
returns. -/
def FileTree.compile (tree : FileTree) (input output : Path) (comments : Bool) (journal : σ) :
    Option ((Except Failure Nat × σ) × FileTree) :=
  ((compileFile Disk.tree input output comments).run journal).run tree

/-- Writing an output piece by piece stores its lines. -/
theorem writeOutput_eq (tree : FileTree) (output : Path) (lines : Array String) (journal : σ) :
    ((writeOutput Disk.tree output lines).run journal).run tree =
      some (tree.store output lines journal) := by
  simp only [writeOutput, StateT.run, bind, StateT.bind, lift_run, writeLines_eq, FileTree.store]
  cases tree.write output (fileContent lines) with
  | ok after => rfl
  | error fault =>
    simp only [Option.map_some, Option.bind_some]
    simp only [StateT.bind, bind, lift_run, Disk.tree, Disk.change]
    cases tree.remove output <;> rfl

/-- Nothing is written before the whole source is compiled. -/
theorem compile_eq (tree : FileTree) (input output : Path) (comments : Bool) (journal : σ) :
    tree.compile input output comments journal =
      match tree.locate input with
      | .error _ => some ((.error (.inputNotFound input), journal), tree)
      | .ok place =>
        match input.qualifier with
        | .error failure => some ((.error failure, journal), tree)
        | .ok qualifier =>
          match tree.contents place with
          | none => none
          | some source =>
            match source.compileInto qualifier comments journal with
            | (.error failure, journal) => some ((.error failure, journal), tree)
            | (.ok lines, journal) => some (tree.store output lines journal) := by
  simp only [FileTree.compile, compileFile, StateT.run, bind, StateT.bind, lift_run]
  have located : Disk.tree.locate input tree = some (tree.locate input, tree) := rfl
  simp only [located, Option.map_some, Option.bind_some]
  cases tree.locate input with
  | error fault => rfl
  | ok place =>
    cases input.qualifier with
    | error failure => rfl
    | ok qualifier =>
      simp only [StateT.bind, bind, lift_run]
      have read : Disk.tree.contents place tree = (tree.contents place).map (·, tree) := rfl
      rw [read]
      cases tree.contents place with
      | none => rfl
      | some source =>
        simp only [Option.map_some, Option.bind_some, modifyGet, MonadStateOf.modifyGet,
          StateT.modifyGet]
        cases source.compileInto qualifier comments journal with
        | mk result journal =>
          cases result with
          | error failure => rfl
          | ok lines => exact writeOutput_eq tree output lines journal

/-- Whether a failure is one of writing the output. -/
def Failure.isOutput : Failure → Bool
  | output _ _ => true
  | inputNotFound _ | noQualifier _ | source _ | emission _ _ => false

/-- A source fails at one of its lines, not at its output. -/
theorem isOutput_of_compile {source : Source} {qualifier : String} {comments : Bool}
    {failure : Failure} (failed : source.compile qualifier comments = .error failure) :
    failure.isOutput = false := by
  obtain ⟨item, line, -, told⟩ := exists_item_of_compile failed
  rw [Item.failure?] at told
  split at told
  · obtain rfl := Option.some.inj told
    rfl
  · obtain ⟨refusal, -, rfl⟩ := Option.map_eq_some_iff.mp told
    rfl

/-- What an open file gives has no end exactly at a full device. -/
theorem FileTree.contents_eq_none_iff {tree : FileTree} {place : Key} :
    tree.contents place = none ↔ tree.get? place = some .full := by
  rw [contents]
  cases tree.get? place with
  | none => simp
  | some entry => cases entry <;> simp

variable {tree after : FileTree} {input output : Path} {comments : Bool} {journal later : σ}
  {lines : Array String} {failure : Failure}

/-- The ways a compilation can go. -/
inductive Goes (tree : FileTree) (input output : Path) (comments : Bool) (journal : σ) :
    Option ((Except Failure Nat × σ) × FileTree) → Prop where
  /-- It fails before its output and leaves the tree alone. -/
  | fails {failure : Failure} {later : σ} (early : failure.isOutput = false) :
    Goes tree input output comments journal (some ((.error failure, later), tree))
  /-- It reads a full device and never returns. -/
  | endless {place : Key} {qualifier : String} (found : tree.locate input = .ok place)
    (named : input.qualifier = .ok qualifier) (full : tree.get? place = some .full) :
    Goes tree input output comments journal none
  /-- It has compiled the whole source and stores the lines. -/
  | stores {place : Key} {source : Source} {qualifier : String} {lines : Array String} {later : σ}
    (found : tree.locate input = .ok place) (named : input.qualifier = .ok qualifier)
    (gives : tree.contents place = some source)
    (passed : source.compileInto qualifier comments journal = (.ok lines, later)) :
    Goes tree input output comments journal (some (tree.store output lines later))

/-- A compilation goes one of these ways. -/
theorem goes_compile (tree : FileTree) (input output : Path) (comments : Bool) (journal : σ) :
    Goes tree input output comments journal (tree.compile input output comments journal) := by
  rw [compile_eq]
  cases found : tree.locate input with
  | error fault => exact .fails rfl
  | ok place =>
    cases named : input.qualifier with
    | error failure =>
      refine .fails ?_
      rw [Path.qualifier] at named
      split at named
      · contradiction
      · obtain rfl := Except.error.inj named
        rfl
    | ok qualifier =>
      dsimp only
      cases gives : tree.contents place with
      | none => exact .endless found named (FileTree.contents_eq_none_iff.mp gives)
      | some source =>
        dsimp only
        cases passed : source.compileInto qualifier comments journal with
        | mk result later =>
          cases result with
          | error failure => exact .fails (isOutput_of_compile (compile_of_compileInto passed))
          | ok lines => exact .stores found named gives passed

/-- A compilation never returns exactly when it reads a full device. -/
theorem compile_eq_none_iff :
    tree.compile input output comments journal = none ↔
      ∃ place qualifier, tree.locate input = .ok place ∧ tree.get? place = some .full ∧
        input.qualifier = .ok qualifier := by
  constructor
  · intro endless
    have goes := goes_compile tree input output comments journal
    generalize tree.compile input output comments journal = outcome at goes endless
    cases goes with
    | fails | stores => contradiction
    | endless found named full => exact ⟨_, _, found, full, named⟩
  · rintro ⟨place, qualifier, found, full, named⟩
    simp [compile_eq, found, named, FileTree.contents_eq_none_iff.mpr full]

/-- Storing lines fails only where they could not be written. Then the tree is the same, or a full
device was opened, refused a byte and is gone. -/
theorem store_eq_error (failed : (tree.store output lines journal).1.1 = .error failure) :
    ∃ fault, failure = .output output fault ∧
      tree.write output (fileContent lines) = .error fault ∧
      ((tree.store output lines journal).2 = tree ∨
        ∃ key, tree.writeKey output = .ok key ∧ tree.get? key = some .full ∧
          fileContent lines ≠ [] ∧ fault = .deviceFull ∧
          (tree.store output lines journal).2 = tree.erase key) := by
  rw [FileTree.store] at failed ⊢
  cases wrote : tree.write output (fileContent lines) with
  | ok next => simp [wrote] at failed
  | error fault =>
    refine ⟨fault, ?_⟩
    cases removed : tree.remove output with
    | error reason =>
      simp only [wrote, removed, Except.error.injEq] at failed
      exact ⟨failed.symm, rfl, .inl rfl⟩
    | ok next =>
      simp only [wrote, removed, Except.error.injEq] at failed
      refine ⟨failed.symm, rfl, .inr ?_⟩
      obtain ⟨key, opened, erased⟩ := FileTree.remove_eq_ok removed
      rcases FileTree.write_eq_error wrote with refused | ⟨other, also, full, nonempty, reason⟩
      · rw [opened] at refused
        contradiction
      · rw [opened] at also
        obtain rfl := Except.ok.inj also
        exact ⟨key, opened, full, nonempty, reason, erased⟩

/-- A compilation fails before its output and leaves the tree alone, or it has compiled the source
and fails to store the lines. -/
theorem compile_eq_error
    (failed : tree.compile input output comments journal = some ((.error failure, later), after)) :
    (failure.isOutput = false ∧ after = tree) ∨
      ∃ place source qualifier lines logged, tree.locate input = .ok place ∧
        tree.contents place = some source ∧ input.qualifier = .ok qualifier ∧
        source.compile qualifier comments = .ok lines ∧
        tree.store output lines logged = ((.error failure, later), after) := by
  have goes := goes_compile tree input output comments journal
  generalize tree.compile input output comments journal = outcome at goes failed
  cases goes with
  | fails early =>
    obtain ⟨⟨rfl, -⟩, rfl⟩ : (_ ∧ _) ∧ _ := by
      simpa only [Option.some.injEq, Prod.mk.injEq, Except.error.injEq] using failed
    exact .inl ⟨early, rfl⟩
  | endless => contradiction
  | stores found named gives passed =>
    exact .inr ⟨_, _, _, _, _, found, gives, named, compile_of_compileInto passed,
      Option.some.inj failed⟩

/-- A compilation returns unless its input names a full device. One that fails leaves every file and
every directory as it was and makes no entry. If it failed before its output the tree is the same.
If it failed at its output the tree is the same, unless the output names a full device: that entry
was opened and refused a byte of the lines of the source, and is gone. Where nothing can be opened
for writing nothing is removed. -/
theorem failed_compilation_keeps_files (tree : FileTree) (input output : Path) (comments : Bool)
    (journal : σ) :
    (tree.compile input output comments journal = none →
      ∃ place, tree.locate input = .ok place ∧ tree.get? place = some .full) ∧
    ∀ failure later after,
      tree.compile input output comments journal = some ((.error failure, later), after) →
      ((∀ path fault, failure ≠ .output path fault) → after = tree) ∧
      (∀ path fault, failure = .output path fault →
        path = output ∧
        (∀ key entry, tree.get? key = some entry → entry ≠ .full → after.get? key = some entry) ∧
        (∀ key entry, after.get? key = some entry → tree.get? key = some entry) ∧
        (after = tree ∨
          ∃ key place source qualifier lines, tree.create output = .ok (key, tree) ∧
            tree.get? key = some .full ∧ tree.locate input = .ok place ∧
            tree.contents place = some source ∧ input.qualifier = .ok qualifier ∧
            source.compile qualifier comments = .ok lines ∧
            writeLines Disk.tree output lines tree = some (.error fault, tree) ∧
            fault = .deviceFull ∧ fileContent lines ≠ [] ∧
            ∀ other, after.get? other = if other = key then none else tree.get? other)) ∧
      ∀ fault, tree.create output = .error fault → after = tree := by
  constructor
  · intro endless
    obtain ⟨place, -, found, full, -⟩ := compile_eq_none_iff.mp endless
    exact ⟨place, found, full⟩
  intro failure later after failed
  obtain ⟨early, rfl⟩ | ⟨place, source, qualifier, lines, logged, found, gives, named, compiled,
    stored⟩ := compile_eq_error failed
  · refine ⟨fun _ => rfl, ?_, fun _ _ => rfl⟩
    rintro path fault rfl
    contradiction
  · obtain ⟨fault, rfl, refused, same | ⟨key, reached, full, nonempty, reason, erased⟩⟩ :=
      store_eq_error (congrArg (fun ran => ran.1.1) stored)
    · rw [stored] at same
      obtain rfl : after = tree := same
      refine ⟨fun other => absurd rfl (other output fault), ?_, fun _ _ => rfl⟩
      rintro path reason alike
      obtain ⟨rfl, rfl⟩ := Failure.output.inj alike
      exact ⟨rfl, fun _ _ found _ => found, fun _ _ found => found, .inl rfl⟩
    · have free := FileTree.free_of_writeKey reached
      have gone := FileTree.get?_erase free
      have opened := FileTree.create_of_full reached full
      rw [stored] at erased
      obtain rfl : after = tree.erase key := erased
      refine ⟨fun other => absurd rfl (other output fault), ?_, ?_⟩
      · rintro path reason alike
        obtain ⟨rfl, rfl⟩ := Failure.output.inj alike
        have stopped : writeLines Disk.tree output lines tree = some (.error fault, tree) := by
          rw [writeLines_eq, refused]
        refine ⟨rfl, ?_, ?_, .inr ⟨key, place, source, qualifier, lines, opened, full, found, gives,
          named, compiled, stopped, reason, nonempty, gone⟩⟩
        · intro other entry stands kept
          have apart : other ≠ key := by
            rintro rfl
            rw [full] at stands
            exact kept (Option.some.inj stands).symm
          rw [gone, if_neg apart, stands]
        · intro other entry stands
          rw [gone] at stands
          split at stands
          · contradiction
          · exact stands
      · intro reason unopened
        rw [opened] at unopened
        contradiction

/-- A full device that refuses the lines of a source is removed, and the source stays. Both stand
outside the current directory, so one path begins at the root and one goes up to it. -/
theorem full_output_is_removed :
    let source : Entry := .file (Text.encode "neg\n")
    let tree : FileTree := ⟨[([Text.encode "a.vm"], source), ([Text.encode "b"], .full)],
      [Text.encode "d"]⟩
    ∃ records after,
      tree.compile (.ofString "/a.vm") (.ofString "../b") false (#[] : Array Record) =
        some ((.error (.output (.ofString "../b") .deviceFull), records), after) ∧
      after.get? [Text.encode "a.vm"] = some source ∧ after.get? [Text.encode "b"] = none := by
  intro source tree
  have found : tree.locate (.ofString "/a.vm") = .ok [Text.encode "a.vm"] := by decide +kernel
  have gives : tree.contents [Text.encode "a.vm"] = some [.bytes (Text.encode "neg\n")] := by
    decide +kernel
  have named : (Path.ofString "/a.vm").qualifier = .ok "a" := by decide +kernel
  have compiled : Source.compile [.bytes (Text.encode "neg\n")] "a" false =
      .ok #["@SP", "A=M-1", "M=-M", ""] := by decide +kernel
  have refused : tree.write (.ofString "../b") (fileContent #["@SP", "A=M-1", "M=-M", ""]) =
      .error .deviceFull := by decide +kernel
  have removed : tree.remove (.ofString "../b") = .ok (tree.erase [Text.encode "b"]) := by
    decide +kernel
  obtain ⟨records, passed⟩ := exists_compileInto compiled (#[] : Array Record)
  have ran := compile_eq tree (.ofString "/a.vm") (.ofString "../b") false (#[] : Array Record)
  simp only [found, named, gives, passed, FileTree.store, refused, removed] at ran
  obtain ⟨-, kept⟩ := failed_compilation_keeps_files tree (.ofString "/a.vm") (.ofString "../b")
    false (#[] : Array Record)
  have files := ((kept _ _ _ ran).2.1 _ _ rfl).2.1
  exact ⟨_, _, ran, files _ _ (by decide +kernel) (by decide), by decide +kernel⟩

end HackVm
