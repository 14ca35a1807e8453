import HackVm.CommandLine.Standard
import HackVm.Proofs.Compilation
import HackVm.Proofs.Trace

/-!
# Verbosity and colour

How much of a run is shown, and in which colours, is settled by flags and by the environment; what
the run does is not. The console of a run is one journal among others, and nothing that a run does
depends on its journal: `compile_eq_replay` says that a compilation with any journal is the
compilation with an array of records, whose records are logged again. So the console has shown, of
the records that an array would hold, those that were enabled when they were logged; and the least
level that is shown is set before the first of them.
-/
namespace HackVm

section Replay

variable {σ : Type} [Journal σ]

/-- Storing lines logs the same whatever was logged before. -/
theorem store_eq_replay (tree : FileTree) (output : Path) (lines : Array String)
    (kept : Array Record) (journal : σ) :
    tree.store output lines (logAll journal kept.toList) =
      (((tree.store output lines kept).1.1,
        logAll journal (tree.store output lines kept).1.2.toList),
        (tree.store output lines kept).2) := by
  rw [FileTree.store, FileTree.store]
  cases tree.write output (fileContent lines) with
  | ok after => rfl
  | error fault =>
    cases tree.remove output with
    | error reason => rfl
    | ok after =>
      change _ = ((_, logAll journal (kept.push _).toList), after)
      rw [Array.toList_push, logAll_append]
      rfl

/-- A compilation comes to the same with every journal, and logs the same. -/
theorem compile_eq_replay (tree : FileTree) (input output : Path) (comments : Bool) (journal : σ) :
    tree.compile input output comments journal =
      (tree.compile input output comments (#[] : Array Record)).map
        fun ((result, kept), after) => ((result, logAll journal kept.toList), after) := by
  rw [compile_eq, compile_eq]
  cases tree.locate input with
  | error fault => rfl
  | ok place =>
    cases input.qualifier with
    | error failure => rfl
    | ok qualifier =>
      dsimp only
      cases tree.contents place with
      | none => rfl
      | some source =>
        simp only [compileInto_eq]
        have kept : source.records qualifier comments =
            (logAll (#[] : Array Record) (source.records qualifier comments)).toList := by
          rw [toList_logAll, List.nil_append]
        cases source.compile qualifier comments with
        | error failure => simp [← kept]
        | ok lines =>
          simp only [Option.map_some]
          conv_lhs => rw [kept, store_eq_replay]

end Replay

/-- Run the program on a file tree: how it responds, and the tree afterwards, if it returns. -/
def FileTree.run (tree : FileTree) (environment : CommandLine.Environment)
    (arguments : List CommandLine.Argument) : Option (CommandLine.Response × FileTree) :=
  (CommandLine.run environment Disk.tree arguments).run tree

namespace CommandLine

/-- How much of its records a run is asked to show. -/
inductive Verbosity where
  /-- Only warnings and errors. -/
  | quiet
  /-- All but the steps of the work. -/
  | plain
  /-- Every record. -/
  | verbose
deriving DecidableEq, Repr

/-- The least level that is shown. -/
def Verbosity.minimum : Verbosity → Level
  | quiet => .warn
  | plain => .info
  | verbose => .debug

namespace Invocation

variable (invocation : Invocation) (chain : List String → String)

/-- What is logged first. -/
def opening : Record :=
  ⟨.info, invocation.input.display ++ " -> " ++ invocation.output.display⟩

/-- What is done, as a failure is reported. -/
def context : String := "translation of " ++ invocation.input.display ++ " failed"

/-- What is logged last. -/
def closing : Except Failure Nat → Record
  | .ok count =>
    ⟨.info, "wrote " ++ count.repr ++ " lines to " ++ invocation.output.display⟩
  | .error failure => ⟨.error, chain (invocation.context :: failure.message :: failure.causes)⟩

/-- All records of a run, by what its compilation came to and logged. -/
def account (result : Except Failure Nat) (kept : Array Record) : List Record :=
  invocation.opening :: (kept.toList ++ [invocation.closing chain result])

end Invocation

/-- The exit status by what a compilation came to: two exactly when the input cannot be opened. -/
def exitCodeOf : Except Failure Nat → Nat
  | .ok _ => 0
  | .error (.inputNotFound _) => 2
  | .error _ => 1

section Run

variable (chain : List String → String) (tree : FileTree) (invocation : Invocation)

/-- Compiling as asked logs around the compilation, with any journal. -/
theorem compile_run {σ : Type} [Journal σ] (journal : σ) :
    ((invocation.compile Disk.tree).run journal).run tree =
      (tree.compile invocation.input invocation.output (!invocation.noComments)
          (logAll journal [invocation.opening])).map fun
        | ((.ok count, journal), after) =>
          ((.ok (), logAll journal [invocation.closing chain (.ok count)]), after)
        | ((.error failure, journal), after) =>
          ((.error ⟨invocation.context, failure⟩, journal), after) := by
  change (tree.compile invocation.input invocation.output (!invocation.noComments)
    (logAll journal [invocation.opening])).bind _ = _
  cases tree.compile invocation.input invocation.output (!invocation.noComments)
      (logAll journal [invocation.opening]) with
  | none => rfl
  | some ran =>
    obtain ⟨⟨result, later⟩, after⟩ := ran
    cases result <;> rfl

/-- The exit status belongs to the failure. -/
theorem exitCodeOf_error (failure : Failure) :
    exitCodeOf (.error failure) = failure.exitCode := by
  cases failure <;> rfl

/-- A run that does as asked logs its account to its console, once the level is set. -/
theorem perform_run {console ready : Console}
    (level : invocation.setLevel (m := StateT FileTree Option) console tree =
      some (((), ready), tree)) :
    ((invocation.perform chain Disk.tree).run console).run tree =
      (tree.compile invocation.input invocation.output (!invocation.noComments)
          (#[] : Array Record)).map fun ((result, kept), after) =>
        ((exitCodeOf result, logAll ready (invocation.account chain result kept)),
          after) := by
  have ran := compile_run chain tree invocation ready
  rw [compile_eq_replay] at ran
  simp only [Invocation.perform, StateT.run, bind, StateT.bind, level, Option.bind_some]
  simp only [StateT.run] at ran
  rw [ran]
  cases tree.compile invocation.input invocation.output (!invocation.noComments)
      (#[] : Array Record) with
  | none => rfl
  | some outcome =>
    obtain ⟨⟨result, kept⟩, after⟩ := outcome
    cases result with
    | ok count =>
      simp only [Option.map_some, Option.bind_some, Invocation.account, logAll_cons, logAll_append]
      rfl
    | error failure =>
      simp only [Option.map_some, Option.bind_some, Invocation.account, logAll_cons, logAll_append,
        exitCodeOf_error]
      rfl

end Run

/-- An invocation sets the level that its verbosity asks for. -/
theorem setLevel_start (input : Path) (output? : Option Path) (noComments : Bool)
    (verbosity : Verbosity) (terminal : Terminal) (tree : FileTree) :
    Invocation.setLevel (m := StateT FileTree Option)
        ⟨input, output?, noComments, verbosity = .quiet, verbosity = .verbose⟩
        (Console.start terminal) tree =
      some (((), (Console.start terminal).setLevel verbosity.minimum), tree) := by
  cases verbosity <;> rfl

/-- Whatever verbosity and terminal a run has, it ends if compiling its input to its output does,
has the exit status and the final tree of that compilation, writes nothing to the first stream, and
shows on the second the records of one sequence that have the least level or more. A terminal only
adds what sets a style before the tag of each record and what resets it behind the tag. -/
theorem verbosity_is_immaterial (tree : FileTree) (input : Path) (output? : Option Path)
    (noComments : Bool) (chain : List String → String) :
    let ran := tree.compile input (output?.getD input.output) (!noComments) (#[] : Array Record)
    let records := Invocation.account ⟨input, output?, noComments, false, false⟩ chain
    ∀ (environment : Environment) (verbosity : Verbosity) (arguments : List Argument),
      environment.chain = chain →
      environment.parser.parse arguments =
        .ok ⟨input, output?, noComments, verbosity = .quiet, verbosity = .verbose⟩ →
      tree.run environment arguments = ran.map fun ((result, kept), after) =>
        ({
          exitCode :=
            match result with
            | .ok _ => 0
            | .error (.inputNotFound _) => 2
            | .error _ => 1
          stdout := ""
          stderr := String.join (((records result kept).filter fun record =>
            verbosity.minimum.rank ≤ record.level.rank).map fun record =>
              environment.terminal.set record.level.style ++ ("[" ++ record.level.name ++ "] ") ++
                environment.terminal.reset ++ record.message ++ "\n") }, after) := by
  intro ran records environment verbosity arguments same asked
  have performed := perform_run chain tree
    ⟨input, output?, noComments, verbosity = .quiet, verbosity = .verbose⟩
    (setLevel_start input output? noComments verbosity environment.terminal tree)
  simp only [FileTree.run, run, asked, same, StateT.run, bind, StateT.bind] at performed ⊢
  rw [performed]
  change Option.bind (ran.map _) _ = _
  cases ran with
  | none => rfl
  | some outcome =>
    obtain ⟨⟨result, kept⟩, after⟩ := outcome
    simp only [Option.map_some, Option.bind_some, Console.logAll_eq]
    rfl

/-- Verbose in colour or quiet without, a run whose output takes no bytes ends with the status one,
and the output is gone. -/
theorem full_output_at_any_verbosity :
    let tree : FileTree := ⟨[([Text.encode "a.vm"], .file (Text.encode "neg\n")),
      ([Text.encode "b"], .full)], []⟩
    let after := tree.erase [Text.encode "b"]
    tree.run (standard (some "xterm") none)
        [Text.encode "-v", Text.encode "/a.vm", Text.encode "-ob"] =
      some (⟨1, "",
        "\x1b[0m[INFO] \x1b[0m/a.vm -> b\n" ++
        "\x1b[0m\x1b[36m[DEBUG] \x1b[0mline 1: `neg` -> neg\n" ++
        "\x1b[0m\x1b[1m\x1b[33m[WARN] \x1b[0mremoved partial output b\n" ++
        "\x1b[0m\x1b[1m\x1b[31m[ERROR] \x1b[0mtranslation of /a.vm failed: failed to write b: " ++
        "No space left on device (os error 28): No space left on device (os error 28)\n"⟩, after) ∧
    tree.run (standard none none)
        [Text.encode "-q", Text.encode "/a.vm", Text.encode "-ob"] =
      some (⟨1, "",
        "[WARN] removed partial output b\n" ++
        "[ERROR] translation of /a.vm failed: failed to write b: " ++
        "No space left on device (os error 28): No space left on device (os error 28)\n"⟩,
        after) := by
  intro tree after
  have ran : tree.compile (.ofString "/a.vm") (.ofString "b") true (#[] : Array Record) =
      some ((.error (.output (.ofString "b") .deviceFull),
        #[⟨.debug, "line 1: `neg` -> neg"⟩, ⟨.warn, "removed partial output b"⟩]), after) := by
    decide +kernel
  have told := verbosity_is_immaterial tree (.ofString "/a.vm") (some (.ofString "b")) false
    (": ".intercalate)
  dsimp only [Option.getD] at told
  rw [Bool.not_false, ran] at told
  constructor
  · rw [told (standard (some "xterm") none) .verbose _ rfl (by decide +kernel)]
    decide +kernel
  · rw [told (standard none none) .quiet _ rfl (by decide +kernel)]
    decide +kernel

end CommandLine

end HackVm
