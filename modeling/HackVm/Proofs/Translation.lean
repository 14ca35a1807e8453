import HackVm.Proofs.Execution
import HackVm.Proofs.Symbols

/-!
# Translation preserves meaning

The text that an emitter writes for a sequence of commands, assembled and run on the machine, does
to memory what the commands do on the stack machine. `reaches_listing` carries a run along the
commands: it holds the part of the listing already run, whose labels have smaller numbers than all
that follow, so every jump lands in the block it stands in. `Computes` says what a program of text
does from every memory and all registers.
-/
namespace HackVm

open Assembly

/-- The instructions of a framed block are those of the block. -/
theorem flatMap_code_frame (address : Symbol → Nat) (comments : Bool) (remark : String)
    (body : List Line) :
    (Emitter.frame comments remark body).flatMap (Line.code address) =
      body.flatMap (Line.code address) := by
  cases comments <;> simp [Emitter.frame]

/-- A framed block is as long as the block. -/
theorem size_frame (comments : Bool) (remark : String) (body : List Line) :
    size (Emitter.frame comments remark body) = size body := by
  cases comments <;> simp [Emitter.frame, size_append, Line.size]

/-- The labels of a comparison lie ten and eleven instructions behind its beginning. -/
theorem labelAddress_compareBlock {front : List Line} {serial : Nat}
    (fresh : ∀ branch, Line.label serial branch ∉ front) (condition : Condition)
    (back : List Line) :
    labelAddress serial .holds (front ++ (compareBlock serial condition ++ back)) =
        size front + 10 ∧
      labelAddress serial .fails (front ++ (compareBlock serial condition ++ back)) =
        size front + 11 := by
  let before := compareOpening serial ++ [.jump .d condition] ++ compareFailing serial ++
    [.jump .zero .always]
  constructor
  · have free : Line.label serial .holds ∉ front ++ before := by
      rw [List.mem_append, not_or]
      exact ⟨fresh .holds, by simp [before, compareOpening, compareFailing, popData]⟩
    have parts : front ++ (compareBlock serial condition ++ back) =
        (front ++ before) ++ .label serial .holds ::
          ([.assign .d .minusOne, .label serial .fails] ++ compareClosing ++ back) := by
      rw [List.append_assoc]
      rfl
    rw [parts, labelAddress_append free, size_append]
    rfl
  · have free : Line.label serial .fails ∉ front ++ (before ++ compareHolding serial) := by
      rw [List.mem_append, not_or]
      exact ⟨fresh .fails,
        by simp [before, compareOpening, compareFailing, compareHolding, popData]⟩
    have parts : front ++ (compareBlock serial condition ++ back) =
        (front ++ (before ++ compareHolding serial)) ++ .label serial .fails ::
          (compareClosing ++ back) := by
      rw [List.append_assoc]
      rfl
    rw [parts, labelAddress_append free, size_append]
    rfl

variable {qualifier : String} {comments : Bool} {serial : Nat} {commands : List Command}

/-- The labels of a comparison in the middle of a listing lie inside its block. -/
theorem addressIn_label {command : Command} {front body later : List Line}
    (made : command.block qualifier serial = .ok body) (compares : command.labels = 1)
    (fresh : ∀ branch, Line.label serial branch ∉ front) :
    let whole := front ++ (Emitter.frame comments command.text body ++ later)
    addressIn whole (.label serial .holds) = size front + 10 ∧
      addressIn whole (.label serial .fails) = size front + 11 := by
  cases command with
  | push segment index => contradiction
  | pop segment index => contradiction
  | arithmetic operator =>
    obtain rfl := Except.ok.inj made
    have comparison : operator.isComparison = true := by
      by_contra plain
      rw [Command.labels, if_neg plain] at compares
      contradiction
    obtain ⟨condition, block, -⟩ := condition_of_comparison comparison serial
    let opening : List Line :=
      if comments then [.comment (Command.arithmetic operator).text] else []
    have free : ∀ branch, Line.label serial branch ∉ front ++ opening := by
      intro branch listed
      rcases List.mem_append.mp listed with before | remark
      · exact fresh branch before
      · cases comments <;> simp [opening] at remark
    have same : size (front ++ opening) = size front := by
      rw [size_append]
      cases comments <;> rfl
    have parts : front ++ (Emitter.frame comments (Command.arithmetic operator).text
          (operatorBlock serial operator) ++ later) =
        (front ++ opening) ++ (compareBlock serial condition ++ (.blank :: later)) := by
      rw [block]
      simp [Emitter.frame, opening]
    intro whole
    have found := labelAddress_compareBlock free condition (.blank :: later)
    rw [← parts, same] at found
    exact found

/-- A run through the rest of a listing does to memory what the rest of the commands do. -/
theorem reaches_listing {whole front lines : List Line} {machine : Machine}
    (listed : listing qualifier comments serial commands = .ok lines)
    (parts : whole = front ++ lines)
    (earlier : ∀ number branch, Line.label number branch ∈ front → number < serial)
    (here : machine.counter = size front) (small : size whole < 65536) :
    ∃ finish, Machine.Reaches (whole.flatMap (Line.code (addressIn whole))) machine finish ∧
      finish.counter = size whole ∧
      finish.memory = StackMachine.run (staticsIn whole qualifier) commands machine.memory := by
  induction commands generalizing serial front lines machine with
  | nil =>
    obtain rfl := Except.ok.inj listed
    rw [List.append_nil] at parts
    subst parts
    exact ⟨machine, Machine.Reaches.refl _ machine, here, rfl⟩
  | cons command rest ih =>
    obtain ⟨body, later, made, others, rfl⟩ := listing_cons listed
    have code (address : Symbol → Nat) : whole.flatMap (Line.code address) =
        front.flatMap (Line.code address) ++ body.flatMap (Line.code address) ++
          later.flatMap (Line.code address) := by
      rw [parts, List.flatMap_append, List.flatMap_append, flatMap_code_frame, List.append_assoc]
    have located : Machine.Located (whole.flatMap (Line.code (addressIn whole))) machine.counter
        (body.flatMap (Line.code (addressIn whole))) := by
      refine ⟨_, _, code (addressIn whole), ?_⟩
      rw [length_flatMap_code, here]
    have total : size whole = size front + size body + size later := by
      rw [parts, size_append, size_append, size_frame, Nat.add_assoc]
    have labels : command.labels = 1 →
        addressIn whole (.label serial .holds) = machine.counter + 10 ∧
          addressIn whole (.label serial .fails) = machine.counter + 11 := by
      intro compares
      have fresh : ∀ branch, Line.label serial branch ∉ front := fun branch before =>
        Nat.lt_irrefl serial (earlier serial branch before)
      rw [parts, here]
      exact addressIn_label made compares fresh
    have fits : machine.counter + size body < 65536 := by omega
    obtain ⟨middle, first, counter, memory⟩ := reaches_block made located labels fits
    -- What has been run is now longer by the block of the command.
    have longer : whole = front ++ Emitter.frame comments command.text body ++ later := by
      rw [parts, List.append_assoc]
    have there : middle.counter = size (front ++ Emitter.frame comments command.text body) := by
      rw [counter, here, size_append, size_frame]
    have numbered : ∀ number branch,
        Line.label number branch ∈ front ++ Emitter.frame comments command.text body →
          number < serial + command.labels := by
      intro number branch before
      rcases List.mem_append.mp before with old | new
      · have smaller := earlier number branch old
        omega
      · have marked := mem_filterMap_label?.mpr new
        rw [filterMap_label?_frame, (symbols_block made).2.1, mem_marks,
          List.mem_range'_1] at marked
        omega
    obtain ⟨finish, second, ended, result⟩ := ih others longer numbered there
    refine ⟨finish, first.trans second, ended, ?_⟩
    rw [result, memory]
    rfl

/-- Lines of text that assemble to fewer than 32768 instructions, run from the first with any
memory and any registers, end behind the last and leave memory changed by a function. -/
def Computes (lines : List String) (change : Memory → Memory) : Prop :=
  ∃ program, Assembler.assemble lines = some program ∧
    (program.length < 32768 → ∀ memory a d, ∃ finish,
      Machine.Reaches program ⟨memory, a, d, 0⟩ finish ∧
        finish.counter = program.length ∧ finish.memory = change memory)

/-- Lines of text change memory in one way only. -/
theorem Computes.unique {lines : List String} {program : List Instruction}
    {first second : Memory → Memory} (assembled : Assembler.assemble lines = some program)
    (small : program.length < 32768) (one : Computes lines first)
    (other : Computes lines second) : first = second := by
  obtain ⟨_, same, runs⟩ := one
  obtain rfl := Option.some.inj (assembled.symm.trans same)
  obtain ⟨_, again, rerun⟩ := other
  obtain rfl := Option.some.inj (assembled.symm.trans again)
  funext memory
  obtain ⟨finish, reached, ended, result⟩ := runs small memory 0 0
  obtain ⟨also, arrived, halted, outcome⟩ := rerun small memory 0 0
  have equal := reached.unique arrived (Machine.step_end ended) (Machine.step_end halted)
  rw [← result, equal, outcome]

/-- The text of accepted commands assembles to the instructions of their listing. -/
theorem assemble_emitAll {emitter after : Emitter (Array String)} (empty : emitter.sink = #[])
    (accepted : emitter.emitAll commands = (.ok (), after)) :
    ∃ lines,
      listing emitter.qualifier emitter.comments emitter.labelCount commands = .ok lines ∧
      Assembler.assemble after.sink.toList =
        some (lines.flatMap (Line.code (addressIn lines))) := by
  obtain ⟨lines, listed, text⟩ := sink_emitAll empty accepted
  have assembled := Assembler.assemble_listing (wellFormed_listing listed)
  exact ⟨lines, listed, by rw [text, assembled]⟩

/-- The text of accepted commands does to memory what the commands do on the stack machine,
whatever number their labels start from. -/
theorem computes_emitAll {emitter after : Emitter (Array String)} (empty : emitter.sink = #[])
    (accepted : emitter.emitAll commands = (.ok (), after)) :
    Computes after.sink.toList
      (StackMachine.run (StackMachine.staticCell commands) commands) := by
  obtain ⟨lines, listed, assembled⟩ := assemble_emitAll empty accepted
  refine ⟨_, assembled, ?_⟩
  intro small memory a d
  rw [length_flatMap_code] at small
  have parts : lines = [] ++ lines := rfl
  have earlier : ∀ number branch, Line.label number branch ∈ ([] : List Line) →
      number < emitter.labelCount := by
    simp
  have start : (Machine.mk memory a d 0).counter = size [] := rfl
  have fits : size lines < 65536 := by omega
  obtain ⟨finish, reached, ended, result⟩ := reaches_listing listed parts earlier start fits
  have cells : staticsIn lines emitter.qualifier = StackMachine.staticCell commands :=
    funext (addressIn_static listed)
  exact ⟨finish, reached, by rw [ended, length_flatMap_code], by rw [result, cells]⟩

/-- The text of accepted commands does to every cell what the commands do on the stack machine,
and where the stack pointer stays clear of the first cells the order in which a command takes its
operands and moves the stack pointer makes no difference. -/
theorem translation_preserves_meaning {emitter : Emitter (Array String)}
    (accepted : (Emitter.new qualifier comments #[]).emitAll commands = (.ok (), emitter)) :
    Computes emitter.sink.toList
        (StackMachine.run (StackMachine.staticCell commands) commands) ∧
      ∀ memory, StackMachine.Clear (StackMachine.staticCell commands) commands memory →
        StackMachine.run (StackMachine.staticCell commands) commands memory =
          StackMachine.runByName (StackMachine.staticCell commands) commands memory :=
  ⟨computes_emitAll rfl accepted, fun _ clear => StackMachine.run_eq_runByName clear⟩

/-- A constant is compared with itself and the result is popped into a static variable. -/
theorem computes_comparison_into_static :
    Computes ["@7", "D=A", "@SP", "M=M+1", "A=M-1", "M=D", "",
        "@7", "D=A", "@SP", "M=M+1", "A=M-1", "M=D", "",
        "@SP", "AM=M-1", "D=M", "A=A-1", "D=M-D", "@0T", "D;JEQ", "D=0", "@0F", "0;JMP", "(0T)",
        "D=-1", "(0F)", "@SP", "A=M-1", "M=D", "",
        "@SP", "AM=M-1", "D=M", "@Foo.3", "M=D", ""]
      (StackMachine.run
        (StackMachine.staticCell
          [.push .constant 7, .push .constant 7, .arithmetic .eq, .pop .statics 3])
        [.push .constant 7, .push .constant 7, .arithmetic .eq, .pop .statics 3]) :=
  have accepted : (Emitter.new "Foo" false (#[] : Array String)).emitAll
      [.push .constant 7, .push .constant 7, .arithmetic .eq, .pop .statics 3] =
    (.ok (), ((Emitter.new "Foo" false #[]).emitAll
      [.push .constant 7, .push .constant 7, .arithmetic .eq, .pop .statics 3]).2) := rfl
  (translation_preserves_meaning accepted).1

/-- A pop at the stack pointer's own cell takes the stack pointer after it is moved, so operands are
not in general taken first. -/
theorem operands_not_taken_first :
    ¬∀ (qualifier : String) (comments : Bool) (commands : List Command)
        (emitter : Emitter (Array String)),
      (Emitter.new qualifier comments #[]).emitAll commands = (.ok (), emitter) →
        Computes emitter.sink.toList
          (StackMachine.runByName (StackMachine.staticCell commands) commands) := by
  intro first
  have accepted : (Emitter.new "Foo" false (#[] : Array String)).emitAll [.pop .temp 0] =
      (.ok (), ((Emitter.new "Foo" false #[]).emitAll [.pop .temp 0]).2) := rfl
  have taken := first _ _ _ _ accepted
  have moved := computes_emitAll rfl accepted
  have same := Computes.unique rfl (by decide) moved taken
  have cell := congrFun (congrFun same fun cell => if cell = 0 then 1 else 0) 5
  revert cell
  decide

end HackVm
