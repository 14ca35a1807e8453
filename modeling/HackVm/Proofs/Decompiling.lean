import HackVm.Proofs.Labels
import HackVm.Proofs.Spelling

/-!
# Reading commands back from a listing

No two commands have the same block, and empty lines keep the blocks of a listing apart, so the
commands can be read back from the lines alone, without comments. `Command.ofBlock?` reads one
block: the number of its lines and a few of the lines tell the operator, or the place that is pushed
or popped, and a place tells its segment and index. `decompile_listing` reads back a whole listing.
The qualifier is read back with the static variables, if there are any.
-/
namespace HackVm

namespace Assembly

/-- The segment that a pointer cell holds the base of. -/
def Pointer.segment? : Pointer → Option Segment
  | stack => none
  | locals => some .locals
  | arguments => some .arguments
  | this => some .this
  | that => some .that

/-- The segment and the index of a place. -/
def Place.access? : Place → Option (Segment × Nat)
  | literal value => some (.constant, value)
  | based base offset => base.segment?.map (·, offset)
  | direct (.register cell) => some (.temp, cell - tempBase)
  | direct (.pointer .this) => some (.pointer, 0)
  | direct (.pointer .that) => some (.pointer, 1)
  | direct (.static _ index) => some (.statics, index)
  | direct _ => none

/-- The place of an index tells its segment and the index. -/
theorem access?_of_placed {qualifier : String} {segment : Segment} {index : Nat} {found : Place}
    (placed : Placed qualifier segment index found) : found.access? = some (segment, index) := by
  cases placed with
  | temp inside => rw [Place.access?, Nat.add_sub_cancel_left]
  | constant | locals | arguments | this | that | pointerThis | pointerThat | statics => rfl

/-- The operator that replaces the top of the stack by a value. -/
def Value.unary? : Value → Option Operator
  | notM => some .not
  | negM => some .neg
  | _ => none

/-- The operator that replaces the two top values of the stack by a value. -/
def Value.binary? : Value → Option Operator
  | dPlusM => some .add
  | mMinusD => some .sub
  | dAndM => some .and
  | dOrM => some .or
  | _ => none

/-- The operator that tests a condition. -/
def Condition.comparison? : Condition → Option Operator
  | zero => some .eq
  | positive => some .gt
  | negative => some .lt
  | always => none

end Assembly

open Assembly

/-- The push of a place. -/
def Command.pushOf? (found : Place) : Option Command :=
  found.access?.map fun access => .push access.1 access.2

/-- The pop into a place. -/
def Command.popOf? (found : Place) : Option Command :=
  found.access?.map fun access => .pop access.1 access.2

/-- The command that has a block. -/
def Command.ofBlock? : List Line → Option Command
  | [_, _, .assign .m value] => value.unary?.map .arithmetic
  | [_, _, _, .assign .a .aMinusOne, .assign .m value] => value.binary?.map .arithmetic
  | [_, _, _, .load symbol, .assign .m .d] => popOf? (.direct symbol)
  | _ :: _ :: _ :: _ :: _ :: _ :: .jump .d condition :: _ =>
    condition.comparison?.map .arithmetic
  | .load (.number value) :: .assign .d .a :: _ => pushOf? (.literal value)
  | .load (.pointer base) :: _ :: .load (.number offset) :: .assign .a .dPlusA :: _ =>
    pushOf? (.based base offset)
  | .load (.pointer base) :: _ :: .load (.number offset) :: .assign .d .dPlusA :: _ =>
    popOf? (.based base offset)
  | .load symbol :: .assign .d .m :: _ => pushOf? (.direct symbol)
  | _ => none

/-- The block of an operator tells the operator. -/
theorem ofBlock?_operatorBlock (serial : Nat) (operator : Operator) :
    Command.ofBlock? (operatorBlock serial operator) = some (.arithmetic operator) := by
  cases operator <;> rfl

/-- The block of a push tells the place. -/
theorem ofBlock?_pushBlock (found : Place) :
    Command.ofBlock? (pushBlock found) = Command.pushOf? found := by
  cases found with
  | literal value => rfl
  | based base offset => rfl
  | direct symbol => cases symbol <;> rfl

/-- The block of a pop tells the place. -/
theorem ofBlock?_popBlock {found : Place} {body : List Line} (popped : popBlock found = .ok body) :
    Command.ofBlock? body = Command.popOf? found := by
  cases found with
  | literal value => contradiction
  | based base offset =>
    obtain rfl := Except.ok.inj popped
    rfl
  | direct symbol =>
    obtain rfl := Except.ok.inj popped
    rfl

variable {qualifier : String} {serial : Nat} {command : Command} {commands : List Command}
  {body lines : List Line}

/-- The block of a command tells the command, whatever its qualifier and the number of its
labels. -/
theorem ofBlock?_block (made : command.block qualifier serial = .ok body) :
    Command.ofBlock? body = some command := by
  cases command with
  | arithmetic operator =>
    obtain rfl := Except.ok.inj made
    exact ofBlock?_operatorBlock serial operator
  | push segment index =>
    obtain ⟨found, -, placed, rfl⟩ := block_push made
    rw [ofBlock?_pushBlock, Command.pushOf?, access?_of_placed placed, Option.map_some]
  | pop segment index =>
    obtain ⟨found, -, placed, popped⟩ := block_pop made
    rw [ofBlock?_popBlock popped, Command.popOf?, access?_of_placed placed, Option.map_some]

/-- The commands whose blocks are ended by the empty lines of a listing. -/
def decompile (lines : List Line) : Option (List Command) :=
  (lines.splitOn .blank).dropLast.mapM Command.ofBlock?

/-- The commands of a listing without comments can be read back. -/
theorem decompile_listing (listed : listing qualifier false serial commands = .ok lines) :
    decompile lines = some commands := by
  induction commands generalizing serial lines with
  | nil =>
    obtain rfl := Except.ok.inj listed
    rfl
  | cons command rest ih =>
    obtain ⟨body, later, made, others, rfl⟩ := listing_cons listed
    have framed : Emitter.frame false command.text body ++ later = body ++ .blank :: later := by
      simp [Emitter.frame]
    have pieces : (later.splitOn .blank) ≠ [] := List.splitOn_ne_nil Line.blank later
    have behind := ih others
    rw [decompile] at behind
    rw [decompile, framed, List.splitOn_append_cons_self_of_not_mem (blank_notMem_block made),
      List.dropLast_cons_of_ne_nil pieces, List.mapM_cons, ofBlock?_block made, behind]
    rfl

/-- The qualifier of a listing can be read back if a static variable is used. -/
theorem qualifier_of_statics {comments : Bool} {qualifier' : String} {serial' : Nat}
    (listed : listing qualifier comments serial commands = .ok lines)
    (listed' : listing qualifier' comments serial' commands = .ok lines)
    {index : Nat} (used : index ∈ commands.filterMap StackMachine.static?) :
    qualifier = qualifier' := by
  have same : (commands.filterMap StackMachine.static?).map (qualifier, ·) =
      (commands.filterMap StackMachine.static?).map (qualifier', ·) :=
    (statics_listing listed).symm.trans (statics_listing listed')
  exact congrArg Prod.fst (List.map_inj_left.mp same index used)

/-- Emitters that leave out comments and have emitted the same lines have emitted the same commands,
and with the same qualifier if a static variable was used. -/
theorem output_determines_commands {qualifier qualifier' : String}
    {commands commands' : List Command} {after after' : Emitter (Array String)}
    (accepted : (Emitter.new qualifier false #[]).emitAll commands = (.ok (), after))
    (accepted' : (Emitter.new qualifier' false #[]).emitAll commands' = (.ok (), after'))
    (same : after.sink = after'.sink) :
    commands = commands' ∧
      ((∃ index, .push .statics index ∈ commands ∨ .pop .statics index ∈ commands) →
        qualifier = qualifier') := by
  obtain ⟨lines, listed, collected⟩ := sink_emitAll rfl accepted
  obtain ⟨lines', listed', collected'⟩ := sink_emitAll rfl accepted'
  have texts : lines.map (·.text) = lines'.map (·.text) := by
    rw [← collected, ← collected', same]
  obtain rfl := eq_of_map_text texts
  have read : some commands = some commands' :=
    (decompile_listing listed).symm.trans (decompile_listing listed')
  obtain rfl := Option.some.inj read
  refine ⟨rfl, ?_⟩
  rintro ⟨index, pushed | popped⟩
  · exact qualifier_of_statics listed listed' (List.mem_filterMap.mpr ⟨_, pushed, rfl⟩)
  · exact qualifier_of_statics listed listed' (List.mem_filterMap.mpr ⟨_, popped, rfl⟩)

/-- A qualifier that looks like a static variable is read back from a static variable. -/
theorem output_determines_dotted_qualifier :
    let commands : List Command := [.push .statics 2, .push .temp 0, .arithmetic .eq, .pop .that 7]
    let first := (Emitter.new "R5.1" false (#[] : Array String)).emitAll commands
    let second := (Emitter.new ("R5" ++ ".1") false (#[] : Array String)).emitAll commands
    first.2.sink = second.2.sink ∧ "R5.1" = "R5" ++ ".1" := by
  intro commands first second
  have accepted : first = (.ok (), first.2) := rfl
  have accepted' : second = (.ok (), second.2) := rfl
  have same : first.2.sink = second.2.sink := by decide
  have told := output_determines_commands accepted accepted' same
  exact ⟨same, told.2 ⟨2, .inl List.mem_cons_self⟩⟩

end HackVm
