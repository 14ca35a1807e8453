import HackVm.Emitter

/-!
# What an emitter emits

Every command has a block of instructions or none, whatever was emitted before: `Command.block`
gives it from the qualifier and the number that its labels get. `Emitter.emit_eq` says that
emitting a command hands exactly its framed block to the sink, or changes nothing. `listing` puts
the framed blocks of a sequence of commands one after the other, and `emitAll_eq_ok` says that an
emitter that accepts the sequence has emitted that listing.
-/
namespace HackVm

/-- The instructions of a command; if it compares, its labels get the given number. -/
def Command.block (qualifier : String) (serial : Nat) :
    Command → Except EmitError (List Assembly.Line)
  | arithmetic operator => .ok (Assembly.operatorBlock serial operator)
  | push segment index => (Assembly.place qualifier segment index).map Assembly.pushBlock
  | pop segment index => Assembly.place qualifier segment index >>= Assembly.popBlock

/-- How many label numbers a command uses up. -/
def Command.labels : Command → Nat
  | arithmetic operator => if operator.isComparison then 1 else 0
  | push _ _ | pop _ _ => 0

/-- The place of an index of a segment, with the indices each segment has. -/
inductive Assembly.Placed (qualifier : String) : Segment → Nat → Place → Prop where
  /-- A constant is its own value. -/
  | constant (index : Nat) : Placed qualifier .constant index (.literal index)
  /-- Local variables are found from their base. -/
  | locals (index : Nat) : Placed qualifier .locals index (.based .locals index)
  /-- Arguments are found from their base. -/
  | arguments (index : Nat) : Placed qualifier .arguments index (.based .arguments index)
  /-- Cells of the current object are found from their base. -/
  | this (index : Nat) : Placed qualifier .this index (.based .this index)
  /-- Cells of the current array are found from their base. -/
  | that (index : Nat) : Placed qualifier .that index (.based .that index)
  /-- The scratch cells are registers. -/
  | temp {index : Nat} (inside : index < tempSize) :
    Placed qualifier .temp index (.direct (.register (tempBase + index)))
  /-- The first pointer is the base of the current object. -/
  | pointerThis : Placed qualifier .pointer 0 (.direct (.pointer .this))
  /-- The second pointer is the base of the current array. -/
  | pointerThat : Placed qualifier .pointer 1 (.direct (.pointer .that))
  /-- Static variables are symbols of their own. -/
  | statics (index : Nat) : Placed qualifier .statics index (.direct (.static qualifier index))

/-- An index has a place exactly when it can be loaded and its segment has it. -/
theorem Assembly.place_eq_ok_iff {qualifier : String} {segment : Segment} {index : Nat}
    {found : Place} :
    place qualifier segment index = .ok found ↔
      index ≤ maxIndex ∧ Placed qualifier segment index found := by
  constructor
  · intro placed
    unfold place at placed
    split at placed
    · contradiction
    · refine ⟨by omega, ?_⟩
      cases segment with
      | constant | locals | arguments | this | that | statics =>
        obtain rfl := Except.ok.inj placed
        constructor
      | temp =>
        dsimp only at placed
        split at placed
        · obtain rfl := Except.ok.inj placed
          exact .temp (by assumption)
        · contradiction
      | pointer =>
        dsimp only at placed
        split at placed
        · obtain rfl := Except.ok.inj placed
          exact .pointerThis
        · obtain rfl := Except.ok.inj placed
          exact .pointerThat
        · contradiction
  · rintro ⟨loadable, placed⟩
    have inRange : ¬maxIndex < index := by omega
    unfold place
    rw [if_neg inRange]
    cases placed with
    | temp inside => exact if_pos inside
    | constant | locals | arguments | this | that | pointerThis | pointerThat | statics => rfl

/-- The block of a push fetches the place of its index. -/
theorem block_push {qualifier : String} {serial index : Nat} {segment : Segment}
    {body : List Assembly.Line}
    (made : (Command.push segment index).block qualifier serial = .ok body) :
    ∃ found, index ≤ maxIndex ∧ Assembly.Placed qualifier segment index found ∧
      body = Assembly.pushBlock found := by
  cases placed : Assembly.place qualifier segment index with
  | error error => simp [Command.block, placed, Except.map] at made
  | ok found =>
    simp only [Command.block, placed, Except.map, Except.ok.injEq] at made
    obtain ⟨loadable, found⟩ := Assembly.place_eq_ok_iff.mp placed
    exact ⟨_, loadable, found, made.symm⟩

/-- The block of a pop stores into the place of its index. -/
theorem block_pop {qualifier : String} {serial index : Nat} {segment : Segment}
    {body : List Assembly.Line}
    (made : (Command.pop segment index).block qualifier serial = .ok body) :
    ∃ found, index ≤ maxIndex ∧ Assembly.Placed qualifier segment index found ∧
      Assembly.popBlock found = .ok body := by
  cases placed : Assembly.place qualifier segment index with
  | error error => simp [Command.block, placed, bind, Except.bind] at made
  | ok found =>
    simp only [Command.block, placed, bind, Except.bind] at made
    obtain ⟨loadable, found⟩ := Assembly.place_eq_ok_iff.mp placed
    exact ⟨_, loadable, found, made⟩

/-- Why an index of a segment has no place; the size of an index is judged first. -/
def Segment.refusal? (index : Nat) (segment : Segment) : Option EmitError :=
  if maxIndex < index then some (.indexRange index)
  else
    match segment with
    | temp => if index < Assembly.tempSize then none else some (.tempIndex index)
    | pointer => if index < 2 then none else some (.pointerIndex index)
    | _ => none

/-- Why a command has no block, if it has none. -/
def Command.refusal? : Command → Option EmitError
  | arithmetic _ => none
  | push segment index => segment.refusal? index
  | pop segment index =>
    match segment.refusal? index with
    | some error => some error
    | none => if segment = .constant then some .popConstant else none

/-- An index has no place exactly for the reason that it is refused. -/
theorem Assembly.place_eq_error_iff {qualifier : String} {segment : Segment} {index : Nat}
    {error : EmitError} :
    place qualifier segment index = .error error ↔ segment.refusal? index = some error := by
  unfold place Segment.refusal?
  by_cases great : maxIndex < index
  · simp [if_pos great]
  · rw [if_neg great, if_neg great]
    cases segment with
    | constant | locals | arguments | this | that | statics => simp
    | temp => by_cases inside : index < tempSize <;> simp [inside]
    | pointer =>
      match index with
      | 0 => simp
      | 1 => simp
      | index + 2 => simp

/-- A command has no block exactly for the reason that it is refused, whatever the qualifier and
the number of its labels. -/
theorem Command.block_eq_error_iff {qualifier : String} {serial : Nat} {command : Command}
    {error : EmitError} :
    command.block qualifier serial = .error error ↔ command.refusal? = some error := by
  cases command with
  | arithmetic operator => simp [block, refusal?]
  | push segment index =>
    rw [refusal?, ← @Assembly.place_eq_error_iff qualifier, block]
    cases Assembly.place qualifier segment index <;> simp [Except.map]
  | pop segment index =>
    rw [refusal?, block]
    cases placed : Assembly.place qualifier segment index with
    | error fault =>
      rw [Assembly.place_eq_error_iff.mp placed]
      simp [bind, Except.bind]
    | ok found =>
      have accepted : segment.refusal? index = none := by
        cases refused : segment.refusal? index with
        | none => rfl
        | some fault =>
          rw [Assembly.place_eq_error_iff.mpr refused] at placed
          contradiction
      obtain ⟨-, shape⟩ := Assembly.place_eq_ok_iff.mp placed
      rw [accepted]
      cases shape <;> simp [bind, Except.bind, Assembly.popBlock, eq_comm]

namespace Emitter

variable {σ : Type} [Sink σ]

/-- The emitter that has emitted one more command. -/
def wrote (emitter : Emitter σ) (command : Command) (body : List Assembly.Line) : Emitter σ :=
  { emitter with
    labelCount := emitter.labelCount + command.labels
    sink := ((frame emitter.comments command.text body).map (·.text)).foldl Sink.accept
      emitter.sink }

/-- Emitting a command hands its framed block to the sink, or changes nothing. -/
theorem emit_eq (emitter : Emitter σ) (command : Command) :
    emitter.emit command =
      match command.block emitter.qualifier emitter.labelCount with
      | .error error => (.error error, emitter)
      | .ok body => (.ok (), emitter.wrote command body) := by
  cases command with
  | arithmetic operator =>
    cases compares : operator.isComparison <;>
      simp [emit, emitOperator, Command.block, wrote, write, Command.labels, compares]
  | push segment index =>
    cases placed : Assembly.place emitter.qualifier segment index with
    | error error =>
      simp [emit, emitAccess, accessBlock, Command.block, placed, bind, Except.bind, Except.map]
    | ok place =>
      simp [emit, emitAccess, accessBlock, Command.block, placed, bind, Except.bind, Except.map,
        pure, Except.pure, wrote, write, Command.labels]
  | pop segment index =>
    cases placed : Assembly.place emitter.qualifier segment index with
    | error error =>
      simp [emit, emitAccess, accessBlock, Command.block, placed, bind, Except.bind]
    | ok place =>
      cases popped : Assembly.popBlock place <;>
        simp [emit, emitAccess, accessBlock, Command.block, placed, popped, bind, Except.bind,
          pure, Except.pure, wrote, write, Command.labels]

/-- An emitter refuses a command for a reason that does not depend on the emitter. -/
theorem fst_emit (emitter : Emitter σ) (command : Command) :
    (emitter.emit command).1 =
      match command.refusal? with
      | some error => .error error
      | none => .ok () := by
  rw [emit_eq]
  cases made : command.block emitter.qualifier emitter.labelCount with
  | error error => rw [Command.block_eq_error_iff.mp made]
  | ok body =>
    cases refused : command.refusal? with
    | none => rfl
    | some error =>
      rw [Command.block_eq_error_iff.mpr refused] at made
      contradiction

/-- Commands that an emitter does not refuse are emitted one after the other. -/
theorem emitAll_eq_foldl {commands : List Command}
    (accepted : ∀ command ∈ commands, command.refusal? = none) (emitter : Emitter σ) :
    emitter.emitAll commands =
      (.ok (), commands.foldl (fun emitter command => (emitter.emit command).2) emitter) := by
  induction commands generalizing emitter with
  | nil => rfl
  | cons command rest ih =>
    have first := fst_emit emitter command
    rw [accepted command List.mem_cons_self] at first
    have later := ih fun other listed => accepted other (List.mem_cons_of_mem command listed)
    rw [emitAll, List.foldl_cons, ← later]
    cases emitted : emitter.emit command with
    | mk result after =>
      rw [emitted] at first
      obtain rfl : result = .ok () := first
      rfl

/-- An emitter that accepts commands refuses none of them. -/
theorem refusal?_of_emitAll {emitter after : Emitter σ} {commands : List Command}
    (accepted : emitter.emitAll commands = (.ok (), after)) :
    ∀ command ∈ commands, command.refusal? = none := by
  induction commands generalizing emitter with
  | nil => exact fun _ listed => absurd listed List.not_mem_nil
  | cons command rest ih =>
    have told := fst_emit emitter command
    rw [emitAll] at accepted
    cases emitted : emitter.emit command with
    | mk result next =>
      rw [emitted] at told accepted
      cases result with
      | error error => simp at accepted
      | ok =>
        have later := ih accepted
        intro other listed
        rcases List.mem_cons.mp listed with rfl | behind
        · cases refused : other.refusal? with
          | none => rfl
          | some error =>
            rw [refused] at told
            contradiction
        · exact later other behind

end Emitter

/-- The framed blocks of commands in order, the first comparison getting the given number. -/
def listing (qualifier : String) (comments : Bool) :
    Nat → List Command → Except EmitError (List Assembly.Line)
  | _, [] => .ok []
  | serial, command :: rest => do
    let body ← command.block qualifier serial
    let later ← listing qualifier comments (serial + command.labels) rest
    return Emitter.frame comments command.text body ++ later

/-- A listing begins with the framed block of its first command. -/
theorem listing_cons {qualifier : String} {comments : Bool} {serial : Nat} {command : Command}
    {rest : List Command} {lines : List Assembly.Line}
    (listed : listing qualifier comments serial (command :: rest) = .ok lines) :
    ∃ body later, command.block qualifier serial = .ok body ∧
      listing qualifier comments (serial + command.labels) rest = .ok later ∧
      lines = Emitter.frame comments command.text body ++ later := by
  rw [listing] at listed
  cases first : command.block qualifier serial with
  | error error => simp [first, bind, Except.bind] at listed
  | ok body =>
    cases others : listing qualifier comments (serial + command.labels) rest with
    | error error => simp [first, others, bind, Except.bind] at listed
    | ok later =>
      simp only [first, others, bind, Except.bind, pure, Except.pure, Except.ok.injEq] at listed
      exact ⟨body, later, rfl, rfl, listed.symm⟩

/-- An emitter that accepts commands has handed their listing to its sink. -/
theorem emitAll_eq_ok {σ : Type} [Sink σ] {emitter after : Emitter σ} {commands : List Command}
    (accepted : emitter.emitAll commands = (.ok (), after)) :
    ∃ lines,
      listing emitter.qualifier emitter.comments emitter.labelCount commands = .ok lines ∧
      after.sink = (lines.map (·.text)).foldl Sink.accept emitter.sink := by
  induction commands generalizing emitter with
  | nil =>
    simp only [Emitter.emitAll, Prod.mk.injEq, true_and] at accepted
    exact ⟨[], rfl, by rw [accepted]; rfl⟩
  | cons command rest ih =>
    rw [Emitter.emitAll, Emitter.emit_eq] at accepted
    cases block : command.block emitter.qualifier emitter.labelCount with
    | error error => simp [block] at accepted
    | ok body =>
      simp only [block] at accepted
      obtain ⟨later, listed, sunk⟩ := ih accepted
      refine ⟨Emitter.frame emitter.comments command.text body ++ later, ?_, ?_⟩
      · rw [listing, block]
        simp only [Emitter.wrote] at listed
        simp [listed, bind, Except.bind, pure, Except.pure]
      · rw [sunk, List.map_append, List.foldl_append]
        rfl

/-- An array that was empty has collected the text of the listing of the accepted commands. -/
theorem sink_emitAll {emitter after : Emitter (Array String)} {commands : List Command}
    (empty : emitter.sink = #[]) (accepted : emitter.emitAll commands = (.ok (), after)) :
    ∃ lines,
      listing emitter.qualifier emitter.comments emitter.labelCount commands = .ok lines ∧
      after.sink.toList = lines.map (·.text) := by
  obtain ⟨lines, listed, sunk⟩ := emitAll_eq_ok accepted
  refine ⟨lines, listed, ?_⟩
  have collected : (lines.map (·.text)).foldl Sink.accept (#[] : Array String) =
      #[] ++ (lines.map (·.text)).toArray := List.foldl_push_eq_append'
  rw [sunk, empty, collected]
  simp

end HackVm
