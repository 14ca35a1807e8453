import HackVm.Proofs.Session

/-!
# Refused commands

Which pushes and pops an emitter refuses, and what a refusal leaves behind. `accessRefusal?` lists
the reasons in the order in which they are judged: the kind, the size of the index, the cells of the
segment, and last that a constant cannot be overwritten. None of them depends on the emitter, so a
sequence of commands is refused for the reason of the first command that has one, and the emitter is
then where the commands before it have led.
-/
namespace HackVm

/-- Why a push or a pop named by its kind is refused, if it is. -/
def accessRefusal? (kind : Kind) (segment : Segment) (index : Nat) : Option EmitError :=
  if kind = .blank ∨ kind = .arithmetic then some (.notAccess kind)
  else if 32767 < index then some (.indexRange index)
  else if segment = .temp ∧ 7 < index then some (.tempIndex index)
  else if segment = .pointer ∧ 1 < index then some (.pointerIndex index)
  else if kind = .pop ∧ segment = .constant then some .popConstant
  else none

/-- A segment refuses an index that is too great, or that one of its two bounds excludes. -/
theorem Segment.refusal?_eq (segment : Segment) (index : Nat) :
    segment.refusal? index =
      if 32767 < index then some (.indexRange index)
      else if segment = .temp ∧ 7 < index then some (.tempIndex index)
      else if segment = .pointer ∧ 1 < index then some (.pointerIndex index)
      else none := by
  unfold Segment.refusal?
  change (if 32767 < index then _ else _) = _
  by_cases great : 32767 < index
  · rw [if_pos great, if_pos great]
  · rw [if_neg great, if_neg great]
    cases segment with
    | constant | locals | arguments | this | that | statics => simp
    | temp =>
      have eight : index < Assembly.tempSize ↔ ¬7 < index := by
        change index < 8 ↔ _
        omega
      by_cases outside : 7 < index <;> simp [eight, outside]
    | pointer =>
      have two : index < 2 ↔ ¬1 < index := by omega
      by_cases outside : 1 < index <;> simp [two, outside]

/-- A push is refused for the reason that its segment has. -/
theorem accessRefusal?_push (segment : Segment) (index : Nat) :
    accessRefusal? .push segment index = (Command.push segment index).refusal? := by
  rw [Command.refusal?, Segment.refusal?_eq]
  simp [accessRefusal?]

/-- A pop is refused for the reason that its segment has, and otherwise into a constant. -/
theorem accessRefusal?_pop (segment : Segment) (index : Nat) :
    accessRefusal? .pop segment index = (Command.pop segment index).refusal? := by
  rw [Command.refusal?, Segment.refusal?_eq]
  simp only [accessRefusal?, reduceCtorEq, or_self, if_false, true_and]
  by_cases great : 32767 < index
  · rw [if_pos great, if_pos great]
  · rw [if_neg great, if_neg great]
    cases segment with
    | constant | locals | arguments | this | that | statics => rfl
    | temp => by_cases outside : 7 < index <;> simp [outside]
    | pointer => by_cases outside : 1 < index <;> simp [outside]

namespace Emitter

variable {σ : Type} [Sink σ]

/-- A command that is refused leaves the emitter as it was. -/
theorem emit_of_refusal? {command : Command} {error : EmitError}
    (refused : command.refusal? = some error) (emitter : Emitter σ) :
    emitter.emit command = (.error error, emitter) := by
  rw [emit_eq, Command.block_eq_error_iff.mpr refused]

/-- A command that is not refused hands at least one line to the sink, behind all lines before. -/
theorem emit_of_accepted {command : Command} (accepted : command.refusal? = none)
    (emitter : Emitter σ) :
    ∃ lines : List String, lines ≠ [] ∧
      emitter.emit command = (.ok (), { emitter with
        labelCount := emitter.labelCount + command.labels
        sink := lines.foldl Sink.accept emitter.sink }) := by
  cases made : command.block emitter.qualifier emitter.labelCount with
  | error error =>
    rw [Command.block_eq_error_iff.mp made] at accepted
    contradiction
  | ok body =>
    refine ⟨(frame emitter.comments command.text body).map (·.text), ?_, ?_⟩
    · simp [frame]
    · rw [emit_eq, made]
      rfl

/-- A command that has no labels is refused and leaves the emitter as it was, or it hands at least
one line to the sink and changes nothing else. -/
theorem emit_cases (emitter : Emitter σ) {command : Command} (unlabelled : command.labels = 0) :
    (∃ error, command.refusal? = some error ∧ emitter.emit command = (.error error, emitter)) ∨
      command.refusal? = none ∧ ∃ lines : List String, lines ≠ [] ∧
        emitter.emit command =
          (.ok (), { emitter with sink := lines.foldl Sink.accept emitter.sink }) := by
  cases refused : command.refusal? with
  | some error => exact .inl ⟨error, rfl, emit_of_refusal? refused emitter⟩
  | none =>
    obtain ⟨lines, nonempty, emitted⟩ := emit_of_accepted refused emitter
    rw [unlabelled] at emitted
    exact .inr ⟨rfl, lines, nonempty, emitted⟩

/-- A push or a pop named by its kind is refused for the first reason of the list, and then leaves
the emitter as it was; otherwise it hands at least one line to the sink and changes nothing else. -/
theorem emitAccess_cases (emitter : Emitter σ) (kind : Kind) (segment : Segment) (index : Nat) :
    (∃ error, accessRefusal? kind segment index = some error ∧
        emitter.emitAccess kind segment index = (.error error, emitter)) ∨
      accessRefusal? kind segment index = none ∧
        ∃ lines : List String, lines ≠ [] ∧
          emitter.emitAccess kind segment index =
            (.ok (), { emitter with sink := lines.foldl Sink.accept emitter.sink }) := by
  cases kind with
  | blank | arithmetic => exact .inl ⟨_, rfl, rfl⟩
  | push =>
    rw [accessRefusal?_push]
    exact emitter.emit_cases rfl
  | pop =>
    rw [accessRefusal?_pop]
    exact emitter.emit_cases rfl

/-- Commands are refused for the reason of the first of them that has one. -/
theorem fst_emitAll (emitter : Emitter σ) (commands : List Command) :
    (emitter.emitAll commands).1 =
      match commands.findSome? Command.refusal? with
      | some error => .error error
      | none => .ok () := by
  induction commands generalizing emitter with
  | nil => rfl
  | cons command rest ih =>
    rw [emitAll, List.findSome?_cons]
    cases refused : command.refusal? with
    | some error => rw [emit_of_refusal? refused]
    | none =>
      obtain ⟨lines, -, emitted⟩ := emit_of_accepted refused emitter
      rw [emitted]
      exact ih _

/-- Commands are refused exactly when one of them is. -/
theorem exists_fst_emitAll_eq_error_iff (emitter : Emitter σ) {commands : List Command} :
    (∃ error, (emitter.emitAll commands).1 = .error error) ↔
      ∃ command ∈ commands, ∃ error, command.refusal? = some error := by
  rw [fst_emitAll]
  cases first : commands.findSome? Command.refusal? with
  | none =>
    rw [List.findSome?_eq_none_iff] at first
    constructor
    · rintro ⟨error, failed⟩
      contradiction
    · rintro ⟨command, listed, error, refused⟩
      rw [first command listed] at refused
      contradiction
  | some error =>
    obtain ⟨command, listed, refused⟩ := List.exists_of_findSome?_eq_some first
    exact ⟨fun _ => ⟨command, listed, error, refused⟩, fun _ => ⟨error, rfl⟩⟩

/-- The first refused command of a sequence ends it, where the commands before it have led. -/
theorem emitAll_of_refused {front : List Command} {command : Command} {error : EmitError}
    (accepted : ∀ earlier ∈ front, earlier.refusal? = none)
    (refused : command.refusal? = some error) (back : List Command) (emitter : Emitter σ) :
    emitter.emitAll front = (.ok (), (emitter.emitAll front).2) ∧
      emitter.emitAll (front ++ command :: back) = (.error error, (emitter.emitAll front).2) := by
  have before : emitter.emitAll front = (.ok (), (emitter.emitAll front).2) := by
    rw [emitAll_eq_foldl accepted]
  refine ⟨before, ?_⟩
  rw [emitAll_append before, emitAll, emit_of_refusal? refused]

/-- Whether an emitter refuses a command, and why, is the refusal of the command. -/
theorem fst_emit_eq_error_iff {emitter : Emitter σ} {command : Command} {error : EmitError} :
    (emitter.emit command).1 = .error error ↔ command.refusal? = some error := by
  rw [fst_emit]
  cases command.refusal? <;> simp

/-- An emitter accepts exactly the commands that have no refusal. -/
theorem fst_emit_eq_ok_iff {emitter : Emitter σ} {command : Command} :
    (emitter.emit command).1 = .ok () ↔ command.refusal? = none := by
  rw [fst_emit]
  cases command.refusal? <;> simp

end Emitter

/-- An emitter refuses a push or a pop named by its kind exactly for the first reason of
`accessRefusal?`. A refusal changes nothing; an accepted one hands at least one line to the sink
behind all lines before, and uses up no label number. Whether a command is refused, and why, is the
same for every emitter. So a sequence of commands is refused exactly when one of them is, for the
reason of the first such command, and the emitter is then where the commands before it have led,
whatever follows. -/
theorem refusals_leave_no_trace {σ τ : Type} [Sink σ] [Sink τ] (emitter : Emitter σ)
    (other : Emitter τ) (collector : Emitter (Array String)) :
    (∀ kind segment index,
      (emitter.emitAccess kind segment index).1 =
        match accessRefusal? kind segment index with
        | some error => .error error
        | none => .ok ()) ∧
    (∀ kind segment index error, (emitter.emitAccess kind segment index).1 = .error error →
      (emitter.emitAccess kind segment index).2 = emitter) ∧
    (∀ kind segment index, (emitter.emitAccess kind segment index).1 = .ok () →
      ∃ lines : List String, lines ≠ [] ∧
        (emitter.emitAccess kind segment index).2 =
          { emitter with sink := lines.foldl Sink.accept emitter.sink }) ∧
    (∀ kind segment index, (collector.emitAccess kind segment index).1 = .ok () →
      ∃ lines : List String, lines ≠ [] ∧
        (collector.emitAccess kind segment index).2.labelCount = collector.labelCount ∧
        (collector.emitAccess kind segment index).2.sink.toList =
          collector.sink.toList ++ lines) ∧
    (∀ command, (other.emit command).1 = (emitter.emit command).1) ∧
    (∀ commands, (∃ error, (emitter.emitAll commands).1 = .error error) ↔
      ∃ command ∈ commands, ∃ error, (emitter.emit command).1 = .error error) ∧
    ∀ front command back error, (∀ earlier ∈ front, (emitter.emit earlier).1 = .ok ()) →
      (emitter.emit command).1 = .error error →
        emitter.emitAll front = (.ok (), (emitter.emitAll front).2) ∧
        emitter.emitAll (front ++ command :: back) =
          (.error error, (emitter.emitAll front).2) := by
  refine ⟨?_, ?_, ?_, ?_, ?_, ?_, ?_⟩
  · intro kind segment index
    obtain ⟨error, refused, answered⟩ | ⟨accepted, lines, -, answered⟩ :=
      emitter.emitAccess_cases kind segment index
    · rw [refused, answered]
    · rw [accepted, answered]
  · intro kind segment index error failed
    obtain ⟨reason, -, answered⟩ | ⟨-, lines, -, answered⟩ :=
      emitter.emitAccess_cases kind segment index
    · rw [answered]
    · rw [answered] at failed
      contradiction
  · intro kind segment index succeeded
    obtain ⟨reason, -, answered⟩ | ⟨-, lines, nonempty, answered⟩ :=
      emitter.emitAccess_cases kind segment index
    · rw [answered] at succeeded
      contradiction
    · exact ⟨lines, nonempty, by rw [answered]⟩
  · intro kind segment index succeeded
    obtain ⟨reason, -, answered⟩ | ⟨-, lines, nonempty, answered⟩ :=
      collector.emitAccess_cases kind segment index
    · rw [answered] at succeeded
      contradiction
    · have collected : lines.foldl Sink.accept collector.sink =
          collector.sink ++ lines.toArray := List.foldl_push_eq_append'
      refine ⟨lines, nonempty, by rw [answered], ?_⟩
      rw [answered]
      simp [collected]
  · intro command
    rw [Emitter.fst_emit, Emitter.fst_emit]
  · intro commands
    simp only [Emitter.fst_emit_eq_error_iff]
    exact emitter.exists_fst_emitAll_eq_error_iff
  · intro front command back error accepted refused
    have earlier : ∀ command ∈ front, command.refusal? = none := fun command listed =>
      Emitter.fst_emit_eq_ok_iff.mp (accepted command listed)
    exact Emitter.emitAll_of_refused earlier (Emitter.fst_emit_eq_error_iff.mp refused) back emitter

/-- Amid comparisons, a pop that is wrong in two ways is refused for the size of its index, and one
comparison is left behind. -/
theorem refused_pop_amid_comparisons :
    let emitter := (Emitter.new "Foo" true (#[] : Array String)).serveAll
      [.arithmetic .gt, .access .blank .locals 0]
    let commands : List Command := [.arithmetic .lt, .pop .pointer 40000, .arithmetic .eq]
    (emitter.emit (.pop .pointer 40000)).1 = .error (.indexRange 40000) ∧
      (emitter.emitAccess .pop .pointer 40000).2 = emitter ∧
      emitter.emitAll commands =
        (.error (.indexRange 40000), (emitter.emitAll [.arithmetic .lt]).2) ∧
      (emitter.emitAll commands).2.labelCount = 2 := by
  intro emitter commands
  obtain ⟨-, unchanged, -, -, -, -, ended⟩ := refusals_leave_no_trace emitter emitter emitter
  have refused : (emitter.emit (.pop .pointer 40000)).1 = .error (.indexRange 40000) := rfl
  have accepted : ∀ earlier ∈ [Command.arithmetic .lt], (emitter.emit earlier).1 = .ok () := by
    intro earlier listed
    obtain rfl := List.mem_singleton.mp listed
    rfl
  have all := (ended [.arithmetic .lt] (.pop .pointer 40000) [.arithmetic .eq] _ accepted refused).2
  refine ⟨refused, unchanged .pop .pointer 40000 _ refused, all, ?_⟩
  rw [show emitter.emitAll commands = _ from all]
  rfl

end HackVm
