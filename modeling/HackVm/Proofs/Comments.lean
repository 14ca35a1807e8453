import HackVm.Proofs.Labels

/-!
# Emitting with and without comments

Whether an emitter writes comments, and where its lines go, makes no difference to what it
accepts. `Emitter.Matched` relates two emitters that may differ in both; one step keeps them
matched and gives the same answer, so a whole session does. With comments a listing has one
comment for each command and is otherwise the listing without. No other line can be taken for a
comment, because every instruction and label begins with a character of its own, whatever the
qualifier is.
-/
namespace HackVm

namespace Assembly

/-- A line begins with two slashes exactly when it is a comment. -/
theorem Line.slashes_prefix_text_iff {line : Line} :
    "//".toList <+: line.text.toList ↔ line.sign? = some '/' := by
  constructor
  · rintro ⟨rest, written⟩
    rw [← head?_text_eq_some_iff (by decide), ← written]
    rfl
  · intro signed
    cases line with
    | comment remark => exact ⟨' ' :: remark.toList, by simp [text]⟩
    | blank | load | assign | jump | label => simp [sign?] at signed

/-- Code is no comment. -/
theorem Line.sign?_of_isCode {line : Line} (code : line.isCode = true) :
    line.sign? ≠ some '/' := by
  cases line with
  | comment | blank => contradiction
  | load | assign | jump | label => simp [sign?]

/-- The lines of a listing without its comments. -/
def uncommented (lines : List Line) : List Line :=
  lines.filter fun line => line.sign? ≠ some '/'

/-- Without its comment a framed block is the block framed without one. -/
theorem uncommented_frame {body : List Line} (code : ∀ line ∈ body, line.isCode = true)
    (comments : Bool) (remark : String) :
    uncommented (Emitter.frame comments remark body) = Emitter.frame false remark body := by
  have kept : uncommented body = body := by
    apply List.filter_eq_self.mpr
    intro line listed
    exact decide_eq_true (Line.sign?_of_isCode (code line listed))
  have opening : uncommented (if comments then [.comment remark] else []) = [] := by
    cases comments <;> rfl
  have closing : uncommented [.blank] = [.blank] := rfl
  rw [uncommented] at kept opening closing
  rw [uncommented, Emitter.frame, List.filter_append, List.filter_append, kept, opening, closing]
  rfl

/-- Lines that are never code stand in the frame of a block only. -/
theorem countP_frame {body : List Line} (code : ∀ line ∈ body, line.isCode = true)
    {counted : Line → Bool} (uncounted : ∀ line : Line, line.isCode = true → counted line = false)
    (comments : Bool) (remark : String) :
    (Emitter.frame comments remark body).countP counted =
      (Emitter.frame comments remark []).countP counted := by
  have none : body.countP counted = 0 := by
    apply List.countP_eq_zero.mpr
    intro line listed
    rw [uncounted line (code line listed)]
    exact Bool.false_ne_true
  simp only [Emitter.frame, List.countP_append, none, List.countP_nil]

/-- A framed block has one empty line, and a comment if comments are wanted. -/
theorem count_frame {body : List Line} (code : ∀ line ∈ body, line.isCode = true)
    (comments : Bool) (remark : String) :
    (Emitter.frame comments remark body).count .blank = 1 ∧
      (Emitter.frame comments remark body).countP (fun line => line.sign? = some '/') =
        if comments then 1 else 0 := by
  constructor
  · have blank (line : Line) (isCode : line.isCode = true) : (line == .blank) = false := by
      cases line with
      | blank => contradiction
      | comment | load | assign | jump | label => rfl
    rw [List.count, countP_frame code blank]
    cases comments <;> rfl
  · have comment (line : Line) (isCode : line.isCode = true) :
        decide (line.sign? = some '/') = false :=
      decide_eq_false (Line.sign?_of_isCode isCode)
    rw [countP_frame code comment]
    cases comments <;> rfl

end Assembly

open Assembly

section Listing

variable {qualifier : String} {comments : Bool} {serial : Nat} {commands : List Command}
  {lines : List Line}

/-- A listing without its comments is the listing of the same commands that has none. -/
theorem listing_uncommented (listed : listing qualifier comments serial commands = .ok lines) :
    listing qualifier false serial commands = .ok (uncommented lines) := by
  induction commands generalizing serial lines with
  | nil =>
    obtain rfl := Except.ok.inj listed
    rfl
  | cons command rest ih =>
    obtain ⟨body, later, made, others, rfl⟩ := listing_cons listed
    have plain := ih others
    have framed := uncommented_frame (isCode_of_block made) comments command.text
    have parts : uncommented (Emitter.frame comments command.text body ++ later) =
        Emitter.frame false command.text body ++ uncommented later := by
      rw [← framed]
      exact List.filter_append ..
    rw [listing, made, parts]
    simp only [plain, bind, Except.bind, pure, Except.pure]

/-- A listing has one empty line for each command, and one comment if comments are wanted. -/
theorem count_listing (listed : listing qualifier comments serial commands = .ok lines) :
    lines.count .blank = commands.length ∧
      lines.countP (fun line => line.sign? = some '/') =
        if comments then commands.length else 0 := by
  induction commands generalizing serial lines with
  | nil =>
    obtain rfl := Except.ok.inj listed
    cases comments <;> exact ⟨rfl, rfl⟩
  | cons command rest ih =>
    obtain ⟨body, later, made, others, rfl⟩ := listing_cons listed
    obtain ⟨blanks, remarks⟩ := ih others
    obtain ⟨blank, remark⟩ := count_frame (isCode_of_block made) comments command.text
    rw [List.count_append, List.countP_append, blank, remark, blanks, remarks, List.length_cons]
    cases comments with
    | false => exact ⟨by omega, rfl⟩
    | true =>
      simp only [if_true]
      exact ⟨by omega, by omega⟩

/-- The lines of a text that do not begin with two slashes are those without the comments. -/
theorem filter_slashes (lines : List Line) :
    (lines.map (·.text)).filter (fun text => ¬"//".toList <+: text.toList) =
      (uncommented lines).map (·.text) := by
  rw [uncommented, List.filter_map]
  refine congrArg (List.map _) (List.filter_congr fun line _ => ?_)
  simp only [Function.comp_apply, Line.slashes_prefix_text_iff, ne_eq]

/-- The lines of a text that begin with two slashes are as many as the comments. -/
theorem countP_slashes (lines : List Line) :
    (lines.map (·.text)).countP (fun text => "//".toList <+: text.toList) =
      lines.countP (fun line => line.sign? = some '/') := by
  rw [List.countP_map]
  refine List.countP_congr fun line _ => ?_
  simp only [Function.comp_apply, decide_eq_true_eq, Line.slashes_prefix_text_iff]

/-- The empty lines of a text are as many as those of its listing. -/
theorem count_empty (lines : List Line) :
    (lines.map (·.text)).count "" = lines.count .blank := by
  rw [List.count, List.count, List.countP_map]
  refine List.countP_congr fun line _ => ?_
  rw [Function.comp_apply, beq_iff_eq, beq_iff_eq, Line.text_eq_empty_iff]

end Listing

namespace Emitter

variable {σ τ : Type} [Sink σ] [Sink τ]

/-- What an emitter answers to each of some requests, with the label counter after it. -/
def answers (emitter : Emitter σ) : List Emission → List (Except EmitError Unit × Nat)
  | [] => []
  | request :: rest =>
    ((emitter.serve request).1, (emitter.serve request).2.labelCount) ::
      (emitter.serve request).2.answers rest

/-- Two emitters with the same qualifier that have emitted as many comparisons. -/
structure Matched (left : Emitter σ) (right : Emitter τ) : Prop where
  /-- Static variables get the same names. -/
  qualifier : left.qualifier = right.qualifier
  /-- The next comparison gets the same number. -/
  labelCount : left.labelCount = right.labelCount

namespace Matched

variable {left : Emitter σ} {right : Emitter τ}

/-- Matched emitters answer alike to a command and stay matched. -/
theorem emit (matched : Matched left right) (command : Command) :
    (left.emit command).1 = (right.emit command).1 ∧
      Matched (left.emit command).2 (right.emit command).2 := by
  rw [emit_eq, emit_eq, matched.qualifier, matched.labelCount]
  cases command.block right.qualifier right.labelCount with
  | error error => exact ⟨rfl, matched⟩
  | ok body =>
    have counted : left.labelCount + command.labels = right.labelCount + command.labels := by
      rw [matched.labelCount]
    exact ⟨rfl, matched.qualifier, counted⟩

/-- Matched emitters emit the same of some commands, answer alike and stay matched. -/
theorem emitAll (matched : Matched left right) (commands : List Command) :
    left.emitted commands = right.emitted commands ∧
      (left.emitAll commands).1 = (right.emitAll commands).1 ∧
      Matched (left.emitAll commands).2 (right.emitAll commands).2 := by
  induction commands generalizing left right with
  | nil => exact ⟨rfl, rfl, matched⟩
  | cons command rest ih =>
    obtain ⟨same, next⟩ := matched.emit command
    rw [emitted, emitted, Emitter.emitAll, Emitter.emitAll]
    cases first : left.emit command with
    | mk result after =>
      cases second : right.emit command with
      | mk other after' =>
        rw [first, second] at same next
        obtain rfl : result = other := same
        cases result with
        | error error => exact ⟨rfl, rfl, next⟩
        | ok =>
          obtain ⟨emits, answers, later⟩ := ih next
          exact ⟨congrArg (command :: ·) emits, answers, later⟩

/-- Matched emitters answer alike to a request and stay matched. -/
theorem serve (matched : Matched left right) (request : Emission) :
    (left.serve request).1 = (right.serve request).1 ∧
      Matched (left.serve request).2 (right.serve request).2 := by
  cases request with
  | command command => exact matched.emit command
  | arithmetic operator => exact matched.emit (.arithmetic operator)
  | access kind segment index =>
    cases kind with
    | push => exact matched.emit (.push segment index)
    | pop => exact matched.emit (.pop segment index)
    | blank | arithmetic => exact ⟨rfl, matched⟩
  | program commands => exact (matched.emitAll commands).2

/-- Matched emitters answer alike over a whole session and emit the same commands in it. -/
theorem session (matched : Matched left right) (requests : List Emission) :
    left.answers requests = right.answers requests ∧
      left.history requests = right.history requests := by
  induction requests generalizing left right with
  | nil => exact ⟨rfl, rfl⟩
  | cons request rest ih =>
    obtain ⟨same, next⟩ := matched.serve request
    obtain ⟨answer, emits⟩ := ih next
    have first := (matched.emitAll request.commands).1
    constructor
    · rw [Emitter.answers, Emitter.answers, same, next.labelCount, answer]
    · rw [Emitter.history, Emitter.history, first, emits]

end Matched

end Emitter

/-- A watcher is moved by the lines it is given, one after the other. -/
theorem state_foldl_accept {σ : Type} (watcher : Watcher σ) (lines : List String) :
    (lines.foldl Sink.accept watcher).state = lines.foldl watcher.watch watcher.state := by
  induction lines generalizing watcher with
  | nil => rfl
  | cons line rest ih => exact ih _

/-- Whether comments are wanted makes no difference to what a session is answered and which commands
it emits. The output without comments is the output with them less the lines that begin with two
slashes. These are as many as the empty lines and as the commands emitted. A watcher is given the
same lines in the same order as an array collects, with comments or without. -/
theorem comments_only_add_lines (qualifier : String) (requests : List Emission) :
    let fresh (comments : Bool) : Emitter (Array String) := Emitter.new qualifier comments #[]
    let output (comments : Bool) := ((fresh comments).serveAll requests).sink.toList
    let emitted := (fresh false).history requests
    (fresh true).answers requests = (fresh false).answers requests ∧
    (fresh true).history requests = emitted ∧
    output false = (output true).filter (fun line => ¬"//".toList <+: line.toList) ∧
    (output true).countP (fun line => "//".toList <+: line.toList) = emitted.length ∧
    (∀ comments : Bool, (output comments).count "" = emitted.length) ∧
    ∀ (comments : Bool) (σ : Type) (state : σ) (watch : σ → String → σ),
      let watched : Emitter (Watcher σ) := Emitter.new qualifier comments ⟨state, watch⟩
      watched.answers requests = (fresh comments).answers requests ∧
      (watched.serveAll requests).sink.state = (output comments).foldl watch state := by
  intro fresh output emitted
  have matched (comments : Bool) : Emitter.Matched (fresh comments) (fresh false) := ⟨rfl, rfl⟩
  -- All sessions below emit the same commands, so each output is a listing of these.
  have listed (comments : Bool) : ∃ lines,
      listing qualifier comments 0 emitted = .ok lines ∧ output comments = lines.map (·.text) := by
    have history : (fresh comments).history requests = emitted :=
      ((matched comments).session requests).2
    have accepted := Emitter.emitAll_history (fresh comments) requests
    rw [history] at accepted
    exact sink_emitAll rfl accepted
  obtain ⟨lines, remarked, written⟩ := listed true
  obtain ⟨answers, histories⟩ := (matched true).session requests
  refine ⟨answers, histories, ?_, ?_, ?_, ?_⟩
  · obtain ⟨others, plain, shown⟩ := listed false
    have same : others = uncommented lines := by
      apply Except.ok.inj
      rw [← plain, ← listing_uncommented remarked]
    rw [shown, written, filter_slashes, same]
  · rw [written, countP_slashes, (count_listing remarked).2, if_pos rfl]
  · intro comments
    obtain ⟨others, made, shown⟩ := listed comments
    rw [shown, count_empty, (count_listing made).1]
  · intro comments σ state watch watched
    have paired : Emitter.Matched watched (fresh comments) := ⟨rfl, rfl⟩
    have bare : Emitter.Matched watched (fresh false) := ⟨rfl, rfl⟩
    obtain ⟨others, made, shown⟩ := listed comments
    obtain ⟨seen, watching, sunk⟩ := emitAll_eq_ok (watched.emitAll_history requests)
    have same : seen = others := by
      apply Except.ok.inj
      rw [← watching, ← made, (bare.session requests).2]
      rfl
    refine ⟨(paired.session requests).1, ?_⟩
    rw [sunk, state_foldl_accept, same, shown]
    rfl

end HackVm
