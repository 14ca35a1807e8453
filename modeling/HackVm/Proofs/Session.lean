import HackVm.Proofs.Emission

/-!
# Sessions

A session is a sequence of requests that one emitter serves in order. Requests may be refused,
and a request for several commands may be refused in the middle. What a session leaves behind is
told by its history, the commands that were emitted: `emitAll_history` says that emitting the
history at once leads to the same emitter. So whatever holds of a listing of accepted commands
holds of the output of every session.
-/
namespace HackVm

/-- The commands a request asks for, in order. A request for a push or a pop that is named by
another kind asks for none. -/
def Emission.commands : Emission → List Command
  | .command wanted => [wanted]
  | .arithmetic operator => [.arithmetic operator]
  | .access .push segment index => [.push segment index]
  | .access .pop segment index => [.pop segment index]
  | .access .blank _ _ | .access .arithmetic _ _ => []
  | .program commands => commands

namespace Emitter

variable {σ : Type} [Sink σ]

/-- The commands that an emitter emits of those it is asked for: all before the first that it
refuses. -/
def emitted (emitter : Emitter σ) : List Command → List Command
  | [] => []
  | command :: rest =>
    match emitter.emit command with
    | (.error _, _) => []
    | (.ok (), next) => command :: next.emitted rest

/-- The emitter after it has served requests in order. -/
def serveAll (emitter : Emitter σ) : List Emission → Emitter σ
  | [] => emitter
  | request :: rest => (emitter.serve request).2.serveAll rest

/-- The commands that are emitted while requests are served in order. -/
def history (emitter : Emitter σ) : List Emission → List Command
  | [] => []
  | request :: rest =>
    emitter.emitted request.commands ++ (emitter.serve request).2.history rest

/-- A refused command leaves the emitter as it was. -/
theorem snd_emit_of_error {emitter next : Emitter σ} {command : Command} {error : EmitError}
    (refused : emitter.emit command = (.error error, next)) : next = emitter := by
  rw [emit_eq] at refused
  cases made : command.block emitter.qualifier emitter.labelCount with
  | error fault =>
    rw [made] at refused
    exact (Prod.mk.inj refused).2.symm
  | ok body =>
    rw [made] at refused
    have outcome := (Prod.mk.inj refused).1
    contradiction

/-- Emitting only the accepted commands leads to the same emitter, and none of them is refused. -/
theorem emitAll_emitted (emitter : Emitter σ) (commands : List Command) :
    emitter.emitAll (emitter.emitted commands) = (.ok (), (emitter.emitAll commands).2) := by
  induction commands generalizing emitter with
  | nil => rfl
  | cons command rest ih =>
    rw [emitted, emitAll]
    cases answered : emitter.emit command with
    | mk result next =>
      cases result with
      | error error =>
        have same := snd_emit_of_error answered
        rw [emitAll, same]
      | ok =>
        rw [emitAll, answered]
        exact ih next

/-- Serving a request leads to the same emitter as emitting the commands it asks for. -/
theorem snd_serve (emitter : Emitter σ) (request : Emission) :
    (emitter.serve request).2 = (emitter.emitAll request.commands).2 := by
  have single (command : Command) :
      (emitter.emit command).2 = (emitter.emitAll [command]).2 := by
    rw [emitAll]
    cases emitter.emit command with
    | mk result next => cases result <;> rfl
  cases request with
  | command command => exact single command
  | arithmetic operator => exact single (.arithmetic operator)
  | access kind segment index =>
    cases kind with
    | push => exact single (.push segment index)
    | pop => exact single (.pop segment index)
    | blank | arithmetic => rfl
  | program commands => rfl

/-- Accepted commands may be emitted in two parts. -/
theorem emitAll_append {emitter middle : Emitter σ} {front : List Command}
    (accepted : emitter.emitAll front = (.ok (), middle)) (back : List Command) :
    emitter.emitAll (front ++ back) = middle.emitAll back := by
  induction front generalizing emitter with
  | nil =>
    obtain rfl := (Prod.mk.inj accepted).2
    rfl
  | cons command rest ih =>
    rw [emitAll] at accepted
    rw [List.cons_append, emitAll]
    cases answered : emitter.emit command with
    | mk result next =>
      rw [answered] at accepted
      cases result with
      | error error =>
        have outcome := (Prod.mk.inj accepted).1
        contradiction
      | ok => exact ih accepted

/-- A session leads to the same emitter as its history, which is accepted as a whole. -/
theorem emitAll_history (emitter : Emitter σ) (requests : List Emission) :
    emitter.emitAll (emitter.history requests) = (.ok (), emitter.serveAll requests) := by
  induction requests generalizing emitter with
  | nil => rfl
  | cons request rest ih =>
    have first := emitAll_emitted emitter request.commands
    rw [history, serveAll, emitAll_append first, ← snd_serve]
    exact ih _

end Emitter

end HackVm
