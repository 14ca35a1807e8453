import HackVm.Assembly.Block

/-!
# Emitting assembly

An emitter turns the stack commands of one file into lines of assembly and hands them, one by
one and in order, to a sink. It numbers the comparisons, so that no label is used twice. Every
command it accepts becomes a block framed by an optional comment before it and an empty line
after it. A command it refuses emits nothing and uses up no number.
-/
namespace HackVm

/-- A place for lines of text. -/
class Sink (σ : Type) where
  /-- Take one more line. -/
  accept : σ → String → σ

/-- An array collects the lines it is given. -/
instance : Sink (Array String) := ⟨Array.push⟩

/-- A state that is moved on by every line it is given. -/
structure Watcher (σ : Type) where
  /-- The state. -/
  state : σ
  /-- How a line moves the state. -/
  watch : σ → String → σ

/-- A watcher watches the lines it is given. -/
instance {σ : Type} : Sink (Watcher σ) :=
  ⟨fun watcher line => { watcher with state := watcher.watch watcher.state line }⟩

/-- What an emitter knows between two commands. -/
structure Emitter (σ : Type) where
  /-- Name that tells the static variables of this file apart. -/
  qualifier : String
  /-- Whether each block begins with a comment that restates its command. -/
  comments : Bool
  /-- Number of comparisons emitted. -/
  labelCount : Nat
  /-- Where the lines go. -/
  sink : σ

/-- One request to an emitter. -/
inductive Emission where
  /-- Emit a command. -/
  | command (command : Command)
  /-- Emit an operator. -/
  | arithmetic (operator : Operator)
  /-- Emit a push or a pop, named by its kind. -/
  | access (kind : Kind) (segment : Segment) (index : Nat)
  /-- Emit commands in order until one is refused. -/
  | program (commands : List Command)
deriving DecidableEq, Repr

namespace Emitter

variable {σ : Type} [Sink σ]

/-- An emitter that has emitted nothing. -/
def new (qualifier : String) (comments : Bool) (sink : σ) : Emitter σ :=
  ⟨qualifier, comments, 0, sink⟩

/-- The lines of a framed block: a comment if comments are wanted, the instructions, and an
empty line. -/
def frame (comments : Bool) (remark : String) (body : List Assembly.Line) :
    List Assembly.Line :=
  (if comments then [.comment remark] else []) ++ body ++ [.blank]

/-- Hand the framed block of a command to the sink. -/
def write (emitter : Emitter σ) (command : Command) (body : List Assembly.Line) : Emitter σ :=
  { emitter with
    sink := ((frame emitter.comments command.text body).map (·.text)).foldl Sink.accept
      emitter.sink }

/-- Emit an operator; a comparison uses up a label number. -/
def emitOperator (emitter : Emitter σ) (operator : Operator) : Emitter σ :=
  let body := Assembly.operatorBlock emitter.labelCount operator
  let emitter :=
    if operator.isComparison then { emitter with labelCount := emitter.labelCount + 1 }
    else emitter
  emitter.write (.arithmetic operator) body

/-- The command and the instructions of a push or a pop named by its kind. -/
def accessBlock (qualifier : String) (kind : Kind) (segment : Segment) (index : Nat) :
    Except EmitError (Command × List Assembly.Line) :=
  match kind with
  | .push => do
    let place ← Assembly.place qualifier segment index
    return (.push segment index, Assembly.pushBlock place)
  | .pop => do
    let place ← Assembly.place qualifier segment index
    let body ← Assembly.popBlock place
    return (.pop segment index, body)
  | .blank | .arithmetic => .error (.notAccess kind)

/-- Emit a push or a pop named by its kind. -/
def emitAccess (emitter : Emitter σ) (kind : Kind) (segment : Segment) (index : Nat) :
    Except EmitError Unit × Emitter σ :=
  match accessBlock emitter.qualifier kind segment index with
  | .error error => (.error error, emitter)
  | .ok (command, body) => (.ok (), emitter.write command body)

/-- Emit a command. -/
def emit (emitter : Emitter σ) : Command → Except EmitError Unit × Emitter σ
  | .arithmetic operator => (.ok (), emitter.emitOperator operator)
  | .push segment index => emitter.emitAccess .push segment index
  | .pop segment index => emitter.emitAccess .pop segment index

/-- Emit commands in order until one is refused; the blocks before it stay emitted. -/
def emitAll (emitter : Emitter σ) : List Command → Except EmitError Unit × Emitter σ
  | [] => (.ok (), emitter)
  | command :: rest =>
    match emitter.emit command with
    | (.error error, emitter) => (.error error, emitter)
    | (.ok (), emitter) => emitter.emitAll rest

/-- Serve one request. -/
def serve (emitter : Emitter σ) : Emission → Except EmitError Unit × Emitter σ
  | .command command => emitter.emit command
  | .arithmetic operator => (.ok (), emitter.emitOperator operator)
  | .access kind segment index => emitter.emitAccess kind segment index
  | .program commands => emitter.emitAll commands

end Emitter

end HackVm
