import HackVm.Log

/-!
# Journals

What becomes of messages in a journal. A program that does no more with its journal than log to it
comes to the same whatever the journal is, and what it leaves is the messages in order: `logAll`. An
array then holds them as they are. A console has shown those that are enabled, each rendered for its
terminal, and nothing else about it has changed.
-/
namespace HackVm

section Log

variable {σ : Type} [Journal σ]

/-- Log messages in order. -/
def logAll (journal : σ) (records : List Record) : σ :=
  records.foldl (fun journal record => Journal.log journal record.level record.message) journal

/-- Logging nothing. -/
@[simp] theorem logAll_nil (journal : σ) : logAll journal [] = journal := rfl

/-- The first message is logged before the others. -/
@[simp] theorem logAll_cons (journal : σ) (record : Record) (records : List Record) :
    logAll journal (record :: records) =
      logAll (Journal.log journal record.level record.message) records := rfl

/-- Logging in two parts. -/
@[simp] theorem logAll_append (journal : σ) (early late : List Record) :
    logAll journal (early ++ late) = logAll (logAll journal early) late :=
  List.foldl_append

end Log

/-- An array keeps all messages. -/
theorem toList_logAll (kept : Array Record) (records : List Record) :
    (logAll kept records).toList = kept.toList ++ records := by
  induction records generalizing kept with
  | nil => simp
  | cons record rest ih =>
    rw [logAll_cons, ih]
    change (kept.push record).toList ++ rest = _
    simp

/-- The tag in front of the message of a record. -/
def Record.tag (record : Record) : String := "[" ++ record.level.name ++ "] "

/-- A record on a terminal: the tag in the style of the level, and the message in plain. -/
def Record.text (record : Record) (terminal : Terminal) : String :=
  terminal.set record.level.style ++ record.tag ++ terminal.reset ++ record.message ++ "\n"

namespace Console

variable (console : Console)

/-- What a console shows of records. -/
def shown (records : List Record) : String :=
  String.join ((records.filter fun record => console.enabled record.level).map
    (·.text console.terminal))

/-- A console shows a message that is enabled. -/
theorem log_eq (record : Record) :
    Journal.log console record.level record.message = console.write (console.shown [record]) := by
  change console.log _ _ = _
  cases enabled : console.enabled record.level with
  | false => simp [log, shown, enabled, write]
  | true =>
    simp [log, shown, enabled, write, Record.text, Record.tag, String.append_assoc]

/-- What was written does not change what is shown. -/
theorem shown_write (text : String) (records : List Record) :
    (console.write text).shown records = console.shown records := rfl

/-- A console shows those of many messages that are enabled. -/
theorem logAll_eq (records : List Record) :
    logAll console records = console.write (console.shown records) := by
  induction records generalizing console with
  | nil => simp [shown, write]
  | cons record rest ih =>
    rw [logAll_cons, log_eq, ih, shown_write]
    have parts : console.shown (record :: rest) = console.shown [record] ++ console.shown rest := by
      rw [shown, shown, shown, ← String.join_append, ← List.map_append, ← List.filter_append]
      rfl
    simp [write, parts, String.append_assoc]

end Console

end HackVm
