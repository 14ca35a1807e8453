import HackVm.Proofs.Translation

/-!
# Comparisons

A comparison subtracts its operands and tests the sign of the difference. The subtraction wraps, so
the test answers for the operands themselves only while their difference is a word:
`test_eq_relation_iff` says for which operands the answer is right. Equality is always right; the
two orders are right exactly when the subtraction does not overflow.
-/
namespace HackVm

open Assembly

/-- What a comparison is meant to say of two signed numbers, the lower one on the stack first. -/
def Operator.relation : Operator → Int → Int → Bool
  | eq, lower, top => lower = top
  | gt, lower, top => top < lower
  | lt, lower, top => lower < top
  | _, _, _ => false

/-- What a comparison tests of the difference of its operands. -/
def Operator.test : Operator → Word → Bool
  | eq, difference => difference = 0
  | gt, difference => 0 < difference.toInt
  | lt, difference => difference.toInt < 0
  | _, _ => false

/-- A comparison leaves the answer of its test. -/
theorem action_of_comparison {operator : Operator} (compares : operator.isComparison = true) :
    StackMachine.action operator =
      .binary fun lower top => StackMachine.truth (operator.test (lower - top)) := by
  cases operator with
  | eq | gt | lt => rfl
  | add | sub | neg | and | or | not => contradiction

/-- A difference of words that does not overflow is the difference of the numbers, and one that
does is off by the number of words. -/
theorem toInt_difference (lower top : Word) :
    (lower - top).toInt = lower.toInt - top.toInt ∧ lower.ssubOverflow top = false ∨
      0 < lower.toInt - top.toInt ∧ (lower - top).toInt < 0 ∧ lower.ssubOverflow top = true ∨
      lower.toInt - top.toInt < 0 ∧ 0 < (lower - top).toInt ∧ lower.ssubOverflow top = true := by
  have lowerLeast : -2 ^ 15 ≤ lower.toInt := BitVec.le_toInt lower
  have lowerMost : lower.toInt < 2 ^ 15 := BitVec.toInt_lt
  have topLeast : -2 ^ 15 ≤ top.toInt := BitVec.le_toInt top
  have topMost : top.toInt < 2 ^ 15 := BitVec.toInt_lt
  have wrapped : (lower - top).toInt = (lower.toInt - top.toInt).bmod 65536 := BitVec.toInt_sub
  have overflows : lower.ssubOverflow top = true ↔
      2 ^ 15 ≤ lower.toInt - top.toInt ∨ lower.toInt - top.toInt < -2 ^ 15 := by
    rw [BitVec.ssubOverflow, Bool.or_eq_true, decide_eq_true_iff, decide_eq_true_iff]
  rw [Int.bmod_def] at wrapped
  by_cases above : 2 ^ 15 ≤ lower.toInt - top.toInt
  · refine .inr (.inl ⟨by omega, ?_, overflows.mpr (.inl above)⟩)
    split at wrapped <;> omega
  · by_cases below : lower.toInt - top.toInt < -2 ^ 15
    · refine .inr (.inr ⟨by omega, ?_, overflows.mpr (.inr below)⟩)
      split at wrapped <;> omega
    · have safe : ¬lower.ssubOverflow top = true := by
        rw [overflows]
        omega
      refine .inl ⟨?_, Bool.not_eq_true _ ▸ safe⟩
      split at wrapped <;> omega

/-- The test of a comparison says what the comparison is meant to say exactly when the comparison is
equality or the difference of the operands does not overflow. -/
theorem test_eq_relation_iff {operator : Operator} (compares : operator.isComparison = true)
    (lower top : Word) :
    operator.test (lower - top) = operator.relation lower.toInt top.toInt ↔
      operator = .eq ∨ lower.ssubOverflow top = false := by
  have overflow : lower.ssubOverflow top = true → ¬lower.ssubOverflow top = false := by
    intro exceeds
    rw [exceeds]
    decide
  cases operator with
  | add | sub | neg | and | or | not => contradiction
  | eq =>
    have same : lower - top = 0 ↔ lower.toInt = top.toInt := by
      rw [BitVec.toInt_inj]
      constructor
      · intro zero
        bv_omega
      · rintro rfl
        exact BitVec.sub_self lower
    simp only [Operator.test, Operator.relation, same, true_or]
  | gt =>
    simp only [Operator.test, Operator.relation, decide_eq_decide, reduceCtorEq, false_or]
    obtain ⟨plain, safe⟩ | ⟨greater, negative, exceeds⟩ | ⟨less, positive, exceeds⟩ :=
      toInt_difference lower top
    · exact iff_of_true (by omega) safe
    · exact iff_of_false (by omega) (overflow exceeds)
    · exact iff_of_false (by omega) (overflow exceeds)
  | lt =>
    simp only [Operator.test, Operator.relation, decide_eq_decide, reduceCtorEq, false_or]
    obtain ⟨plain, safe⟩ | ⟨greater, negative, exceeds⟩ | ⟨less, positive, exceeds⟩ :=
      toInt_difference lower top
    · exact iff_of_true (by omega) safe
    · exact iff_of_false (by omega) (overflow exceeds)
    · exact iff_of_false (by omega) (overflow exceeds)

/-- The block that an emitter emits for an operator, assembled on its own and run with the stack in
its usual place, replaces the two operands on the stack by a word and changes nothing else. -/
def Replaces (emitter : Emitter (Array String)) (operator : Operator)
    (result : Word → Word → Word) : Prop :=
  ∃ program,
    Assembler.assemble (emitter.emit (.arithmetic operator)).2.sink.toList = some program ∧
      ∀ memory a d, 258 ≤ memory 0 → memory 0 ≤ 2047 → ∃ finish,
        Machine.Reaches program ⟨memory, a, d, 0⟩ finish ∧ finish.counter = program.length ∧
          finish.memory =
            Function.update (Function.update memory 0 (memory 0 - 1)) (memory 0 - 2)
              (result (memory (memory 0 - 2)) (memory (memory 0 - 1)))

/-- Operands are replaced by one word only. -/
theorem Replaces.unique {emitter : Emitter (Array String)} {operator : Operator}
    {first second : Word → Word → Word} (one : Replaces emitter operator first)
    (other : Replaces emitter operator second) (lower top : Word) :
    first lower top = second lower top := by
  obtain ⟨program, assembled, runs⟩ := one
  obtain ⟨_, again, rerun⟩ := other
  obtain rfl := Option.some.inj (assembled.symm.trans again)
  let memory : Memory := fun cell => if cell = 0 then 258 else if cell = 256 then lower else top
  have pointer : memory 0 = 258 := rfl
  have second : memory 256 = lower := rfl
  have third : memory 257 = top := rfl
  have least : 258 ≤ memory 0 := by rw [pointer]; decide
  have most : memory 0 ≤ 2047 := by rw [pointer]; decide
  obtain ⟨finish, reached, ended, result⟩ := runs memory 0 0 least most
  obtain ⟨also, arrived, halted, outcome⟩ := rerun memory 0 0 least most
  have equal := reached.unique arrived (Machine.step_end ended) (Machine.step_end halted)
  rw [equal, outcome, pointer] at result
  have lowerCell : (258 - 2 : Word) = 256 := by decide
  have topCell : (258 - 1 : Word) = 257 := by decide
  have cell := congrFun result 256
  rw [lowerCell, topCell, second, third, Function.update_self, Function.update_self] at cell
  exact cell.symm

/-- The block of a comparison leaves the answer of its test, whatever the number of its labels. -/
theorem replaces_test {operator : Operator} (compares : operator.isComparison = true)
    (qualifier : String) (comments : Bool) (serial : Nat) :
    Replaces ⟨qualifier, comments, serial, #[]⟩ operator fun lower top =>
      StackMachine.truth (operator.test (lower - top)) := by
  let emitter : Emitter (Array String) := ⟨qualifier, comments, serial, #[]⟩
  have accepted : emitter.emitAll [.arithmetic operator] =
      (.ok (), (emitter.emit (.arithmetic operator)).2) := rfl
  obtain ⟨lines, listed, assembled⟩ := assemble_emitAll rfl accepted
  obtain ⟨_, again, runs⟩ := computes_emitAll rfl accepted
  obtain rfl := Option.some.inj (assembled.symm.trans again)
  have short : size lines = 14 := by
    obtain ⟨body, later, made, rest, rfl⟩ := listing_cons listed
    obtain rfl := Except.ok.inj made
    obtain rfl := Except.ok.inj rest
    rw [List.append_nil, size_frame, size_operatorBlock compares]
  have small : (lines.flatMap (Line.code (addressIn lines))).length < 32768 := by
    rw [length_flatMap_code, short]
    decide
  refine ⟨_, assembled, ?_⟩
  intro memory a d least most
  obtain ⟨finish, reached, ended, result⟩ := runs small memory a d
  refine ⟨finish, reached, ended, ?_⟩
  have above : 2 < memory 0 := by bv_omega
  rw [result, StackMachine.run, List.foldl_cons, List.foldl_nil,
    StackMachine.step_eq_stepByName above, StackMachine.stepByName, action_of_comparison compares]

/-- The block of a comparison leaves minus one or zero in place of its operands, and the answer is
right for exactly the operands whose difference does not overflow, or all if it is equality. -/
theorem comparison_answers_exactly {operator : Operator} (compares : operator.isComparison = true)
    (qualifier : String) (comments : Bool) (serial : Nat) :
    (Replaces ⟨qualifier, comments, serial, #[]⟩ operator fun lower top =>
        StackMachine.truth (operator.test (lower - top))) ∧
      ∀ lower top : Word,
        StackMachine.truth (operator.test (lower - top)) =
            StackMachine.truth (operator.relation lower.toInt top.toInt) ↔
          operator = .eq ∨ lower.ssubOverflow top = false := by
  refine ⟨replaces_test compares qualifier comments serial, ?_⟩
  intro lower top
  rw [← test_eq_relation_iff compares]
  cases operator.test (lower - top) <;>
    cases operator.relation lower.toInt top.toInt <;> decide

/-- The first block for less is right about two and nine. -/
theorem lt_answers_exactly :
    (Replaces ⟨"Foo", true, 0, #[]⟩ .lt fun lower top =>
        StackMachine.truth (Operator.lt.test (lower - top))) ∧
      StackMachine.truth (Operator.lt.test (2 - 9)) =
        StackMachine.truth (Operator.lt.relation (2 : Word).toInt (9 : Word).toInt) :=
  have less : Operator.lt.isComparison = true := rfl
  ⟨(comparison_answers_exactly less "Foo" true 0).1,
    ((comparison_answers_exactly less "Foo" true 0).2 2 9).mpr (.inr (by decide))⟩

/-- Greater says that the greatest word is not greater than minus one, so the blocks of comparisons
do not in general compare signed numbers. -/
theorem comparison_not_signed :
    ¬∀ (operator : Operator), operator.isComparison = true →
      ∀ (qualifier : String) (comments : Bool) (serial : Nat),
        Replaces ⟨qualifier, comments, serial, #[]⟩ operator fun lower top =>
          StackMachine.truth (operator.relation lower.toInt top.toInt) := by
  intro signed
  have greater : Operator.gt.isComparison = true := rfl
  have tested := replaces_test greater "Foo" true 0
  have same := tested.unique (signed .gt greater "Foo" true 0) 32767 (-1)
  revert same
  decide

end HackVm
