import HackVm.Proofs.Grammar
import HackVm.Proofs.Source.LineEnding

/-!
# The fault of a line

A line may be wrong in several ways at once, and one of them is named. `Check` lists what is checked
of the words of a line, in the order in which it is checked; `Check.Finds` says of each check alone
which words fail it and which fault that is, whatever else is wrong with them. What is reported of
words that are no command is what the first failing check finds: `ofWords_eq_error_iff`.
-/
namespace HackVm

/-- The first word of a command that has a segment and an index. -/
def IsAccess (word : String) : Prop := word = "push" ∨ word = "pop"

/-- What is checked of the words of a line. -/
inductive Check where
  /-- The first word is an operator, a push or a pop. -/
  | verbKnown
  /-- Nothing follows an operator. -/
  | operatorAlone
  /-- A push or pop has a second word. -/
  | segmentGiven
  /-- The second word is a segment. -/
  | segmentKnown
  /-- A push or pop has a third word. -/
  | indexGiven
  /-- The third word is an index. -/
  | indexValid
  /-- Nothing follows the index. -/
  | accessComplete
deriving DecidableEq, Repr

namespace Check

/-- The place of a check in the order of all checks. -/
def rank : Check → Nat
  | verbKnown => 0
  | operatorAlone => 1
  | segmentGiven => 2
  | segmentKnown => 3
  | indexGiven => 4
  | indexValid => 5
  | accessComplete => 6

/-- Checks of one rank are the same. -/
theorem rank_injective {left right : Check} (same : left.rank = right.rank) : left = right := by
  cases left <;> cases right <;> simp_all [rank]

/-- Words that fail a check, and the fault they then have. -/
inductive Finds : Check → List String → LineFault → Prop where
  /-- The first word is neither an operator nor a push nor a pop. -/
  | unknownCommand {verb : String} {rest : List String}
    (noOperator : ∀ operator : Operator, verb ≠ operator.name) (noAccess : ¬IsAccess verb) :
    Finds verbKnown (verb :: rest) (.unknownCommand verb)
  /-- There are words behind an operator. -/
  | behindOperator {verb second : String} {rest : List String} {operator : Operator}
    (named : verb = operator.name) :
    Finds operatorAlone (verb :: second :: rest)
      (.trailingInput (" ".intercalate (second :: rest)))
  /-- A push or pop is alone. -/
  | missingSegment {verb : String} (access : IsAccess verb) :
    Finds segmentGiven [verb] (.missingArgument verb .segment)
  /-- The second word of a push or pop is no segment, whatever follows it. -/
  | unknownSegment {verb second : String} {rest : List String} (access : IsAccess verb)
    (unknown : ∀ segment : Segment, second ≠ segment.name) :
    Finds segmentKnown (verb :: second :: rest) (.unknownSegment second)
  /-- A push or pop has two words. -/
  | missingIndex {verb second : String} (access : IsAccess verb) :
    Finds indexGiven [verb, second] (.missingArgument (verb ++ " " ++ second) .index)
  /-- The third word of a push or pop is no index, whatever follows it. -/
  | badIndex {verb second third : String} {rest : List String} {segment : Segment}
    (access : IsAccess verb) (named : second = segment.name)
    (invalid : ∀ index, ¬IsIndex third.toList index) :
    Finds indexValid (verb :: second :: third :: rest) (.badIndex segment third)
  /-- There are words behind the third word of a push or pop. -/
  | behindIndex {verb second third fourth : String} {rest : List String}
    (access : IsAccess verb) :
    Finds accessComplete (verb :: second :: third :: fourth :: rest)
      (.trailingInput (" ".intercalate (fourth :: rest)))

end Check

/-- Words reach a check when they fail none before it. -/
def Check.Reached (check : Check) (words : List String) : Prop :=
  ∀ earlier : Check, earlier.rank < check.rank → ∀ fault, ¬earlier.Finds words fault

/-- The fault that the first failing check finds in words. -/
def FirstFault (words : List String) (fault : LineFault) : Prop :=
  ∃ check : Check, check.Reached words ∧ check.Finds words fault

/-- No operator is a push or a pop. -/
theorem not_isAccess_operator (operator : Operator) : ¬IsAccess operator.name := by
  cases operator <;> simp [IsAccess, Operator.name]

/-- Segments with one name are the same. -/
theorem Segment.name_injective {left right : Segment} (same : left.name = right.name) :
    left = right := by
  have found : Segment.ofName? left.name = some right := Segment.ofName?_eq_some_iff.mpr same
  have also : Segment.ofName? left.name = some left := Segment.ofName?_eq_some_iff.mpr rfl
  rw [also] at found
  exact Option.some.inj found

/-- A check finds one fault only. -/
theorem Check.Finds.unique {check : Check} {words : List String} {fault other : LineFault}
    (one : check.Finds words fault) (also : check.Finds words other) : fault = other := by
  cases one with
  | badIndex access named invalid =>
    cases also with
    | badIndex access' named' invalid' =>
      rw [Segment.name_injective (named.symm.trans named')]
  | unknownCommand | behindOperator | missingSegment | unknownSegment | missingIndex
  | behindIndex =>
    cases also
    rfl

/-- Words have one first fault only. -/
theorem FirstFault.unique {words : List String} {fault other : LineFault}
    (one : FirstFault words fault) (also : FirstFault words other) : fault = other := by
  obtain ⟨left, reached, found⟩ := one
  obtain ⟨right, reached', found'⟩ := also
  have notLess : ¬left.rank < right.rank := fun less => reached' left less fault found
  have notGreater : ¬right.rank < left.rank := fun less => reached right less other found'
  have same : left = right := Check.rank_injective (by omega)
  subst same
  exact found.unique found'

/-- Words that pass a check reach the next one. -/
theorem Check.Reached.next {check next : Check} {words : List String}
    (reached : check.Reached words) (follows : next.rank = check.rank + 1)
    (passed : ∀ fault, ¬check.Finds words fault) : next.Reached words := by
  intro earlier less
  by_cases here : earlier = check
  · rw [here]
    exact passed
  · have apart : earlier.rank ≠ check.rank := fun same => here (Check.rank_injective same)
    exact reached earlier (by omega)

/-- All words reach the first check. -/
theorem reached_verbKnown (words : List String) : Check.verbKnown.Reached words :=
  fun _ less => absurd less (Nat.not_lt_zero _)

variable {verb : String} {rest : List String} {fault : LineFault}

/-- A push or pop passes the checks of the first word. -/
theorem reached_segmentGiven (access : IsAccess verb) :
    Check.segmentGiven.Reached (verb :: rest) := by
  have known : Check.operatorAlone.Reached (verb :: rest) := by
    refine (reached_verbKnown _).next rfl fun fault found => ?_
    cases found with
    | unknownCommand noOperator noAccess => exact noAccess access
  refine known.next rfl fun fault found => ?_
  cases found with
  | behindOperator named => exact not_isAccess_operator _ (named ▸ access)

/-- What is wrong with the words behind a push or pop is the first fault of the line. -/
theorem firstFault_of_readAccess (access : IsAccess verb)
    (read : readAccess verb rest = .error fault) : FirstFault (verb :: rest) fault := by
  have begun : Check.segmentGiven.Reached (verb :: rest) := reached_segmentGiven access
  cases rest with
  | nil =>
    obtain rfl := Except.error.inj read
    exact ⟨_, begun, .missingSegment access⟩
  | cons second others =>
    have given : Check.segmentKnown.Reached (verb :: second :: others) :=
      begun.next rfl fun _ found => by cases found
    rw [readAccess] at read
    cases named : Segment.ofName? second with
    | none =>
      simp only [named, Except.error.injEq] at read
      have unknown : ∀ segment : Segment, second ≠ segment.name := by
        intro segment same
        rw [Segment.ofName?_eq_some_iff.mpr same] at named
        contradiction
      exact ⟨_, given, read ▸ .unknownSegment access unknown⟩
    | some segment =>
      have spelled : second = segment.name := Segment.ofName?_eq_some_iff.mp named
      have known : Check.indexGiven.Reached (verb :: second :: others) := by
        refine given.next rfl fun fault found => ?_
        cases found with
        | unknownSegment _ unknown => exact unknown segment spelled
      cases others with
      | nil =>
        simp only [named, Except.error.injEq, ← spelled] at read
        exact ⟨_, known, read ▸ .missingIndex access⟩
      | cons third later =>
        have present : Check.indexValid.Reached (verb :: second :: third :: later) :=
          known.next rfl fun _ found => by cases found
        cases counted : readIndex? third with
        | none =>
          simp only [named, counted, Except.error.injEq] at read
          have invalid : ∀ index, ¬IsIndex third.toList index := by
            intro index valid
            rw [readIndex?_eq_some_iff_isIndex.mpr valid] at counted
            contradiction
          exact ⟨_, present, read ▸ .badIndex access spelled invalid⟩
        | some index =>
          have complete : Check.accessComplete.Reached (verb :: second :: third :: later) := by
            refine present.next rfl fun fault found => ?_
            cases found with
            | badIndex _ _ invalid =>
              exact invalid index (readIndex?_eq_some_iff_isIndex.mp counted)
          simp only [named, counted] at read
          cases later with
          | nil => simp at read
          | cons fourth more =>
            simp only [reduceCtorEq, ↓reduceIte, Except.error.injEq] at read
            exact ⟨_, complete, read ▸ .behindIndex access⟩

/-- A step that fails when its result is turned into another fails before. -/
theorem error_of_map {α β : Type} {result : Except LineFault α} {turn : α → β}
    (failed : result.map turn = .error fault) : result = .error fault := by
  cases result with
  | error other => exact congrArg Except.error (Except.error.inj failed)
  | ok value => contradiction

/-- Words that are no command have the fault that is reported as their first. -/
theorem firstFault_of_ofWords {words : List String} (read : Command.ofWords words = .error fault) :
    FirstFault words fault := by
  cases words with
  | nil => contradiction
  | cons verb rest =>
    rw [Command.ofWords] at read
    cases named : Operator.ofName? verb with
    | some operator =>
      have spelled : verb = operator.name := Operator.ofName?_eq_some_iff.mp named
      have known : Check.operatorAlone.Reached (verb :: rest) := by
        refine (reached_verbKnown _).next rfl fun fault found => ?_
        cases found with
        | unknownCommand noOperator => exact noOperator operator spelled
      simp only [named] at read
      cases rest with
      | nil => simp at read
      | cons second others =>
        simp only [reduceCtorEq, ↓reduceIte, Except.error.injEq] at read
        exact ⟨_, known, read ▸ .behindOperator spelled⟩
    | none =>
      have noOperator : ∀ operator : Operator, verb ≠ operator.name := by
        intro operator same
        rw [Operator.ofName?_eq_some_iff.mpr same] at named
        contradiction
      simp only [named] at read
      by_cases access : IsAccess verb
      · have failed : readAccess verb rest = .error fault := by
          rcases access with rfl | rfl
          · exact error_of_map read
          · exact error_of_map read
        exact firstFault_of_readAccess access failed
      · have noPush : verb ≠ "push" := fun same => access (.inl same)
        have noPop : verb ≠ "pop" := fun same => access (.inr same)
        rw [if_neg noPush, if_neg noPop, Except.error.injEq] at read
        exact ⟨_, reached_verbKnown _, read ▸ .unknownCommand noOperator access⟩

/-- A push or pop with a segment and an index fails no check. -/
theorem not_finds_access {check : Check} {segment : Segment} {digits : String} {index : Nat}
    (access : IsAccess verb) (counted : IsIndex digits.toList index) :
    ¬check.Finds [verb, segment.name, digits] fault := by
  intro found
  cases found with
  | unknownCommand noOperator noAccess => exact noAccess access
  | behindOperator named => exact not_isAccess_operator _ (named ▸ access)
  | unknownSegment _ unknown => exact unknown segment rfl
  | badIndex _ _ invalid => exact invalid index counted

/-- Words that are a command, or none, fail no check. -/
theorem not_finds_of_ofWords {check : Check} {words : List String} {command? : Option Command}
    (read : Command.ofWords words = .ok command?) : ¬check.Finds words fault := by
  have spelled := ofWords_eq_ok_iff.mp read
  match command? with
  | none =>
    subst spelled
    exact fun found => by cases found
  | some (.arithmetic operator) =>
    subst spelled
    intro found
    cases found with
    | unknownCommand noOperator => exact noOperator operator rfl
    | missingSegment access => exact not_isAccess_operator operator access
  | some (.push segment index) =>
    obtain ⟨digits, rfl, counted⟩ := spelled
    exact not_finds_access (.inl rfl) (readIndex?_eq_some_iff_isIndex.mp counted)
  | some (.pop segment index) =>
    obtain ⟨digits, rfl, counted⟩ := spelled
    exact not_finds_access (.inr rfl) (readIndex?_eq_some_iff_isIndex.mp counted)

/-- Words are no command exactly when they fail a check, and the fault that is reported is what the
first failing check finds. -/
theorem ofWords_eq_error_iff {words : List String} :
    Command.ofWords words = .error fault ↔ FirstFault words fault := by
  constructor
  · exact firstFault_of_ofWords
  · intro first
    cases read : Command.ofWords words with
    | error other => rw [first.unique (firstFault_of_ofWords read)]
    | ok command? =>
      obtain ⟨check, -, found⟩ := first
      exact absurd found (not_finds_of_ofWords read)

/-- A numbered line fails exactly when its words do, with its number. -/
theorem parseLine_eq_error_iff {raw : String} {line : Nat} {error : SourceError} :
    parseLine raw line = .error error ↔
      ∃ fault, Command.ofWords (lineWords raw) = .error fault ∧
        error = ⟨line, .malformed fault⟩ := by
  rw [parseLine, Command.ofLine]
  cases Command.ofWords (lineWords raw) with
  | ok command? => simp [Except.mapError]
  | error fault => simp [Except.mapError, eq_comm]

/-- A line fails exactly when a check of the words of its code fails, each word in lowercase. The
error has the number of the line and the fault that the first failing check finds. -/
theorem leftmost_fault_is_reported (raw : String) (line : Nat) :
    (∃ code, Uncommented raw.toList code) ∧
      ∀ code, Uncommented raw.toList code → ∀ error,
        parseLine raw line = .error error ↔
          ∃ fault, FirstFault ((Text.words code).map (String.ofList ∘ Text.lowercase)) fault ∧
            error = ⟨line, .malformed fault⟩ := by
  refine ⟨⟨_, uncommented_codePart raw.toList⟩, ?_⟩
  intro code cut error
  have same : code = codePart raw.toList := cut.unique (uncommented_codePart raw.toList)
  rw [same, ← lineWords_eq, parseLine_eq_error_iff]
  simp only [ofWords_eq_error_iff]

/-- An index that is too great is named before the word behind it. -/
theorem great_index_before_trailing_word :
    parseLine "POP Local 32768 X // y" 4 =
      .error ⟨4, .malformed (.badIndex .locals "32768")⟩ := by
  have cut := uncommented_codePart "POP Local 32768 X // y".toList
  have words : (Text.words (codePart "POP Local 32768 X // y".toList)).map
      (String.ofList ∘ Text.lowercase) = ["pop", "local", "32768", "x"] := by decide +kernel
  have first : FirstFault ["pop", "local", "32768", "x"] (.badIndex .locals "32768") :=
    ofWords_eq_error_iff.mp (by decide)
  have told := ((leftmost_fault_is_reported _ 4).2 _ cut _).mpr ⟨_, words ▸ first, rfl⟩
  exact told

end HackVm
