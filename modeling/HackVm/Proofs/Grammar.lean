import HackVm.Proofs.Text.Lowering
import HackVm.Source.Error
import Mathlib.Data.List.TakeWhile

/-!
# The grammar of lines

Which lines are commands, said of the line as it is written. The code of a line is what stands
before its first `//`, and its words are the runs of characters that are no blanks. `Writes` lists
the words that write a command: names count up to the case of ASCII letters, an index is a string of
ASCII digits. Lines are read after lowercasing by the full Unicode mapping, but that makes no word a
name or an index that was not one before, so `parseLine_accepts_exactly` needs no mention of it.
-/
namespace HackVm

open Text

/-- The code of a line is what stands before its first `//`, or all of a line without one. -/
def Uncommented (line code : List Char) : Prop :=
  (code = line ∧ ¬['/', '/'] <:+: line) ∨
    (∃ comment, line = code ++ '/' :: '/' :: comment) ∧ ¬['/', '/'] <:+: code ++ ['/']

/-- Two slashes in a line are at its beginning or behind its first character. -/
theorem slashes_infix_cons {char : Char} {rest : List Char}
    (apart : ∀ tail, char = '/' → rest = '/' :: tail → False)
    (later : ¬['/', '/'] <:+: rest) : ¬['/', '/'] <:+: char :: rest := by
  intro found
  rcases List.infix_cons_iff.mp found with begins | behind
  · obtain ⟨tail, parts⟩ := begins
    rw [List.cons_append, List.cons_append, List.nil_append] at parts
    obtain ⟨slash, next⟩ := List.cons.inj parts
    exact apart tail slash.symm next.symm
  · exact later behind

/-- The code part of a line is its code. -/
theorem uncommented_codePart (line : List Char) : Uncommented line (codePart line) := by
  fun_induction codePart line with
  | case1 => exact .inl ⟨rfl, by decide⟩
  | case2 comment => exact .inr ⟨⟨comment, rfl⟩, by decide⟩
  | case3 char rest apart ih =>
    rcases ih with ⟨same, none⟩ | ⟨⟨comment, parts⟩, none⟩
    · exact .inl ⟨by rw [same], slashes_infix_cons apart none⟩
    · refine .inr ⟨⟨comment, by rw [List.cons_append, ← parts]⟩, ?_⟩
      rw [List.cons_append]
      refine slashes_infix_cons ?_ none
      intro tail slash next
      -- The code would begin with the second slash, and so would the line.
      cases front : codePart rest with
      | nil =>
        rw [front] at parts
        exact apart _ slash parts
      | cons first others =>
        rw [front, List.cons_append] at next parts
        obtain ⟨rfl, -⟩ := List.cons.inj next
        exact apart _ slash parts

/-- Code that is cut off at two slashes is no longer than other code. -/
theorem Uncommented.append_eq {code other comment rest : List Char}
    (same : code ++ '/' :: '/' :: comment = other ++ '/' :: '/' :: rest)
    (first : ¬['/', '/'] <:+: other ++ ['/']) : ∃ more, code = other ++ more := by
  rcases List.append_eq_append_iff.mp same with ⟨more, longer, tail⟩ | ⟨more, longer, -⟩
  · -- The slashes behind the shorter code would stand in the longer one.
    match more with
    | [] => exact ⟨[], by rw [longer, List.append_nil, List.append_nil]⟩
    | [char] =>
      obtain ⟨rfl, -⟩ := List.cons.inj tail
      exact absurd ⟨code, [], by simp [longer]⟩ first
    | char :: next :: others =>
      obtain ⟨rfl, later⟩ := List.cons.inj tail
      obtain ⟨rfl, -⟩ := List.cons.inj later
      exact absurd ⟨code, others ++ ['/'], by simp [longer]⟩ first
  · exact ⟨more, longer⟩

/-- A line has one code only. -/
theorem Uncommented.unique {line code other : List Char} (one : Uncommented line code)
    (also : Uncommented line other) : code = other := by
  rcases one with ⟨rfl, none⟩ | ⟨⟨comment, rfl⟩, first⟩
  · rcases also with ⟨rfl, -⟩ | ⟨⟨comment, parts⟩, -⟩
    · rfl
    · exact absurd ⟨other, comment, by simp [parts]⟩ none
  · rcases also with ⟨rfl, none⟩ | ⟨⟨rest, parts⟩, last⟩
    · exact absurd ⟨code, comment, by simp⟩ none
    · obtain ⟨more, longer⟩ := Uncommented.append_eq parts last
      obtain ⟨less, shorter⟩ := Uncommented.append_eq parts.symm first
      rw [shorter, List.append_assoc] at longer
      have empty : less ++ more = [] := List.append_right_eq_self.mp longer.symm
      rw [shorter, (List.append_eq_nil_iff.mp empty).1, List.append_nil]

/-- A line without a slash is all code. -/
theorem codePart_of_notMem {line : List Char} (slashless : '/' ∉ line) : codePart line = line := by
  refine (uncommented_codePart line).unique (.inl ⟨rfl, ?_⟩)
  intro slashes
  exact slashless (slashes.subset List.mem_cons_self)

/-- A character that is no slash keeps the slashes before it apart from those behind it. -/
theorem codePart_append_cons {char : Char} (apart : char ≠ '/') (front back : List Char) :
    codePart front = front ∧ codePart (front ++ char :: back) = front ++ char :: codePart back ∨
      codePart front ≠ front ∧ codePart (front ++ char :: back) = codePart front := by
  fun_induction codePart front with
  | case1 =>
    refine .inl ⟨rfl, ?_⟩
    rw [List.nil_append, codePart, List.nil_append]
    exact fun _ slash _ => apart slash
  | case2 comment => exact .inr ⟨(List.cons_ne_nil _ _).symm, rfl⟩
  | case3 first rest single ih =>
    have kept : codePart (first :: (rest ++ char :: back)) =
        first :: codePart (rest ++ char :: back) := by
      rw [codePart]
      intro tail slash next
      cases rest with
      | nil => exact apart (List.cons.inj next).1
      | cons second others =>
        obtain ⟨rfl, -⟩ := List.cons.inj next
        exact single others slash rfl
    rw [List.cons_append, kept]
    rcases ih with ⟨same, longer⟩ | ⟨shorter, cut⟩
    · exact .inl ⟨by rw [same], by rw [longer, List.cons_append]⟩
    · exact .inr ⟨by simpa using shorter, by rw [cut]⟩

/-- The words before the first comment among words, cut off where it begins. -/
def uncommentedWords : List (List Char) → List (List Char)
  | [] => []
  | word :: rest =>
    if codePart word = word then word :: uncommentedWords rest else words (codePart word)

/-- The words of the code of a line are decided by the words of the line, as a comment does not
begin with a blank. -/
theorem words_codePart (line : List Char) :
    words (codePart line) = uncommentedWords (words line) := by
  cases found : line.find? isBlank with
  | none =>
    have solid : ∀ char ∈ line, isBlank char = false := by simpa using found
    by_cases empty : line = []
    · rw [empty]
      rfl
    · rw [words_eq_singleton empty solid, uncommentedWords, uncommentedWords]
      split
      · rename_i whole
        rw [whole, words_eq_singleton empty solid]
      · rfl
  | some blank =>
    -- The first blank parts the first word from a shorter line.
    obtain ⟨separates, front, back, rfl, solid⟩ := List.find?_eq_some_iff_append.mp found
    have apart : blank ≠ '/' := by
      rintro rfl
      revert separates
      decide
    have later := words_codePart back
    have word : ∀ char ∈ front, isBlank char = false := by simpa using solid
    rw [words_append_blank _ _ separates]
    by_cases empty : front = []
    · subst empty
      obtain ⟨-, kept⟩ | ⟨cut, -⟩ := codePart_append_cons apart [] back
      · rw [kept, words_append_blank _ _ separates, later, words_nil, List.nil_append,
          List.nil_append]
      · exact absurd rfl cut
    · rw [words_eq_singleton empty word, List.singleton_append, uncommentedWords]
      obtain ⟨whole, kept⟩ | ⟨commented, cut⟩ := codePart_append_cons apart front back
      · rw [if_pos whole, kept, words_append_blank _ _ separates, later,
          words_eq_singleton empty word, List.singleton_append]
      · rw [if_neg commented, cut]
termination_by line.length

/-- A word is a name up to the case of ASCII letters. -/
def Alike (word : List Char) (name : String) : Prop :=
  word.map Char.toLower = name.toList.map Char.toLower

/-- Whether a word is a name can be computed. -/
instance (word : List Char) (name : String) : Decidable (Alike word name) :=
  inferInstanceAs (Decidable (_ = _))

/-- A word is an index: ASCII digits whose value can be loaded. -/
def IsIndex (word : List Char) (index : Nat) : Prop :=
  word ≠ [] ∧ (∀ char ∈ word, char.isDigit = true) ∧ Nat.ofDigitChars 10 word 0 = index ∧
    index ≤ 32767

/-- The words that write a command, and no words, which write none. -/
inductive Writes : List (List Char) → Option Command → Prop where
  /-- No words write no command. -/
  | nothing : Writes [] none
  /-- An operator is its name. -/
  | arithmetic {word : List Char} {operator : Operator} (named : Alike word operator.name) :
    Writes [word] (some (.arithmetic operator))
  /-- A push is its name, a segment and an index. -/
  | push {verb word digits : List Char} {segment : Segment} {index : Nat}
    (named : Alike verb "push") (into : Alike word segment.name) (counted : IsIndex digits index) :
    Writes [verb, word, digits] (some (.push segment index))
  /-- A pop is its name, a segment and an index. -/
  | pop {verb word digits : List Char} {segment : Segment} {index : Nat}
    (named : Alike verb "pop") (into : Alike word segment.name) (counted : IsIndex digits index) :
    Writes [verb, word, digits] (some (.pop segment index))

/-- A name is a keyword when it is plain and in small letters. -/
structure Keyword (name : String) : Prop where
  /-- Its characters are in ASCII and none is a `k`. -/
  letters : name.toList.all (fun char => char.toNat < 128 && char != 'k') = true
  /-- It has no capitals. -/
  lower : name.toList.map Char.toLower = name.toList

/-- The characters of a keyword are plain. -/
theorem Keyword.plain {name : String} (keyword : Keyword name) :
    ∀ char ∈ name.toList, Plain char := by
  intro char listed
  have letter := List.all_eq_true.mp keyword.letters char listed
  rw [Bool.and_eq_true, decide_eq_true_iff, bne_iff_ne] at letter
  exact letter

/-- The names of operators are keywords. -/
theorem keyword_operator (operator : Operator) : Keyword operator.name := by
  cases operator <;> exact ⟨by decide, by decide⟩

/-- The names of segments are keywords. -/
theorem keyword_segment (segment : Segment) : Keyword segment.name := by
  cases segment <;> exact ⟨by decide, by decide⟩

/-- The word for a push is a keyword. -/
theorem keyword_push : Keyword "push" := ⟨by decide, by decide⟩

/-- The word for a pop is a keyword. -/
theorem keyword_pop : Keyword "pop" := ⟨by decide, by decide⟩

variable {word small : List Char}

/-- A word becomes a keyword exactly when it is the keyword up to the case of ASCII letters. -/
theorem ofList_eq_iff_alike (lowers : Lowering word small) {name : String}
    (keyword : Keyword name) : String.ofList small = name ↔ Alike word name := by
  have listed : String.ofList small = name ↔ small = name.toList := by
    constructor
    · rintro rfl
      exact String.toList_ofList.symm
    · rintro rfl
      exact String.ofList_toList
  rw [listed, Alike, keyword.lower]
  exact lowering_eq_iff lowers keyword.plain

/-- A digit is plain. -/
theorem plain_of_isDigit {char : Char} (digit : char.isDigit = true) : Plain char := by
  have most : char.toNat ≤ 57 := (Char.isDigit_iff_toNat.mp digit).2
  refine ⟨by omega, ?_⟩
  rintro rfl
  revert digit
  decide

/-- A digit is its own small letter, and that of no other character. -/
theorem toLower_of_isDigit {char : Char}
    (digit : char.isDigit = true ∨ char.toLower.isDigit = true) : char.toLower = char := by
  have known : ∀ code < 128,
      (Char.ofNat code).isDigit = true ∨ (Char.ofNat code).toLower.isDigit = true →
        (Char.ofNat code).toLower = Char.ofNat code := by
    decide +kernel
  have ascii : char.toNat < 128 := by
    rcases digit with here | lowered
    · exact (plain_of_isDigit here).1
    · exact ascii_of_toLower (plain_of_isDigit lowered).1
  have same := known char.toNat ascii
  rw [Char.ofNat_toNat] at same
  exact same digit

/-- Digits stay as they are, and nothing else becomes digits. -/
theorem eq_of_digits (lowers : Lowering word small)
    (digits : (∀ char ∈ word, char.isDigit = true) ∨ ∀ char ∈ small, char.isDigit = true) :
    small = word := by
  have ascii : ∀ char ∈ word, char.toNat < 128 := by
    rcases digits with before | after
    · exact fun char listed => (plain_of_isDigit (before char listed)).1
    · exact ascii_of_lowering lowers fun char listed => plain_of_isDigit (after char listed)
  have lowered := eq_map_of_lowering lowers ascii
  have same : word.map Char.toLower = word.map id := by
    refine List.map_congr_left fun char listed => toLower_of_isDigit ?_
    rcases digits with before | after
    · exact .inl (before char listed)
    · refine .inr (after _ ?_)
      rw [lowered]
      exact List.mem_map_of_mem listed
  rw [lowered, same, List.map_id]

/-- A word of digits, and no other, is taken whole as it is. -/
theorem whole_digits_eq_some_iff {word : String} {taken : List Char} :
    WordReader.digits.whole word = some taken ↔
      taken = word.toList ∧ word.toList ≠ [] ∧ ∀ char ∈ word.toList, char.isDigit = true := by
  rw [WordReader.whole, WordReader.digits]
  by_cases decimal : ∀ char ∈ word.toList, char.isDigit = true
  · rw [List.takeWhile_eq_self_iff.mpr decimal, List.dropWhile_eq_nil_iff.mpr decimal]
    by_cases empty : word.toList = []
    · simp [empty]
    · rw [if_neg empty]
      simp only [Option.some.injEq]
      exact ⟨fun same => ⟨same.symm, empty, decimal⟩, fun same => same.1.symm⟩
  · have left : word.toList.dropWhile Char.isDigit ≠ [] := mt List.dropWhile_eq_nil_iff.mp decimal
    obtain ⟨first, more, rest⟩ := List.exists_cons_of_ne_nil left
    refine iff_of_false ?_ fun valid => decimal valid.2.2
    rw [rest]
    by_cases none : word.toList.takeWhile Char.isDigit = [] <;> simp [none]

/-- A word is read as an index exactly when it is one. -/
theorem readIndex?_eq_some_iff_isIndex {digits : String} {index : Nat} :
    readIndex? digits = some index ↔ IsIndex digits.toList index := by
  rw [readIndex?, WordReader.whole_verify, WordReader.whole_convert, Option.filter_eq_some_iff,
    Option.bind_eq_some_iff]
  simp only [whole_digits_eq_some_iff, decide_eq_true_eq]
  have number := foldlM_appendDigit digits.toList (Nat.zero_lt_succ 65535)
  have bound : maxIndex < 65536 := by decide
  constructor
  · rintro ⟨⟨taken, ⟨rfl, nonempty, decimal⟩, read⟩, most⟩
    rw [readNumber?, number] at read
    split at read
    · obtain rfl := Option.some.inj read
      exact ⟨nonempty, decimal, rfl, most⟩
    · contradiction
  · rintro ⟨nonempty, decimal, rfl, most⟩
    refine ⟨⟨digits.toList, ⟨rfl, nonempty, decimal⟩, ?_⟩, most⟩
    rw [readNumber?, number]
    exact if_pos (Nat.lt_of_le_of_lt most bound)

/-- A word is read as an index after lowercasing exactly when it is one before. -/
theorem readIndex?_eq_some_iff (lowers : Lowering word small) {index : Nat} :
    readIndex? (String.ofList small) = some index ↔ IsIndex word index := by
  rw [readIndex?_eq_some_iff_isIndex, String.toList_ofList]
  constructor
  · intro counted
    have same : small = word := eq_of_digits lowers (.inr counted.2.1)
    exact same ▸ counted
  · intro counted
    have same : small = word := eq_of_digits lowers (.inl counted.2.1)
    exact same ▸ counted

/-- The segment and the index of a push or pop are read from exactly two words. -/
theorem readAccess_eq_ok_iff {verb : String} {words : List String} {segment : Segment}
    {index : Nat} :
    readAccess verb words = .ok (segment, index) ↔
      ∃ digits, words = [segment.name, digits] ∧ readIndex? digits = some index := by
  constructor
  · intro read
    match words with
    | [] => contradiction
    | second :: others =>
      rw [readAccess] at read
      cases named : Segment.ofName? second with
      | none => simp [named] at read
      | some found =>
        obtain rfl := Segment.ofName?_eq_some_iff.mp named
        match others with
        | [] => simp [named] at read
        | third :: rest =>
          cases counted : readIndex? third with
          | none => simp [named, counted] at read
          | some number =>
            simp only [named, counted] at read
            split at read
            · rename_i nothing
              obtain ⟨rfl, rfl⟩ := Prod.mk.inj (Except.ok.inj read)
              exact ⟨third, by rw [nothing], counted⟩
            · contradiction
  · rintro ⟨digits, rfl, counted⟩
    have named : Segment.ofName? segment.name = some segment :=
      Segment.ofName?_eq_some_iff.mpr rfl
    simp [readAccess, named, counted]

/-- A command made of a segment and an index is read from exactly two words. -/
theorem map_readAccess_eq_ok_iff {verb : String} {words : List String}
    {make : Segment × Nat → Option Command} {command? : Option Command} :
    (readAccess verb words).map make = .ok command? ↔
      ∃ segment index digits, words = [segment.name, digits] ∧
        readIndex? digits = some index ∧ make (segment, index) = command? := by
  constructor
  · intro read
    cases access : readAccess verb words with
    | error fault => simp [access, Except.map] at read
    | ok found =>
      obtain ⟨segment, index⟩ := found
      simp only [access, Except.map, Except.ok.injEq] at read
      obtain ⟨digits, parts, counted⟩ := readAccess_eq_ok_iff.mp access
      exact ⟨segment, index, digits, parts, counted, read⟩
  · rintro ⟨segment, index, digits, rfl, counted, rfl⟩
    have access : readAccess verb [segment.name, digits] = .ok (segment, index) :=
      readAccess_eq_ok_iff.mpr ⟨digits, rfl, counted⟩
    rw [access]
    rfl

/-- The words that are read as a command, after lowercasing. -/
theorem ofWords_eq_ok_iff {words : List String} {command? : Option Command} :
    Command.ofWords words = .ok command? ↔
      match command? with
      | none => words = []
      | some (.arithmetic operator) => words = [operator.name]
      | some (.push segment index) =>
        ∃ digits, words = ["push", segment.name, digits] ∧ readIndex? digits = some index
      | some (.pop segment index) =>
        ∃ digits, words = ["pop", segment.name, digits] ∧ readIndex? digits = some index := by
  constructor
  · intro read
    match words with
    | [] =>
      obtain rfl := Except.ok.inj read
      rfl
    | verb :: rest =>
      rw [Command.ofWords] at read
      cases named : Operator.ofName? verb with
      | some operator =>
        obtain rfl := Operator.ofName?_eq_some_iff.mp named
        simp only [named] at read
        split at read
        · rename_i nothing
          obtain rfl := Except.ok.inj read
          rw [nothing]
        · contradiction
      | none =>
        simp only [named] at read
        split at read
        · rename_i isPush
          obtain ⟨segment, index, digits, parts, counted, rfl⟩ := map_readAccess_eq_ok_iff.mp read
          exact ⟨digits, by rw [isPush, parts], counted⟩
        · split at read
          · rename_i isPop
            obtain ⟨segment, index, digits, parts, counted, rfl⟩ :=
              map_readAccess_eq_ok_iff.mp read
            exact ⟨digits, by rw [isPop, parts], counted⟩
          · contradiction
  · intro spelled
    match command? with
    | none =>
      obtain rfl := spelled
      rfl
    | some (.arithmetic operator) =>
      obtain rfl := spelled
      simp [Command.ofWords, Operator.ofName?_eq_some_iff.mpr rfl]
    | some (.push segment index) =>
      obtain ⟨digits, rfl, counted⟩ := spelled
      have noOperator : Operator.ofName? "push" = none := by decide
      rw [Command.ofWords, noOperator]
      exact map_readAccess_eq_ok_iff.mpr ⟨segment, index, digits, rfl, counted, rfl⟩
    | some (.pop segment index) =>
      obtain ⟨digits, rfl, counted⟩ := spelled
      have noOperator : Operator.ofName? "pop" = none := by decide
      rw [Command.ofWords, noOperator]
      exact map_readAccess_eq_ok_iff.mpr ⟨segment, index, digits, rfl, counted, rfl⟩

/-- A word that is followed by words for a segment and an index, before and after lowercasing. -/
theorem access_iff {words smalls : List (List Char)} (lowers : List.Forall₂ Lowering words smalls)
    {verb : String} (keyword : Keyword verb) {segment : Segment} {index : Nat} :
    (∃ digits, smalls.map String.ofList = [verb, segment.name, digits] ∧
        readIndex? digits = some index) ↔
      ∃ first second digits, words = [first, second, digits] ∧ Alike first verb ∧
        Alike second segment.name ∧ IsIndex digits index := by
  constructor
  · rintro ⟨digits, spelled, counted⟩
    match lowers with
    | .nil => contradiction
    | .cons _ .nil => simp at spelled
    | .cons _ (.cons _ .nil) => simp at spelled
    | .cons one (.cons two (.cons three .nil)) =>
      simp only [List.map_cons, List.map_nil, List.cons.injEq, and_true] at spelled
      obtain ⟨isVerb, isSegment, rfl⟩ := spelled
      exact ⟨_, _, _, rfl, (ofList_eq_iff_alike one keyword).mp isVerb,
        (ofList_eq_iff_alike two (keyword_segment segment)).mp isSegment,
        (readIndex?_eq_some_iff three).mp counted⟩
    | .cons _ (.cons _ (.cons _ (.cons _ _))) => simp at spelled
  · rintro ⟨first, second, digits, rfl, isVerb, isSegment, counted⟩
    match lowers with
    | .cons one (.cons two (.cons three .nil)) =>
      refine ⟨_, ?_, (readIndex?_eq_some_iff three).mpr counted⟩
      rw [List.map_cons, List.map_cons, List.map_cons, List.map_nil,
        (ofList_eq_iff_alike one keyword).mpr isVerb,
        (ofList_eq_iff_alike two (keyword_segment segment)).mpr isSegment]

/-- The words of a line are read as a command exactly when they write it. -/
theorem ofWords_eq_ok_iff_writes {words smalls : List (List Char)}
    (lowers : List.Forall₂ Lowering words smalls) {command? : Option Command} :
    Command.ofWords (smalls.map String.ofList) = .ok command? ↔ Writes words command? := by
  rw [ofWords_eq_ok_iff]
  match command? with
  | none =>
    constructor
    · intro nothing
      obtain rfl := List.map_eq_nil_iff.mp nothing
      cases lowers
      exact .nothing
    · intro written
      cases written
      cases lowers
      rfl
  | some (.arithmetic operator) =>
    constructor
    · intro spelled
      match lowers with
      | .nil => contradiction
      | .cons one .nil =>
        have named := (List.cons.inj spelled).1
        exact .arithmetic ((ofList_eq_iff_alike one (keyword_operator operator)).mp named)
      | .cons _ (.cons _ _) => simp at spelled
    · intro written
      cases written with
      | arithmetic named =>
        match lowers with
        | .cons one .nil =>
          have spelled := (ofList_eq_iff_alike one (keyword_operator operator)).mpr named
          exact congrArg (fun name => [name]) spelled
  | some (.push segment index) =>
    refine (access_iff lowers keyword_push).trans ⟨?_, ?_⟩
    · rintro ⟨first, second, digits, rfl, named, into, counted⟩
      exact .push named into counted
    · intro written
      cases written with
      | push named into counted => exact ⟨_, _, _, rfl, named, into, counted⟩
  | some (.pop segment index) =>
    refine (access_iff lowers keyword_pop).trans ⟨?_, ?_⟩
    · rintro ⟨first, second, digits, rfl, named, into, counted⟩
      exact .pop named into counted
    · intro written
      cases written with
      | pop named into counted => exact ⟨_, _, _, rfl, named, into, counted⟩

/-- A line is a command exactly when the words of its code write it. -/
theorem ofLine_eq_ok_iff_writes {raw : String} {command? : Option Command} :
    Command.ofLine raw = .ok command? ↔ Writes (words (codePart raw.toList)) command? := by
  have lowers : List.Forall₂ Lowering (words (codePart raw.toList))
      (words (lowercase (codePart raw.toList))) :=
    words_lowering (lowering_lowercaseFrom false _)
  rw [← ofWords_eq_ok_iff_writes lowers, Command.ofLine, lineWords]

/-- A numbered line is read as a command exactly when the words of its code write it. -/
theorem parseLine_eq_ok_iff_writes {raw : String} {line : Nat} {command? : Option Command} :
    parseLine raw line = .ok command? ↔ Writes (words (codePart raw.toList)) command? := by
  rw [← ofLine_eq_ok_iff_writes, parseLine]
  cases Command.ofLine raw <;> simp [Except.mapError]

/-- A character that is no blank stands in a word. -/
theorem exists_word {char : Char} {chars : List Char} (listed : char ∈ chars)
    (solid : isBlank char = false) : ∃ word ∈ words chars, char ∈ word := by
  have inPiece : ∃ piece ∈ chars.splitOnP isBlank, char ∈ piece := by
    induction chars with
    | nil => contradiction
    | cons first rest ih =>
      obtain ⟨piece, pieces, split⟩ :=
        List.exists_cons_of_ne_nil (List.splitOnP_ne_nil isBlank rest)
      rw [List.splitOnP_cons_eq_if_modifyHead]
      rcases List.mem_cons.mp listed with rfl | behind
      · rw [solid, if_neg Bool.false_ne_true, split]
        exact ⟨char :: piece, List.mem_cons_self, List.mem_cons_self⟩
      · obtain ⟨found, among, inside⟩ := ih behind
        cases isBlank first with
        | true => exact ⟨found, List.mem_cons_of_mem [] among, inside⟩
        | false =>
          rw [if_neg Bool.false_ne_true]
          rw [split] at among ⊢
          rcases List.mem_cons.mp among with rfl | later
          · exact ⟨first :: found, List.mem_cons_self, List.mem_cons_of_mem first inside⟩
          · exact ⟨found, List.mem_cons_of_mem _ later, inside⟩
  obtain ⟨piece, among, inside⟩ := inPiece
  refine ⟨piece, List.mem_filter.mpr ⟨among, ?_⟩, inside⟩
  cases piece with
  | nil => contradiction
  | cons first rest => rfl

/-- A word that is like a keyword is in ASCII. -/
theorem ascii_of_alike {name : String} (keyword : Keyword name) (alike : Alike word name) :
    ∀ char ∈ word, char.toNat < 128 := by
  intro char listed
  have lowered : char.toLower ∈ word.map Char.toLower := List.mem_map_of_mem listed
  rw [alike, keyword.lower] at lowered
  exact ascii_of_toLower (keyword.plain _ lowered).1

/-- An index is in ASCII. -/
theorem ascii_of_isIndex {index : Nat} (counted : IsIndex word index) :
    ∀ char ∈ word, char.toNat < 128 :=
  fun char listed => (plain_of_isDigit (counted.2.1 char listed)).1

/-- Words that write a command are in ASCII. -/
theorem ascii_of_writes {words : List (List Char)} {command? : Option Command}
    (written : Writes words command?) : ∀ word ∈ words, ∀ char ∈ word, char.toNat < 128 := by
  cases written with
  | nothing => simp
  | @arithmetic word operator named =>
    simpa using ascii_of_alike (keyword_operator operator) named
  | @push verb word digits segment index named into counted =>
    simpa using ⟨ascii_of_alike keyword_push named, ascii_of_alike (keyword_segment segment) into,
      ascii_of_isIndex counted⟩
  | @pop verb word digits segment index named into counted =>
    simpa using ⟨ascii_of_alike keyword_pop named, ascii_of_alike (keyword_segment segment) into,
      ascii_of_isIndex counted⟩

/-- A word that is like a name without a slash has none. -/
theorem slash_notMem_of_alike {name : String} (slashless : '/' ∉ name.toList.map Char.toLower)
    (alike : Alike word name) : '/' ∉ word := by
  intro listed
  have lowered : '/'.toLower ∈ word.map Char.toLower := List.mem_map_of_mem listed
  rw [alike] at lowered
  exact slashless lowered

/-- Words that write a command have no slashes. -/
theorem slash_notMem_of_writes {words : List (List Char)} {command? : Option Command}
    (written : Writes words command?) : ∀ word ∈ words, '/' ∉ word := by
  have segments (segment : Segment) : '/' ∉ segment.name.toList.map Char.toLower := by
    cases segment <;> decide
  have index {digits : List Char} {index : Nat} (counted : IsIndex digits index) : '/' ∉ digits :=
    fun listed => absurd (counted.2.1 '/' listed) (by decide)
  cases written with
  | nothing => simp
  | @arithmetic word operator named =>
    have operators : '/' ∉ operator.name.toList.map Char.toLower := by
      cases operator <;> decide
    simpa using slash_notMem_of_alike operators named
  | @push verb word digits segment _ named into counted =>
    simpa using ⟨slash_notMem_of_alike (by decide) named,
      slash_notMem_of_alike (segments segment) into, index counted⟩
  | @pop verb word digits segment _ named into counted =>
    simpa using ⟨slash_notMem_of_alike (by decide) named,
      slash_notMem_of_alike (segments segment) into, index counted⟩

/-- A line is read exactly as the words of its code write it, and is an error if they write
nothing; in particular it is an error when its code has a character outside ASCII that is no
blank. -/
theorem parseLine_accepts_exactly (raw : String) (line : Nat) :
    (∃ code, Uncommented raw.toList code) ∧
      ∀ code, Uncommented raw.toList code →
        (∀ command?, parseLine raw line = .ok command? ↔ Writes (words code) command?) ∧
        ((∀ command?, ¬Writes (words code) command?) →
          ∃ error, parseLine raw line = .error error) ∧
        ((∃ char ∈ code, isBlank char = false ∧ 128 ≤ char.toNat) →
          ∃ error, parseLine raw line = .error error) := by
  refine ⟨⟨_, uncommented_codePart raw.toList⟩, ?_⟩
  intro code cut
  obtain rfl := cut.unique (uncommented_codePart raw.toList)
  have fails : (∀ command?, ¬Writes (words (codePart raw.toList)) command?) →
      ∃ error, parseLine raw line = .error error := by
    intro nothing
    cases parsed : parseLine raw line with
    | error error => exact ⟨error, rfl⟩
    | ok command? => exact absurd (parseLine_eq_ok_iff_writes.mp parsed) (nothing command?)
  refine ⟨fun _ => parseLine_eq_ok_iff_writes, fails, ?_⟩
  rintro ⟨char, listed, solid, great⟩
  apply fails
  intro command? written
  obtain ⟨word, among, inside⟩ := exists_word listed solid
  have small := ascii_of_writes written word among char inside
  omega

/-- Capitals, spaces, leading zeros and a comment do not matter. -/
theorem parseLine_push_in_capitals :
    parseLine "PUSH  Local 007 // x // y" 3 = .ok (some (.push .locals 7)) := by
  have cut := uncommented_codePart "PUSH  Local 007 // x // y".toList
  have listed : words (codePart "PUSH  Local 007 // x // y".toList) =
      ["PUSH".toList, "Local".toList, "007".toList] := by decide +kernel
  have counted : IsIndex "007".toList 7 :=
    ⟨by decide, List.all_eq_true.mp (by decide), by decide, by decide⟩
  have written : Writes (words (codePart "PUSH  Local 007 // x // y".toList))
      (some (.push .locals 7)) := by
    rw [listed]
    exact .push (by decide) (by decide) counted
  exact (((parseLine_accepts_exactly _ 3).2 _ cut).1 _).mpr written

end HackVm
