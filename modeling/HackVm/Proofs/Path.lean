import HackVm.Failure
import HackVm.Proofs.Source.LineEnding

/-!
# The output and the qualifier of a path

What a path names, said of its bytes. A part of a path between slashes is idle when it is empty or a
single dot; the last part that is not idle is the name of the path, unless it goes up. The stem of a
name ends before its last dot, if that is not the first byte. An output is found by cutting as many
bytes off the end of the path as the extension has, wherever these bytes stand: `names_cut` says
that this does no harm to the stem of the name, unless the cut leaves the name of the directory
above.
-/
namespace HackVm

/-- A member of a list stands in it a last time. -/
theorem exists_last_of_mem {α : Type} {value : α} {list : List α} (listed : value ∈ list) :
    ∃ front back, list = front ++ value :: back ∧ value ∉ back := by
  obtain ⟨early, late, parts, first⟩ := List.eq_append_cons_of_mem (List.mem_reverse.mpr listed)
  refine ⟨late.reverse, early.reverse, ?_, fun again => first (List.mem_reverse.mp again)⟩
  rw [← List.reverse_reverse list, parts]
  simp

/-- What is not in a list differs from all that is. -/
theorem bne_of_notMem {value : UInt8} {bytes : List UInt8} (absent : value ∉ bytes) :
    ∀ byte ∈ bytes.reverse, (byte != value) = true := by
  intro byte listed
  rw [bne_iff_ne]
  rintro rfl
  exact absent (List.mem_reverse.mp listed)

namespace Path

/-- All parts between slashes are empty or single dots. -/
def Idle (bytes : List UInt8) : Prop :=
  ∀ part ∈ bytes.splitOn slash, part = [] ∨ part = [dot]

/-- The last part of a path that is not idle, with the bytes before it and behind it. -/
structure LastPart (bytes before part after : List UInt8) : Prop where
  /-- The path is the part between what is before it and what is behind it. -/
  whole : bytes = before ++ part ++ after
  /-- The part begins the path or stands behind a slash. -/
  begins : before = [] ∨ ∃ front, before = front ++ [slash]
  /-- The part has no slash. -/
  solid : slash ∉ part
  /-- The part is not empty. -/
  nonempty : part ≠ []
  /-- The part is no single dot. -/
  notDot : part ≠ [dot]
  /-- Behind the part there is nothing, or there are idle parts. -/
  ends : after = [] ∨ ∃ rest, after = slash :: rest ∧ Idle rest

/-- The name of a path: its last part that is not idle, when that does not go up. -/
structure Names (path : Path) (before name after : List UInt8) : Prop where
  /-- The name is the last part that is not idle. -/
  last : LastPart path.bytes before name after
  /-- The name is not that of the directory above. -/
  notAbove : name ≠ above

/-- A path without a name: all its parts are idle, or the last that is not goes up. -/
def Nameless (path : Path) : Prop :=
  Idle path.bytes ∨ ∃ before after, LastPart path.bytes before above after

/-- The stem of a name is all of it when no dot follows its first byte, and otherwise what stands
before its last dot. -/
def IsStem (name stem : List UInt8) : Prop :=
  (dot ∉ name.tail ∧ stem = name) ∨
    stem ≠ [] ∧ ∃ extension, name = stem ++ dot :: extension ∧ dot ∉ extension

/-- A name that is lost with its extension, because what is left of it is the name of the directory
above: two dots and an extension at the end of a path. -/
def LosesName (name after : List UInt8) : Prop :=
  after = [] ∧ ∃ extension, extension ≠ [] ∧ dot ∉ extension ∧ name = above ++ extension

/-- The extension of an output with its dot. -/
theorem encode_asm : Text.encode ".asm" = dot :: Text.encode "asm" := by decide

section Idle

/-- Bytes around a slash are idle exactly when those on both sides are. -/
theorem idle_append_slash {front back : List UInt8} :
    Idle (front ++ slash :: back) ↔ Idle front ∧ Idle back := by
  simp only [Idle, List.splitOn_append_cons_self, List.forall_mem_append]

/-- Bytes without a slash are idle exactly when they are empty or a single dot. -/
theorem idle_iff_of_solid {part : List UInt8} (solid : slash ∉ part) :
    Idle part ↔ part = [] ∨ part = [dot] := by
  simp only [Idle, List.splitOn_eq_singleton solid, List.forall_mem_singleton]

/-- An idle part before a slash is dropped with it. -/
theorem dropEnding_part {part : List UInt8} (idle : part = [] ∨ part = [dot])
    (back : List UInt8) : dropEnding (part.reverse ++ slash :: back) = dropEnding back := by
  have apart : dot ≠ slash := by decide
  rw [dropEnding.eq_def]
  rcases idle with rfl | rfl
  · simp
  · simp [apart]

/-- Idle parts behind a slash are dropped with it. -/
theorem dropEnding_idle {rest : List UInt8} (idle : Idle rest) (back : List UInt8) :
    dropEnding (rest.reverse ++ slash :: back) = dropEnding back := by
  by_cases broken : slash ∈ rest
  · obtain ⟨first, later, rfl, solid⟩ := List.eq_append_cons_of_mem broken
    obtain ⟨here, behind⟩ := idle_append_slash.mp idle
    have parts : (first ++ slash :: later).reverse ++ slash :: back =
        later.reverse ++ slash :: (first.reverse ++ slash :: back) := by simp
    rw [parts, dropEnding_idle behind, dropEnding_part ((idle_iff_of_solid solid).mp here)]
  · exact dropEnding_part ((idle_iff_of_solid broken).mp idle) back
termination_by rest.length

/-- Nothing is left of an idle path. -/
theorem dropEnding_of_idle {bytes : List UInt8} (idle : Idle bytes) :
    dropEnding bytes.reverse = [] := by
  by_cases broken : slash ∈ bytes
  · obtain ⟨first, later, rfl, solid⟩ := List.eq_append_cons_of_mem broken
    obtain ⟨here, behind⟩ := idle_append_slash.mp idle
    have parts : (first ++ slash :: later).reverse = later.reverse ++ slash :: first.reverse := by
      simp
    rw [parts, dropEnding_idle behind]
    rcases (idle_iff_of_solid solid).mp here with rfl | rfl <;> rfl
  · rcases (idle_iff_of_solid broken).mp idle with rfl | rfl <;> rfl

/-- The beginning of idle bytes is idle. -/
theorem Idle.of_append {front back : List UInt8} (idle : Idle (front ++ back)) : Idle front := by
  by_cases broken : slash ∈ front
  · obtain ⟨first, later, rfl, -⟩ := List.eq_append_cons_of_mem broken
    rw [List.append_assoc, List.cons_append, idle_append_slash] at idle
    exact idle_append_slash.mpr ⟨idle.1, idle.2.of_append⟩
  · -- The first part of the whole is short, so the beginning of it is.
    have short : ∃ more, slash ∉ front ++ more ∧ Idle (front ++ more) := by
      by_cases later : slash ∈ back
      · obtain ⟨more, rest, rfl, solid⟩ := List.eq_append_cons_of_mem later
        rw [← List.append_assoc, idle_append_slash] at idle
        exact ⟨more, by simp [broken, solid], idle.1⟩
      · exact ⟨back, by simp [broken, later], idle⟩
    obtain ⟨more, solid, part⟩ := short
    rw [idle_iff_of_solid solid, List.append_eq_nil_iff, List.append_eq_singleton_iff] at part
    rw [idle_iff_of_solid broken]
    rcases part with ⟨nothing, -⟩ | ⟨nothing, -⟩ | ⟨single, -⟩
    · exact .inl nothing
    · exact .inl nothing
    · exact .inr single
termination_by front.length

end Idle

section LastPart

variable {bytes before part after : List UInt8}

/-- A path is idle or has a last part that is not. -/
theorem idle_or_lastPart (bytes : List UInt8) :
    Idle bytes ∨ ∃ before part after, LastPart bytes before part after := by
  by_cases broken : slash ∈ bytes
  · obtain ⟨front, last, rfl, solid⟩ := exists_last_of_mem broken
    by_cases idle : last = [] ∨ last = [dot]
    · have here : Idle last := (idle_iff_of_solid solid).mpr idle
      rcases idle_or_lastPart front with early | ⟨before, part, after, found⟩
      · exact .inl (idle_append_slash.mpr ⟨early, here⟩)
      · refine .inr ⟨before, part, after ++ slash :: last, ?_⟩
        refine { found with whole := by rw [found.whole]; simp, ends := .inr ?_ }
        rcases found.ends with nothing | ⟨rest, behind, later⟩
        · exact ⟨last, by simp [nothing], here⟩
        · exact ⟨rest ++ slash :: last, by simp [behind], idle_append_slash.mpr ⟨later, here⟩⟩
    · rw [not_or] at idle
      exact .inr ⟨front ++ [slash], last, [], by simp, .inr ⟨front, rfl⟩, solid, idle.1, idle.2,
        .inl rfl⟩
  · by_cases idle : bytes = [] ∨ bytes = [dot]
    · exact .inl ((idle_iff_of_solid broken).mpr idle)
    · rw [not_or] at idle
      exact .inr ⟨[], bytes, [], by simp, .inl rfl, broken, idle.1, idle.2, .inl rfl⟩
termination_by bytes.length

/-- Nothing is dropped off a part that is not idle. -/
theorem dropEnding_reverse_append {part : List UInt8} (solid : slash ∉ part) (nonempty : part ≠ [])
    (notDot : part ≠ [dot]) (back : List UInt8) :
    dropEnding (part.reverse ++ back) = part.reverse ++ back := by
  obtain ⟨byte, others, shape⟩ :=
    List.exists_cons_of_ne_nil (List.reverse_ne_nil_iff.mpr nonempty)
  have apart : slash ∉ byte :: others := by
    rw [← shape, List.mem_reverse]
    exact solid
  have first : byte ≠ slash := fun same => apart (by simp [same])
  rw [shape, dropEnding.eq_def, List.cons_append]
  dsimp only
  rw [if_neg first]
  by_cases dotted : byte = dot
  · cases others with
    | nil =>
      rw [List.reverse_eq_iff, dotted] at shape
      exact absurd shape notDot
    | cons next more =>
      have second : next ≠ slash := fun same => apart (by simp [same])
      rw [if_pos dotted, List.cons_append]
      exact if_neg second
  · rw [if_neg dotted]

/-- The last part of a path stays when what is behind it is dropped. -/
theorem dropEnding_of_lastPart (last : LastPart bytes before part after) :
    dropEnding bytes.reverse = part.reverse ++ before.reverse := by
  have kept := dropEnding_reverse_append last.solid last.nonempty last.notDot before.reverse
  rcases last.ends with nothing | ⟨rest, behind, idle⟩
  · rw [last.whole, nothing, List.append_nil, List.reverse_append, kept]
  · have parts : bytes.reverse = rest.reverse ++ slash :: (part.reverse ++ before.reverse) := by
      rw [last.whole, behind]
      simp
    rw [parts, dropEnding_idle idle, kept]

/-- The last part of a path is found, and is its name unless it goes up. -/
theorem lastName?_of_lastPart (last : LastPart bytes before part after) :
    lastName? bytes = if part = above then none else some (before, part) := by
  have inPart := bne_of_notMem last.solid
  have stop : before.reverse.takeWhile (· != slash) = [] ∧
      before.reverse.dropWhile (· != slash) = before.reverse := by
    rcases last.begins with rfl | ⟨front, rfl⟩ <;> simp
  rw [lastName?, dropEnding_of_lastPart last, List.takeWhile_append_of_pos inPart,
    List.dropWhile_append_of_pos inPart, stop.1, stop.2]
  simp [last.nonempty]

end LastPart

section Stem

variable {name stem extension : List UInt8}

/-- A name in which no dot follows the first byte has no extension. -/
theorem splitName_of_notMem (undotted : dot ∉ name.tail) : splitName name = (name, none) := by
  cases name with
  | nil => rfl
  | cons first rest =>
    have solid : ∀ byte ∈ rest.reverse, (byte != dot) = true := bne_of_notMem undotted
    rw [splitName, List.reverse_cons, List.dropWhile_append_of_pos solid]
    by_cases dotted : first = dot <;> simp [dotted]

/-- The last dot of a name, if it is not the first byte, parts its stem from its extension. -/
theorem splitName_append (nonempty : stem ≠ []) (undotted : dot ∉ extension) :
    splitName (stem ++ dot :: extension) = (stem, some extension) := by
  have solid := bne_of_notMem undotted
  obtain ⟨last, others, shape⟩ :=
    List.exists_cons_of_ne_nil (List.reverse_ne_nil_iff.mpr nonempty)
  have backwards : (stem ++ dot :: extension).reverse =
      extension.reverse ++ dot :: stem.reverse := by simp
  have stops : (dot :: stem.reverse).takeWhile (· != dot) = [] ∧
      (dot :: stem.reverse).dropWhile (· != dot) = dot :: last :: others := by simp [shape]
  rw [splitName, backwards, List.dropWhile_append_of_pos solid,
    List.takeWhile_append_of_pos solid, stops.1, stops.2]
  simp [← shape]

/-- A stem is what the splitting of a name finds. -/
theorem splitName_of_isStem (isStem : IsStem name stem) : (splitName name).1 = stem := by
  rcases isStem with ⟨undotted, rfl⟩ | ⟨nonempty, extension, rfl, undotted⟩
  · rw [splitName_of_notMem undotted]
  · rw [splitName_append nonempty undotted]

/-- Every name has a stem. -/
theorem exists_isStem (name : List UInt8) : ∃ stem, IsStem name stem := by
  by_cases dotted : dot ∈ name.tail
  · obtain ⟨front, extension, shape, undotted⟩ := exists_last_of_mem dotted
    cases name with
    | nil => simp at dotted
    | cons first rest =>
      rw [List.tail_cons] at shape
      exact ⟨first :: front, .inr ⟨List.cons_ne_nil _ _, extension, by simp [shape], undotted⟩⟩
  · exact ⟨name, .inl ⟨dotted, rfl⟩⟩

end Stem

section Output

variable {path : Path} {before name after stem : List UInt8}

/-- The name of a path is found. -/
theorem lastName?_of_names (named : path.Names before name after) :
    lastName? path.bytes = some (before, name) := by
  rw [lastName?_of_lastPart named.last, if_neg named.notAbove]

/-- In a path without a name none is found. -/
theorem lastName?_of_nameless (nameless : path.Nameless) : lastName? path.bytes = none := by
  rcases nameless with idle | ⟨before, after, last⟩
  · rw [lastName?, dropEnding_of_idle idle]
    rfl
  · rw [lastName?_of_lastPart last, if_pos rfl]

/-- A path has a name or is without one. -/
theorem nameless_or_names (path : Path) :
    path.Nameless ∨ ∃ before name after, path.Names before name after := by
  rcases idle_or_lastPart path.bytes with idle | ⟨before, part, after, last⟩
  · exact .inl (.inl idle)
  · by_cases up : part = above
    · exact .inl (.inr ⟨before, after, up ▸ last⟩)
    · exact .inr ⟨before, part, after, last, up⟩

/-- The extension of a path is that of its name. -/
theorem extension?_of_names (named : path.Names before name after) :
    path.extension? = (splitName name).2 := by
  rw [extension?, lastName?_of_names named]
  rfl

/-- A path without a name has no extension, and none can be set. -/
theorem setExtension_of_nameless (nameless : path.Nameless) (extension : List UInt8) :
    path.extension? = none ∧ path.setExtension extension = path := by
  rw [extension?, setExtension, lastName?_of_nameless nameless]
  exact ⟨rfl, rfl⟩

/-- Setting an extension puts it behind the stem of the name. -/
theorem setExtension_of_names (named : path.Names before name after) (isStem : IsStem name stem)
    (extension : List UInt8) :
    path.setExtension extension = ⟨before ++ stem ++ dot :: extension⟩ := by
  rw [setExtension, lastName?_of_names named]
  dsimp only
  rw [splitName_of_isStem isStem]

/-- Nothing is cut off a path without an extension. -/
theorem output_of_extension?_eq_none (bare : path.extension? = none) :
    path.output = path.setExtension (Text.encode "asm") := by
  rw [output, withExtension, bare]
  simp

/-- As many bytes as the extension has are cut off a path. -/
theorem output_of_extension?_eq_some {extension : List UInt8}
    (extended : path.extension? = some extension) :
    path.output = setExtension ⟨path.bytes.take (path.bytes.length - extension.length)⟩
      (Text.encode "asm") := by
  rw [output, withExtension, extended]
  rfl

/-- A cut of as many bytes as an extension has takes bytes behind the extension first, and then
bytes of the extension. -/
theorem take_cut (front extension after : List UInt8) :
    (front ++ (extension ++ after)).take
        ((front ++ (extension ++ after)).length - extension.length) =
      front ++ extension.take after.length ++ after.take (after.length - extension.length) := by
  have length : (front ++ (extension ++ after)).length - extension.length =
      front.length + after.length := by
    simp only [List.length_append]
    omega
  rw [length, List.take_length_add_append, List.take_append, List.append_assoc]

/-- The beginning of nothing or of idle parts is nothing or idle parts. -/
theorem ends_take (ends : after = [] ∨ ∃ rest, after = slash :: rest ∧ Idle rest) (count : Nat) :
    after.take count = [] ∨ ∃ rest, after.take count = slash :: rest ∧ Idle rest := by
  rcases ends with rfl | ⟨rest, rfl, idle⟩
  · exact .inl List.take_nil
  · cases count with
    | zero => exact .inl rfl
    | succ less =>
      have joined : Idle (rest.take less ++ rest.drop less) := by rwa [List.take_append_drop]
      exact .inr ⟨rest.take less, rfl, joined.of_append⟩

/-- A cut that leaves the name of the directory above has lost the name. -/
theorem losesName_of_cut {extension : List UInt8} (nonempty : stem ≠ [])
    (undotted : dot ∉ extension) (notAbove : stem ++ dot :: extension ≠ above)
    (up : stem ++ dot :: extension.take after.length = above) :
    LosesName (stem ++ dot :: extension) after := by
  have shape : stem = [dot] ∧ extension.take after.length = [] := by
    cases stem with
    | nil => contradiction
    | cons first others =>
      have same : first = dot := (List.cons.inj up).1
      have rest : others ++ dot :: extension.take after.length = [dot] := (List.cons.inj up).2
      simpa [same, List.append_eq_singleton_iff] using rest
  have name : stem ++ dot :: extension = above ++ extension := by
    rw [shape.1]
    rfl
  have some : extension ≠ [] := by
    intro nothing
    rw [name, nothing, List.append_nil] at notAbove
    exact notAbove rfl
  have none : after = [] := by
    rcases List.take_eq_nil_iff.mp shape.2 with count | nothing
    · exact List.length_eq_zero_iff.mp count
    · exact absurd nothing some
  exact ⟨none, extension, some, undotted, name⟩

/-- A path keeps its name up to the last dot when as many bytes are cut off its end as the extension
has. -/
theorem names_cut {extension : List UInt8} (nonempty : stem ≠ []) (undotted : dot ∉ extension)
    (named : path.Names before (stem ++ dot :: extension) after)
    (keeps : ¬LosesName (stem ++ dot :: extension) after) :
    ∃ left later, dot ∉ left ∧
      Names ⟨path.bytes.take (path.bytes.length - extension.length)⟩ before
        (stem ++ dot :: left) later := by
  have within : extension.take after.length ⊆ extension := (List.take_sublist _ _).subset
  have parts : path.bytes = (before ++ stem ++ [dot]) ++ (extension ++ after) := by
    rw [named.last.whole]
    simp
  have whole : path.bytes.take (path.bytes.length - extension.length) =
      before ++ (stem ++ dot :: extension.take after.length) ++
        after.take (after.length - extension.length) := by
    rw [parts, take_cut]
    simp
  have solid : slash ∉ stem ++ dot :: extension.take after.length := by
    have apart := named.last.solid
    simp only [List.mem_append, List.mem_cons, not_or] at apart ⊢
    exact ⟨apart.1, apart.2.1, fun listed => apart.2.2 (within listed)⟩
  have notDot : stem ++ dot :: extension.take after.length ≠ [dot] := by
    simp [List.append_eq_singleton_iff, nonempty]
  exact ⟨_, _, fun listed => undotted (within listed),
    ⟨whole, named.last.begins, solid, by simp, notDot, ends_take named.last.ends _⟩,
    fun up => keeps (losesName_of_cut nonempty undotted named.notAbove up)⟩

/-- The output of a path stands beside it and has its stem, unless the name is lost. -/
theorem output_of_names (named : path.Names before name after) (isStem : IsStem name stem)
    (keeps : ¬LosesName name after) : path.output = ⟨before ++ stem ++ Text.encode ".asm"⟩ := by
  have extension := extension?_of_names named
  rw [encode_asm]
  rcases id isStem with ⟨undotted, -⟩ | ⟨nonempty, old, rfl, undotted⟩
  · rw [splitName_of_notMem undotted] at extension
    rw [output_of_extension?_eq_none extension]
    exact setExtension_of_names named isStem _
  · rw [splitName_append nonempty undotted] at extension
    obtain ⟨left, later, plain, cut⟩ := names_cut nonempty undotted named keeps
    rw [output_of_extension?_eq_some extension]
    exact setExtension_of_names cut (.inr ⟨nonempty, left, rfl, plain⟩) _

/-- Of a path that loses its name, the output is the directory above. -/
theorem output_of_losesName (named : path.Names before name after) (loses : LosesName name after) :
    path.output = ⟨before ++ above⟩ ∧ path.output.Nameless := by
  obtain ⟨rfl, old, some, undotted, rfl⟩ := loses
  have last : LastPart (before ++ above) before above [] :=
    ⟨by simp, named.last.begins, by decide, by decide, by decide, .inl rfl⟩
  have nameless : Nameless ⟨before ++ above⟩ := .inr ⟨before, [], last⟩
  have whole : path.bytes = before ++ above ++ old := by
    rw [named.last.whole]
    simp
  have cut : path.bytes.take (path.bytes.length - old.length) = before ++ above := by
    rw [whole, List.length_append, Nat.add_sub_cancel, List.take_left]
  have extension : path.extension? = .some old := by
    rw [extension?_of_names named]
    exact congrArg Prod.snd (splitName_append (List.cons_ne_nil dot []) undotted)
  rw [output_of_extension?_eq_some extension, cut, (setExtension_of_nameless nameless _).2]
  exact ⟨rfl, nameless⟩

end Output

section Qualifier

variable {path : Path} {before name after stem : List UInt8}

/-- The stem of a name is not empty and has no slash. -/
theorem stem_of_names (named : path.Names before name after) (isStem : IsStem name stem) :
    stem ≠ [] ∧ slash ∉ stem := by
  have solid := named.last.solid
  rcases isStem with ⟨-, rfl⟩ | ⟨nonempty, extension, rfl, -⟩
  · exact ⟨named.last.nonempty, solid⟩
  · exact ⟨nonempty, fun listed => solid (List.mem_append_left _ listed)⟩

/-- The output of a path has a name with the stem of the path in the same directory. -/
theorem names_output (named : path.Names before name after) (isStem : IsStem name stem)
    (keeps : ¬LosesName name after) :
    path.output.Names before (stem ++ Text.encode ".asm") [] ∧
      IsStem (stem ++ Text.encode ".asm") stem := by
  obtain ⟨nonempty, solid⟩ := stem_of_names named isStem
  have whole : path.output.bytes = before ++ (stem ++ Text.encode ".asm") ++ [] := by
    rw [output_of_names named isStem keeps, List.append_nil, List.append_assoc]
  have apart : slash ∉ stem ++ Text.encode ".asm" := by
    rw [List.mem_append, not_or]
    exact ⟨solid, by decide⟩
  have long : 4 < (stem ++ Text.encode ".asm").length := by
    have positive := List.length_pos_iff.mpr nonempty
    have four : (Text.encode ".asm").length = 4 := by decide
    rw [List.length_append, four]
    omega
  have other {bytes : List UInt8} (short : bytes.length ≤ 4) :
      stem ++ Text.encode ".asm" ≠ bytes := by
    rintro rfl
    omega
  refine ⟨⟨⟨whole, named.last.begins, apart, other (by decide), other (by decide), .inl rfl⟩,
    other (by decide)⟩, .inr ⟨nonempty, Text.encode "asm", by rw [encode_asm], by decide⟩⟩

/-- A path without a name has no qualifier. -/
theorem qualifier_of_nameless (nameless : path.Nameless) :
    path.qualifier = .error (.noQualifier path) := by
  rw [qualifier, qualifier?, stem?, lastName?_of_nameless nameless]
  rfl

/-- The qualifier of a path is the text of the stem of its name, which cannot be empty. -/
theorem qualifier_of_names (named : path.Names before name after) (isStem : IsStem name stem) :
    path.qualifier =
      match Text.decode? stem with
      | some text => .ok text
      | none => .error (.noQualifier path) := by
  have found : path.stem? = some stem := by
    rw [stem?, lastName?_of_names named, Option.map_some]
    exact congrArg some (splitName_of_isStem isStem)
  rw [qualifier, qualifier?, found, Option.bind_some]
  cases decoded : Text.decode? stem with
  | none => rfl
  | some text =>
    have spelled : stem = Text.encode text := Text.decode?_eq_some_iff.mp decoded
    have nonempty : text.isEmpty = false := by
      rw [← Bool.not_eq_true, String.isEmpty_iff]
      rintro rfl
      exact (stem_of_names named isStem).1 (spelled.trans (by decide))
    simp [Option.filter, nonempty]

/-- A path and its output have one qualifier, or none of them has any. -/
theorem qualifier_output (named : path.Names before name after) (isStem : IsStem name stem)
    (keeps : ¬LosesName name after) :
    (∃ text, path.qualifier = .ok text ∧ path.output.qualifier = .ok text) ∨
      path.qualifier = .error (.noQualifier path) ∧
        path.output.qualifier = .error (.noQualifier path.output) := by
  obtain ⟨beside, same⟩ := names_output named isStem keeps
  rw [qualifier_of_names named isStem, qualifier_of_names beside same]
  cases Text.decode? stem with
  | some text => exact .inl ⟨text, rfl, rfl⟩
  | none => exact .inr ⟨rfl, rfl⟩

/-- The qualifier of a path that loses its name is a dot. -/
theorem qualifier_of_losesName (named : path.Names before name after)
    (loses : LosesName name after) : path.qualifier = .ok "." := by
  obtain ⟨-, extension, -, undotted, rfl⟩ := loses
  have isStem : IsStem (above ++ extension) [dot] :=
    .inr ⟨List.cons_ne_nil dot [], extension, rfl, undotted⟩
  have text : Text.decode? [dot] = some "." := Text.decode?_encode "."
  rw [qualifier_of_names named isStem, text]

/-- A path has a qualifier exactly when it has a name whose stem is text. -/
theorem qualifier_eq_ok_iff {text : String} :
    path.qualifier = .ok text ↔
      ∃ before name after stem, path.Names before name after ∧ IsStem name stem ∧
        stem = Text.encode text := by
  constructor
  · intro qualified
    rcases path.nameless_or_names with nameless | ⟨before, name, after, named⟩
    · rw [qualifier_of_nameless nameless] at qualified
      contradiction
    · obtain ⟨stem, isStem⟩ := exists_isStem name
      rw [qualifier_of_names named isStem] at qualified
      refine ⟨before, name, after, stem, named, isStem, ?_⟩
      cases decoded : Text.decode? stem with
      | none => simp [decoded] at qualified
      | some found =>
        rw [decoded] at qualified
        rw [← Except.ok.inj qualified]
        exact Text.decode?_eq_some_iff.mp decoded
  · rintro ⟨before, name, after, stem, named, isStem, rfl⟩
    rw [qualifier_of_names named isStem, Text.decode?_encode]

/-- A slash in a text is a slash among its bytes. -/
theorem slash_mem_encode {text : String} (listed : '/' ∈ text.toList) :
    slash ∈ Text.encode text := by
  obtain ⟨front, back, parts⟩ := List.append_of_mem listed
  have whole : text = String.ofList front ++ "/" ++ String.ofList back := by
    rw [← String.toList_inj]
    simp [parts]
  have byte : Text.encode "/" = [slash] := by decide
  rw [whole, Text.encode_append, Text.encode_append, byte]
  simp

end Qualifier

/-- The output of a path without a name is the path, which has no qualifier. The output of any other
path stands in the same directory and has the same stem, and the same qualifier or none with it;
only from two dots and an extension at the end of a path the extension is taken and nothing put in
its place. A path has a qualifier exactly when the stem of its name is text, and then the qualifier
is not empty and has no slash. -/
theorem output_and_qualifier_agree (path : Path) :
    (path.Nameless ∨ ∃ before name after, path.Names before name after) ∧
    (path.Nameless → path.output = path ∧ path.qualifier = .error (.noQualifier path) ∧
      ∀ before name after, ¬path.Names before name after) ∧
    (∀ before name after, path.Names before name after → ∃ stem, IsStem name stem ∧
      (∀ other, IsStem name other → other = stem) ∧
      (¬LosesName name after →
        path.output = ⟨before ++ stem ++ Text.encode ".asm"⟩ ∧
        path.output.Names before (stem ++ Text.encode ".asm") [] ∧
        ((∃ text, path.qualifier = .ok text ∧ path.output.qualifier = .ok text) ∨
          path.qualifier = .error (.noQualifier path) ∧
            path.output.qualifier = .error (.noQualifier path.output))) ∧
      (LosesName name after →
        path.output = ⟨before ++ above⟩ ∧
        (∃ lost, name = above ++ lost ∧ path.bytes = path.output.bytes ++ lost) ∧
        path.qualifier = .ok "." ∧
        path.output.qualifier = .error (.noQualifier path.output))) ∧
    ∀ text, (path.qualifier = .ok text ↔
        ∃ before name after stem, path.Names before name after ∧ IsStem name stem ∧
          stem = Text.encode text) ∧
      (path.qualifier = .ok text → text ≠ "" ∧ '/' ∉ text.toList) := by
  refine ⟨path.nameless_or_names, fun nameless => ?_, ?_, ?_⟩
  · obtain ⟨bare, same⟩ := setExtension_of_nameless nameless (Text.encode "asm")
    refine ⟨(output_of_extension?_eq_none bare).trans same, qualifier_of_nameless nameless, ?_⟩
    intro before name after named
    have found := lastName?_of_names named
    rw [lastName?_of_nameless nameless] at found
    contradiction
  · intro before name after named
    obtain ⟨stem, isStem⟩ := exists_isStem name
    refine ⟨stem, isStem, ?_, fun keeps => ?_, fun loses => ?_⟩
    · intro other also
      rw [← splitName_of_isStem also, splitName_of_isStem isStem]
    · exact ⟨output_of_names named isStem keeps, (names_output named isStem keeps).1,
        qualifier_output named isStem keeps⟩
    · obtain ⟨output, nameless⟩ := output_of_losesName named loses
      refine ⟨output, ?_, qualifier_of_losesName named loses, qualifier_of_nameless nameless⟩
      obtain ⟨rfl, lost, -, -, rfl⟩ := loses
      exact ⟨lost, rfl, by rw [named.last.whole, output]; simp⟩
  · intro text
    refine ⟨qualifier_eq_ok_iff, fun qualified => ?_⟩
    obtain ⟨before, name, after, stem, named, isStem, rfl⟩ := qualifier_eq_ok_iff.mp qualified
    obtain ⟨nonempty, solid⟩ := stem_of_names named isStem
    constructor
    · rintro rfl
      exact nonempty (by decide)
    · exact fun listed => solid (slash_mem_encode listed)

/-- Two dots before the extension are kept when a slash and a dot stand behind the name, and lose
the extension when nothing does. -/
theorem output_of_two_dots :
    ((ofString "a/..vm/.").output = ofString "a/..asm" ∧
      (ofString "a/..vm/.").qualifier = .ok "." ∧ (ofString "a/..asm").qualifier = .ok ".") ∧
    (ofString "..vm").output = ofString ".." ∧ (ofString "..vm").qualifier = .ok "." := by
  have behind : Idle (Text.encode ".") := (idle_iff_of_solid (by decide)).mpr (.inr (by decide))
  have inside : (ofString "a/..vm/.").Names (Text.encode "a/") (Text.encode "..vm")
      (Text.encode "/.") :=
    ⟨⟨by decide, .inr ⟨Text.encode "a", by decide⟩, by decide, by decide, by decide,
      .inr ⟨_, by decide, behind⟩⟩, by decide⟩
  have alone : (ofString "..vm").Names [] (Text.encode "..vm") [] :=
    ⟨⟨by decide, .inl rfl, by decide, by decide, by decide, .inl rfl⟩, by decide⟩
  have keeps : ¬LosesName (Text.encode "..vm") (Text.encode "/.") :=
    fun loses => absurd loses.1 (by decide)
  have loses : LosesName (Text.encode "..vm") [] :=
    ⟨rfl, Text.encode "vm", by decide, by decide, by decide⟩
  have isStem : IsStem (Text.encode "..vm") (Text.encode ".") :=
    .inr ⟨by decide, Text.encode "vm", by decide, by decide⟩
  obtain ⟨-, -, naming, qualifying⟩ := output_and_qualifier_agree (ofString "a/..vm/.")
  have qualified : (ofString "a/..vm/.").qualifier = .ok "." :=
    (qualifying ".").1.mpr ⟨_, _, _, _, inside, isStem, rfl⟩
  obtain ⟨stem, -, only, kept, -⟩ := naming _ _ _ inside
  obtain ⟨output, -, agree⟩ := kept keeps
  have beside : (ofString "a/..vm/.").output = ofString "a/..asm" := by
    rw [output, ← only _ isStem]
    decide
  have same : (ofString "a/..asm").qualifier = .ok "." := by
    rw [beside, qualified] at agree
    rcases agree with ⟨text, found, also⟩ | ⟨failed, -⟩
    · rw [also, ← found]
    · contradiction
  obtain ⟨-, -, -, -, lost⟩ := (output_and_qualifier_agree (ofString "..vm")).2.2.1 _ _ _ alone
  obtain ⟨cut, -, dotted, -⟩ := lost loses
  exact ⟨⟨beside, qualified, same⟩, cut, dotted⟩

end Path

end HackVm
