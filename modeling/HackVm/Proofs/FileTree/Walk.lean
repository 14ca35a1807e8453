import HackVm.FileTree.Access

/-!
# Walks in growing trees

Where a path leads, and what of it stays when entries are added to a tree. A walk that reaches its
end passes only through directories and stops at an entry, so it goes the same way in every tree
that still has those and the same current directory: `Grows` says that a tree has all directories
and entries of another, and `locate_of_grows` and `writeKey_of_grows` that paths lead there to the
same place. Writing a file makes a tree grow, unless a directory stood in its place. What a path
names does stand in the tree, with directories on the way to it, which `Stands` says and every step
keeps.
-/
namespace HackVm.FileTree

variable {tree after : FileTree} {path : Path}

/-- The ways in which a walk can go one name on from a directory. -/
inductive Stepped (tree : FileTree) : Key → Name → Key → Prop where
  /-- A single dot stays. -/
  | here (place : Key) : Stepped tree place here place
  /-- Two dots go up. -/
  | above (place : Key) : Stepped tree place Path.above place.dropLast
  /-- Any other name goes down to the entry with that name. -/
  | down {place : Key} {name : Name} (proper : name ≠ FileTree.here ∧ name ≠ Path.above)
    (short : name.length ≤ maxName) (present : (tree.get? (place ++ [name])).isSome) :
    Stepped tree place name (place ++ [name])

/-- A walk goes one name on exactly from a directory and in one of these ways. -/
theorem step_eq_ok_iff {place next : Key} {name : Name} :
    tree.step place name = .ok next ↔
      tree.get? place = some .directory ∧ Stepped tree place name next := by
  constructor
  · intro stepped
    unfold step at stepped
    split at stepped
    · contradiction
    · rename_i enter
      refine ⟨Decidable.not_not.mp enter, ?_⟩
      split at stepped
      · rename_i stays
        rw [stays, ← Except.ok.inj stepped]
        exact .here place
      · rename_i leaves
        split at stepped
        · rename_i ascends
          rw [ascends, ← Except.ok.inj stepped]
          exact .above place
        · rename_i descends
          split at stepped
          · contradiction
          · rename_i short
            split at stepped
            · rename_i present
              rw [← Except.ok.inj stepped]
              exact .down ⟨leaves, descends⟩ (by omega) present
            · contradiction
  · rintro ⟨enter, way⟩
    unfold step
    rw [if_neg (Decidable.not_not.mpr enter)]
    cases way with
    | here => rfl
    | above => rfl
    | down proper short present =>
      rw [if_neg proper.1, if_neg proper.2, if_neg (by omega)]
      exact if_pos present

/-- A path can be walked at all: it is not empty nor too long, and has no byte zero. -/
def Walkable (path : Path) : Prop :=
  ¬path.bytes.contains 0 = true ∧ ¬maxPath < path.bytes.length ∧ path.bytes ≠ []

/-- A path is approached exactly when it can be walked and the walk over all but its last name ends
at a directory. -/
theorem approach_eq_ok_iff {approach : Approach} :
    tree.approach path = .ok approach ↔
      Walkable path ∧
        match (names path).getLast? with
        | none => approach = .root
        | some last => ∃ directory,
            (names path).dropLast.foldlM tree.step (tree.start path) = .ok directory ∧
              tree.get? directory = some .directory ∧
              approach = .name directory last (path.bytes.getLast? = some Path.slash) := by
  unfold FileTree.approach
  by_cases zero : path.bytes.contains 0 = true
  · rw [if_pos zero]
    exact iff_of_false nofun fun both => both.1.1 zero
  · by_cases long : maxPath < path.bytes.length
    · rw [if_neg zero, if_pos long]
      exact iff_of_false nofun fun both => both.1.2.1 long
    · by_cases empty : path.bytes = []
      · rw [if_neg zero, if_neg long, if_pos empty]
        exact iff_of_false nofun fun both => both.1.2.2 empty
      · have walkable : Walkable path := ⟨zero, long, empty⟩
        rw [if_neg zero, if_neg long, if_neg empty, and_iff_right walkable]
        cases (names path).getLast? with
        | none => exact ⟨fun same => (Except.ok.inj same).symm, fun same => same ▸ rfl⟩
        | some last =>
          simp only [bind, Except.bind, throw, throwThe, MonadExceptOf.throw, pure, Except.pure]
          cases (names path).dropLast.foldlM tree.step (tree.start path) with
          | error fault => exact iff_of_false nofun nofun
          | ok directory =>
            dsimp only
            by_cases enter : tree.get? directory = some .directory
            · rw [if_pos enter]
              constructor
              · exact fun same => ⟨directory, rfl, enter, (Except.ok.inj same).symm⟩
              · rintro ⟨other, same, -, rfl⟩
                rw [Except.ok.inj same]
            · rw [if_neg enter]
              refine iff_of_false nofun ?_
              rintro ⟨other, same, entered, -⟩
              rw [← Except.ok.inj same] at entered
              exact enter entered

/-- A last name is looked up in a directory. -/
theorem directory_of_approach {directory : Key} {last : Name} {slashed : Bool}
    (reached : tree.approach path = .ok (.name directory last slashed)) :
    tree.get? directory = some .directory := by
  obtain ⟨-, ending⟩ := approach_eq_ok_iff.mp reached
  split at ending
  · contradiction
  · obtain ⟨found, -, enter, same⟩ := ending
    rwa [(Approach.name.inj same).1]

/-- A path names an entry exactly when it is made of slashes only and the entry is the root, or when
the last step of its walk leads to the entry, which must be a directory if slashes follow. -/
theorem locate_eq_ok_iff {place : Key} :
    tree.locate path = .ok place ↔
      (tree.approach path = .ok .root ∧ place = []) ∨
        ∃ directory last slashed, tree.approach path = .ok (.name directory last slashed) ∧
          tree.step directory last = .ok place ∧
          (slashed = true → tree.get? place = some .directory) := by
  rw [locate]
  cases reached : tree.approach path with
  | error fault => simp [bind, Except.bind]
  | ok approach =>
    cases approach with
    | root => simp [bind, Except.bind, pure, Except.pure, eq_comm]
    | name directory last slashed =>
      simp only [bind, Except.bind, throw, throwThe, MonadExceptOf.throw, pure, Except.pure,
        Except.ok.injEq, reduceCtorEq, false_and, false_or, Approach.name.injEq]
      constructor
      · intro found
        cases stepped : tree.step directory last with
        | error fault => simp [stepped] at found
        | ok next =>
          simp only [stepped] at found
          split at found
          · contradiction
          · rename_i fine
            obtain rfl := Except.ok.inj found
            refine ⟨directory, last, slashed, ⟨rfl, rfl, rfl⟩, stepped, fun behind => ?_⟩
            exact Decidable.not_not.mp fun other => fine ⟨behind, other⟩
      · rintro ⟨_, _, _, ⟨rfl, rfl, rfl⟩, stepped, fine⟩
        simp only [stepped]
        exact if_neg fun both => both.2 (fine both.1)

/-- A path is opened for writing exactly at a proper name in a directory, with nothing behind it,
where no directory stands. -/
theorem writeKey_eq_ok_iff {key : Key} :
    tree.writeKey path = .ok key ↔
      ∃ parent last, tree.approach path = .ok (.name parent last false) ∧
        (last ≠ here ∧ last ≠ Path.above) ∧ last.length ≤ maxName ∧
        tree.get? (parent ++ [last]) ≠ some .directory ∧ key = parent ++ [last] := by
  rw [writeKey]
  cases reached : tree.approach path with
  | error fault => simp [bind, Except.bind]
  | ok approach =>
    cases approach with
    | root => simp [bind, Except.bind, throw, throwThe, MonadExceptOf.throw]
    | name directory last slashed =>
      simp only [bind, Except.bind, throw, throwThe, MonadExceptOf.throw, pure, Except.pure]
      constructor
      · intro opened
        split at opened
        · contradiction
        · rename_i proper
          split at opened
          · contradiction
          · rename_i short
            split at opened
            · contradiction
            · rename_i free
              obtain ⟨leaves, descends, unslashed⟩ : last ≠ here ∧ last ≠ Path.above ∧
                  slashed = false := by simpa using proper
              subst unslashed
              exact ⟨directory, last, rfl, ⟨leaves, descends⟩, by omega, free,
                (Except.ok.inj opened).symm⟩
      · rintro ⟨parent, name, same, proper, short, free, rfl⟩
        obtain ⟨rfl, rfl, rfl⟩ := Approach.name.inj (Except.ok.inj same)
        rw [if_neg (by simp [proper]), if_neg (by omega)]
        exact if_neg free

/-- No directory stands where a path is opened for writing. -/
theorem free_of_writeKey {key : Key} (opened : tree.writeKey path = .ok key) :
    tree.get? key ≠ some .directory := by
  obtain ⟨parent, last, -, -, -, free, rfl⟩ := writeKey_eq_ok_iff.mp opened
  exact free

/-- A path that was opened for writing at an entry leads to it. -/
theorem locate_of_writeKey {key : Key} (opened : tree.writeKey path = .ok key)
    (present : (tree.get? key).isSome) : tree.locate path = .ok key := by
  obtain ⟨parent, last, reached, proper, short, -, rfl⟩ := writeKey_eq_ok_iff.mp opened
  have stepped : tree.step parent last = .ok (parent ++ [last]) :=
    step_eq_ok_iff.mpr ⟨directory_of_approach reached, .down proper short present⟩
  exact locate_eq_ok_iff.mpr (.inr ⟨parent, last, false, reached, stepped, nofun⟩)

/-- An entry stands at a key, and directories on the way down to it. -/
structure Stands (tree : FileTree) (place : Key) : Prop where
  /-- There is an entry. -/
  present : (tree.get? place).isSome
  /-- What is above it is a directory. -/
  way : ∀ above, above <+: place → above ≠ place → tree.get? above = some .directory

/-- Below a directory that stands, every entry stands. -/
theorem Stands.child {place : Key} (stands : tree.Stands place)
    (enter : tree.get? place = some .directory) {name : Name}
    (present : (tree.get? (place ++ [name])).isSome) : tree.Stands (place ++ [name]) := by
  refine ⟨present, fun above before apart => ?_⟩
  obtain same | before := List.prefix_concat_iff.mp before
  · exact absurd same apart
  · by_cases same : above = place
    · rw [same, enter]
    · exact stands.way above before same

/-- What is above a directory that stands is one too. -/
theorem Stands.parent {place : Key} (stands : tree.Stands place)
    (enter : tree.get? place = some .directory) : tree.Stands place.dropLast := by
  have all : ∀ above, above <+: place.dropLast → tree.get? above = some .directory := by
    intro above before
    by_cases same : above = place
    · rw [same, enter]
    · exact stands.way above (before.trans (List.dropLast_prefix place)) same
  exact ⟨by rw [all _ (List.prefix_refl _)]; rfl, fun above before _ => all above before⟩

/-- A walk begins where a directory stands. -/
theorem stands_start (tree : FileTree) (path : Path) : tree.Stands (tree.start path) := by
  have all : ∀ above, above <+: tree.start path → tree.get? above = some .directory := by
    intro above before
    refine if_pos (List.isPrefixOf_iff_prefix.mpr ?_)
    rw [start] at before
    split at before
    · exact before.trans (List.nil_prefix)
    · exact before
  exact ⟨by rw [all _ (List.prefix_refl _)]; rfl, fun above before _ => all above before⟩

/-- A step leads from where an entry stands to where one stands. -/
theorem stands_of_step {place next : Key} {name : Name} (stands : tree.Stands place)
    (stepped : tree.step place name = .ok next) : tree.Stands next := by
  obtain ⟨enter, way⟩ := step_eq_ok_iff.mp stepped
  cases way with
  | here => exact stands
  | above => exact stands.parent enter
  | down _ _ present => exact stands.child enter present

/-- A walk leads from where an entry stands to where one stands. -/
theorem stands_of_walk {names : List Name} {start finish : Key} (stands : tree.Stands start)
    (walked : names.foldlM tree.step start = .ok finish) : tree.Stands finish := by
  induction names generalizing start with
  | nil =>
    obtain rfl := Except.ok.inj walked
    exact stands
  | cons name rest ih =>
    rw [List.foldlM_cons] at walked
    cases stepped : tree.step start name with
    | error fault =>
      rw [stepped] at walked
      contradiction
    | ok next =>
      rw [stepped] at walked
      exact ih (stands_of_step stands stepped) walked

/-- A path names an entry that stands in the tree. -/
theorem stands_of_locate {place : Key} (found : tree.locate path = .ok place) :
    tree.Stands place := by
  obtain ⟨-, rfl⟩ | ⟨directory, last, slashed, reached, stepped, -⟩ := locate_eq_ok_iff.mp found
  · exact ⟨by simp [get?], fun above before apart => absurd (List.prefix_nil.mp before) apart⟩
  · obtain ⟨-, ending⟩ := approach_eq_ok_iff.mp reached
    split at ending
    · contradiction
    · obtain ⟨place, walked, -, same⟩ := ending
      obtain ⟨rfl, -⟩ := Approach.name.inj same
      exact stands_of_step (stands_of_walk (tree.stands_start path) walked) stepped

/-- A tree has all directories and all entries of another, though files may have changed, and the
same current directory. -/
structure Grows (tree after : FileTree) : Prop where
  /-- The current directory is the same. -/
  current : after.current = tree.current
  /-- Directories stay directories. -/
  directory : ∀ key, tree.get? key = some .directory → after.get? key = some .directory
  /-- Entries stay. -/
  present : ∀ key, (tree.get? key).isSome → (after.get? key).isSome

/-- A step goes the same way when a tree has grown. -/
theorem step_of_grows (grows : tree.Grows after) {place next : Key} {name : Name}
    (stepped : tree.step place name = .ok next) : after.step place name = .ok next := by
  obtain ⟨enter, way⟩ := step_eq_ok_iff.mp stepped
  refine step_eq_ok_iff.mpr ⟨grows.directory _ enter, ?_⟩
  cases way with
  | here => exact .here place
  | above => exact .above place
  | down proper short present => exact .down proper short (grows.present _ present)

/-- A walk goes the same way when a tree has grown. -/
theorem walk_of_grows (grows : tree.Grows after) {names : List Name} {start finish : Key}
    (walked : names.foldlM tree.step start = .ok finish) :
    names.foldlM after.step start = .ok finish := by
  induction names generalizing start with
  | nil => exact walked
  | cons name rest ih =>
    rw [List.foldlM_cons] at walked ⊢
    cases stepped : tree.step start name with
    | error fault =>
      rw [stepped] at walked
      contradiction
    | ok next =>
      rw [stepped] at walked
      rw [step_of_grows grows stepped]
      exact ih walked

/-- A path leads before its last name to the same directory when a tree has grown. -/
theorem approach_of_grows (grows : tree.Grows after) {approach : Approach}
    (reached : tree.approach path = .ok approach) : after.approach path = .ok approach := by
  obtain ⟨walkable, ending⟩ := approach_eq_ok_iff.mp reached
  refine approach_eq_ok_iff.mpr ⟨walkable, ?_⟩
  split at ending
  · exact ending
  · obtain ⟨directory, walked, enter, same⟩ := ending
    have start : after.start path = tree.start path := by
      rw [FileTree.start, FileTree.start, grows.current]
    exact ⟨directory, start ▸ walk_of_grows grows walked, grows.directory _ enter, same⟩

/-- A path leads to the same place when a tree has grown. -/
theorem locate_of_grows (grows : tree.Grows after) {place : Key}
    (found : tree.locate path = .ok place) : after.locate path = .ok place := by
  obtain ⟨reached, root⟩ | ⟨directory, last, slashed, reached, stepped, fine⟩ :=
    locate_eq_ok_iff.mp found
  · exact locate_eq_ok_iff.mpr (.inl ⟨approach_of_grows grows reached, root⟩)
  · exact locate_eq_ok_iff.mpr (.inr ⟨directory, last, slashed, approach_of_grows grows reached,
      step_of_grows grows stepped, fun behind => grows.directory _ (fine behind)⟩)

/-- A path is opened for writing at the same key when a tree has grown, unless by a directory. -/
theorem writeKey_of_grows (grows : tree.Grows after) {key : Key}
    (opened : tree.writeKey path = .ok key) (free : after.get? key ≠ some .directory) :
    after.writeKey path = .ok key := by
  obtain ⟨parent, last, reached, proper, short, -, rfl⟩ := writeKey_eq_ok_iff.mp opened
  exact writeKey_eq_ok_iff.mpr
    ⟨parent, last, approach_of_grows grows reached, proper, short, free, rfl⟩

/-- A tree grows by a file that is put where no directory stands. -/
theorem grows_put {key : Key} (free : tree.get? key ≠ some .directory)
    (content : List UInt8) : tree.Grows (tree.put key (.file content)) where
  current := rfl
  directory other found := by
    have apart : other ≠ key := by
      rintro rfl
      exact free found
    rw [get?_put free, if_neg apart, found]
  present other found := by
    rw [get?_put free]
    split
    · rfl
    · exact found

/-- Of two entries put at one key the later one stays. -/
theorem put_put (tree : FileTree) (key : Key) (early late : Entry) :
    (tree.put key early).put key late = tree.put key late := by
  simp [put, List.filter_filter]

end HackVm.FileTree
