import HackVm.Path

/-!
# File trees

A finite tree of files and directories, given by the entries below its root, and the directory in it
where a process stands. Each entry has a key, the names on the way from the root down to it; the
root itself has the empty key. The root, the current directory and those between them are always
there. `get?` looks a key up, and the laws of `put` and `erase` say that each changes the entry at
its own key and no other.
-/
namespace HackVm

/-- One name in a path. -/
abbrev Name := List UInt8

/-- The names from the root of a tree down to an entry. -/
abbrev Key := List Name

/-- What stands at a key. -/
inductive Entry where
  /-- A regular file. -/
  | file (content : List UInt8)
  /-- A directory. -/
  | directory
  /-- A device without room: it can be opened for writing, and every byte written is refused. -/
  | full
deriving DecidableEq, Repr

/-- The entries below the root of a tree, and a place in it. -/
structure FileTree where
  /-- Keys with what stands at them; of two entries with one key the first counts. -/
  entries : List (Key × Entry)
  /-- The key of the current directory. -/
  current : Key
deriving DecidableEq, Repr

namespace FileTree

/-- The tree with no entries besides a current directory. -/
def empty (current : Key) : FileTree := ⟨[], current⟩

/-- What stands at a key. The way from the root down to the current directory leads through
directories. -/
def get? (tree : FileTree) (key : Key) : Option Entry :=
  if key.isPrefixOf tree.current then some .directory else tree.entries.lookup key

/-- Let an entry stand at a key, in place of what stood there. -/
def put (tree : FileTree) (key : Key) (entry : Entry) : FileTree :=
  { tree with entries := (key, entry) :: tree.entries.filter (·.1 != key) }

/-- Let nothing stand at a key. -/
def erase (tree : FileTree) (key : Key) : FileTree :=
  { tree with entries := tree.entries.filter (·.1 != key) }

/-- The path from one directory down to an entry below it. -/
def pathOf (key : Key) : List UInt8 := [Path.slash].intercalate key

/-- The entries below the current directory with their paths from there, in the order of the bytes
of the paths. -/
def listing (tree : FileTree) : List (List UInt8 × Entry) :=
  let below := tree.entries.filter fun (key, _) => tree.current.isPrefixOf key
  (below.map fun (key, entry) => (pathOf (key.drop tree.current.length), entry)).mergeSort
    fun left right => left.1 ≤ right.1

/-- Looking a key up passes by the entries with other keys. -/
theorem lookup_filter_ne (entries : List (Key × Entry)) (key other : Key) :
    (entries.filter (·.1 != key)).lookup other =
      if other = key then none else entries.lookup other := by
  induction entries with
  | nil => simp
  | cons pair entries ih =>
    obtain ⟨found, entry⟩ := pair
    by_cases same : found = key
    · subst same
      simp only [bne_self_eq_false, Bool.false_eq_true, not_false_eq_true, List.filter_cons_of_neg,
        ih, List.lookup_cons]
      by_cases hit : other = found
      · simp [hit]
      · simp [hit, beq_eq_false_iff_ne.mpr hit]
    · have kept : (found != key) = true := by simp [same]
      simp only [kept, List.filter_cons_of_pos, List.lookup_cons, ih]
      by_cases hit : other = found
      · subst hit
        simp [same]
      · simp [beq_eq_false_iff_ne.mpr hit]

/-- A key where no directory stands is not on the way to the current directory. -/
theorem isPrefixOf_current {tree : FileTree} {key : Key}
    (other : tree.get? key ≠ some .directory) : key.isPrefixOf tree.current = false := by
  rw [← Bool.not_eq_true]
  exact fun above => other (if_pos above)

/-- Putting an entry where no directory stands changes what stands at its key, and nothing else. -/
theorem get?_put {tree : FileTree} {key : Key} (free : tree.get? key ≠ some .directory)
    (entry : Entry) (other : Key) :
    (tree.put key entry).get? other = if other = key then some entry else tree.get? other := by
  by_cases same : other = key
  · subst same
    simp [get?, put, isPrefixOf_current free]
  · simp [get?, put, same, List.lookup_cons, beq_eq_false_iff_ne.mpr same, lookup_filter_ne]

/-- Erasing a key where no directory stands changes what stands at it, and nothing else. -/
theorem get?_erase {tree : FileTree} {key : Key} (free : tree.get? key ≠ some .directory)
    (other : Key) :
    (tree.erase key).get? other = if other = key then none else tree.get? other := by
  by_cases same : other = key
  · subst same
    simp [get?, erase, isPrefixOf_current free, lookup_filter_ne]
  · simp [get?, erase, same, lookup_filter_ne]

end FileTree

end HackVm
