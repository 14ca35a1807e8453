import HackVm.FileTree.Basic
import HackVm.Source.Basic

/-!
# Opening, writing and removing in a file tree

Paths are walked name by name, from the root when they begin with a slash and else from the current
directory. Above the root there is the root again. Opening, making and removing a file walk to the
directory before the last name of the path, so that each of them can treat that name by its own
rules. What is refused changes nothing.
-/
namespace HackVm

/-- Where a path leads before its last name is looked up. -/
inductive Approach where
  /-- The path is made of slashes only. -/
  | root
  /-- A last name in a directory, with or without slashes after it. -/
  | name (directory : Key) (last : Name) (slashed : Bool)
deriving DecidableEq, Repr

namespace FileTree

/-- The greatest number of bytes of one name. -/
def maxName : Nat := 255

/-- The greatest number of bytes of a path. -/
def maxPath : Nat := 4095

/-- The name of the directory a walk is in. -/
def here : Name := [Path.dot]

/-- Walk one name on. -/
def step (tree : FileTree) (place : Key) (name : Name) : Except AccessFault Key :=
  if tree.get? place ≠ some .directory then .error .notDirectory
  else if name = here then .ok place
  else if name = Path.above then .ok place.dropLast
  else if maxName < name.length then .error .nameTooLong
  else if (tree.get? (place ++ [name])).isSome then .ok (place ++ [name])
  else .error .notFound

/-- The names of a path. -/
def names (path : Path) : List Name := (path.bytes.splitOn Path.slash).filter (!·.isEmpty)

/-- Where the walk along a path begins. -/
def start (tree : FileTree) (path : Path) : Key :=
  if path.bytes.head? = some Path.slash then [] else tree.current

/-- Walk a path up to its last name. -/
def approach (tree : FileTree) (path : Path) : Except AccessFault Approach :=
  if path.bytes.contains 0 then .error .zeroByte
  else if maxPath < path.bytes.length then .error .nameTooLong
  else if path.bytes = [] then .error .notFound
  else
    match (names path).getLast? with
    | none => .ok .root
    | some last => do
      let directory ← (names path).dropLast.foldlM tree.step (tree.start path)
      if tree.get? directory = some .directory then
        return .name directory last (path.bytes.getLast? = some Path.slash)
      else
        throw .notDirectory

/-- The key of the entry that a path names. -/
def locate (tree : FileTree) (path : Path) : Except AccessFault Key := do
  match ← tree.approach path with
  | .root => return []
  | .name directory last slashed =>
    let place ← tree.step directory last
    if slashed ∧ tree.get? place ≠ some .directory then throw .notDirectory
    return place

/-- All that an open file gives to a reader. A directory can be opened but not read, and what a full
device gives has no end. -/
def contents (tree : FileTree) (place : Key) : Option Source :=
  match tree.get? place with
  | some (.file content) => some [.bytes content]
  | some .directory => some [.failure .isDirectory]
  | some .full => none
  | none => some []

/-- The key a file is made at when a path is opened for writing. A directory is refused, and so
is every name followed by a slash. -/
def writeKey (tree : FileTree) (path : Path) : Except AccessFault Key := do
  match ← tree.approach path with
  | .root => throw .isDirectory
  | .name directory last slashed =>
    if last = here ∨ last = Path.above ∨ slashed then throw .isDirectory
    if maxName < last.length then throw .nameTooLong
    if tree.get? (directory ++ [last]) = some .directory then throw .isDirectory
    return directory ++ [last]

/-- Open a path for writing: a file is emptied, and a name that is not there becomes a file. -/
def create (tree : FileTree) (path : Path) : Except AccessFault (Key × FileTree) := do
  let place ← tree.writeKey path
  if tree.get? place = some .full then return (place, tree)
  return (place, tree.put place (.file []))

/-- Write bytes to an open file, behind those written before. -/
def append (tree : FileTree) (place : Key) (bytes : List UInt8) : Except AccessFault FileTree :=
  match tree.get? place with
  | some (.file content) => .ok (tree.put place (.file (content ++ bytes)))
  | some .full => if bytes = [] then .ok tree else .error .deviceFull
  | some .directory => .error .isDirectory
  | none => .error .notFound

/-- Remove the entry a path names, unless it is a directory. -/
def remove (tree : FileTree) (path : Path) : Except AccessFault FileTree := do
  match ← tree.approach path with
  | .root => throw .isDirectory
  | .name directory last slashed =>
    if last = here ∨ last = Path.above then throw .isDirectory
    let place ← tree.step directory last
    if tree.get? place = some .directory then throw .isDirectory
    if slashed then throw .notDirectory
    return tree.erase place

end FileTree

end HackVm
