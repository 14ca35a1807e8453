import HackVm.FileTree.Access

/-!
# Disks

What a compilation does to files: open one and read it, make one and write to it, and remove one.
The same compilation runs over the files of the operating system and over a file tree, which is a
disk in a state monad whose actions may also never return.
-/
namespace HackVm

/-- Access to files in a monad, with the handles of open files. -/
structure Disk (Handle : Type) (m : Type → Type) where
  /-- Open the file a path names. -/
  locate : Path → m (Except AccessFault Handle)
  /-- Read an open file to its end. -/
  contents : Handle → m Source
  /-- Make the file a path names, or empty it, and open it for writing. -/
  create : Path → m (Except AccessFault Handle)
  /-- Write bytes behind those written before. -/
  append : Handle → List UInt8 → m (Except AccessFault Unit)
  /-- Remove the file a path names. -/
  remove : Path → m (Except AccessFault Unit)

namespace Disk

/-- Let a change of the tree take place, unless it is refused. -/
def change {α : Type} (result : FileTree → Except AccessFault (α × FileTree)) :
    StateT FileTree Option (Except AccessFault α) := fun tree =>
  match result tree with
  | .ok (answer, tree) => some (.ok answer, tree)
  | .error fault => some (.error fault, tree)

/-- A file tree as a disk. Reading what has no end never returns. -/
def tree : Disk Key (StateT FileTree Option) where
  locate path := fun tree => some (tree.locate path, tree)
  contents place := fun tree => (tree.contents place).map (·, tree)
  create path := change (·.create path)
  append place bytes := change fun tree => (tree.append place bytes).map ((), ·)
  remove path := change fun tree => (tree.remove path).map ((), ·)

end Disk

end HackVm
