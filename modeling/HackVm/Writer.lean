import HackVm.Disk

/-!
# Buffered writing

A writer holds bytes back until there are enough of them to be worth writing, so that many short
pieces reach the disk in few writes. What it still holds in the end has to be flushed. When a write
is refused the bytes are still held, and no more pieces are taken.
-/
namespace HackVm

/-- An open file with the bytes that are held back from it. -/
structure Writer (Handle : Type) where
  /-- The open file. -/
  handle : Handle
  /-- Bytes taken and not yet written. -/
  pending : List UInt8

namespace Writer

/-- The number of bytes that a writer can hold. -/
def capacity : Nat := 8192

variable {Handle : Type} {m : Type → Type} [Monad m]

/-- A writer to a file just opened. -/
def ofHandle (handle : Handle) : Writer Handle := ⟨handle, []⟩

/-- How many more bytes can be held. -/
def room (writer : Writer Handle) : Nat := capacity - writer.pending.length

/-- Hold more bytes. -/
def hold (writer : Writer Handle) (bytes : List UInt8) : Writer Handle :=
  { writer with pending := writer.pending ++ bytes }

/-- Write what is held. -/
def flush (disk : Disk Handle m) (writer : Writer Handle) :
    m (Except AccessFault Unit × Writer Handle) := do
  if writer.pending = [] then return (.ok (), writer)
  match ← disk.append writer.handle writer.pending with
  | .ok () => return (.ok (), { writer with pending := [] })
  | .error fault => return (.error fault, writer)

/-- Make room for bytes, if they need more than there is. -/
def makeRoom (disk : Disk Handle m) (writer : Writer Handle) (bytes : List UInt8) :
    m (Except AccessFault Unit × Writer Handle) :=
  if writer.room < bytes.length then writer.flush disk else return (.ok (), writer)

/-- Take bytes. As many as could be held at most are written at once. -/
def put (disk : Disk Handle m) (writer : Writer Handle) (bytes : List UInt8) :
    m (Except AccessFault Unit × Writer Handle) := do
  if bytes.length < writer.room then return (.ok (), writer.hold bytes)
  match ← writer.makeRoom disk bytes with
  | (.error fault, writer) => return (.error fault, writer)
  | (.ok (), writer) =>
    if capacity ≤ bytes.length then return (← disk.append writer.handle bytes, writer)
    else return (.ok (), writer.hold bytes)

/-- Take pieces in order until one is refused. -/
def putAll (disk : Disk Handle m) (writer : Writer Handle) :
    List (List UInt8) → m (Except AccessFault Unit × Writer Handle)
  | [] => return (.ok (), writer)
  | piece :: rest => do
    match ← writer.put disk piece with
    | (.error fault, writer) => return (.error fault, writer)
    | (.ok (), writer) => writer.putAll disk rest

/-- Take pieces in order, and write all that is held in the end. -/
def finish (disk : Disk Handle m) (writer : Writer Handle) (pieces : List (List UInt8)) :
    m (Except AccessFault Unit × Writer Handle) := do
  match ← writer.putAll disk pieces with
  | (.error fault, writer) => return (.error fault, writer)
  | (.ok (), writer) => writer.flush disk

end Writer

end HackVm
