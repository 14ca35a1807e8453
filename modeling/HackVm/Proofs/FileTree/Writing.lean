import HackVm.Compilation
import HackVm.Proofs.FileTree.Walk

/-!
# Writing to a file tree

What a file holds when a writer is done with it. A writer passes pieces on in larger parts, so what
stands in the file lags behind what was taken: `Holds` says that the bytes in the file and those
still pending make up all that was taken, and every step of a writer keeps this. In the end nothing
is pending, and the file holds all pieces; `writeLines_eq` says that writing lines is filling the
file at once.
-/
namespace HackVm

/-- The bytes of lines, each followed by a line feed. -/
def fileContent (lines : Array String) : List UInt8 :=
  lines.toList.flatMap fun line => Text.encode line ++ [lineFeed]

/-- The pieces in which lines are written are their bytes. -/
theorem flatten_linePieces (lines : Array String) :
    (linePieces lines.toList).flatten = fileContent lines := by
  rw [linePieces, fileContent]
  induction lines.toList with
  | nil => rfl
  | cons line rest ih => simp [ih]

namespace FileTree

variable {tree now : FileTree} {place : Key} {written : List UInt8}

/-- Let an open file hold some bytes and no others. A full device can hold none. -/
def fill (tree : FileTree) (place : Key) (content : List UInt8) : Except AccessFault FileTree :=
  if tree.get? place = some .full then
    if content = [] then .ok tree else .error .deviceFull
  else .ok (tree.put place (.file content))

/-- Open a path for writing, and let the file hold some bytes and no others. -/
def write (tree : FileTree) (path : Path) (content : List UInt8) : Except AccessFault FileTree := do
  tree.fill (← tree.writeKey path) content

/-- A file just opened for writing holds nothing. -/
theorem create_eq (tree : FileTree) (path : Path) :
    tree.create path = (do
      let place ← tree.writeKey path
      (tree.fill place []).map (place, ·)) := by
  rw [create]
  cases tree.writeKey path with
  | error fault => rfl
  | ok place =>
    simp only [bind, Except.bind, pure, Except.pure, fill]
    split <;> rfl

/-- Every file can be emptied. -/
theorem exists_fill_nil (tree : FileTree) (place : Key) : ∃ now, tree.fill place [] = .ok now := by
  rw [fill]
  split
  · exact ⟨tree, rfl⟩
  · exact ⟨_, rfl⟩

/-- Writing to a file that holds some bytes lets it hold more. -/
theorem append_of_fill (free : tree.get? place ≠ some .directory)
    (filled : tree.fill place written = .ok now) (bytes : List UInt8) :
    now.append place bytes = tree.fill place (written ++ bytes) := by
  rw [fill] at filled ⊢
  by_cases full : tree.get? place = some .full
  · rw [if_pos full] at filled ⊢
    split at filled
    · rename_i empty
      obtain rfl := Except.ok.inj filled
      rw [append, full, empty, List.nil_append]
    · contradiction
  · rw [if_neg full] at filled ⊢
    obtain rfl := Except.ok.inj filled
    have stands : (tree.put place (.file written)).get? place = some (.file written) := by
      rw [get?_put free, if_pos rfl]
    simp only [append, stands, put_put]

/-- Bytes are refused only by a full device, if there is one at all. -/
theorem fill_eq_error_iff {bytes : List UInt8} {fault : AccessFault} :
    tree.fill place bytes = .error fault ↔
      tree.get? place = some .full ∧ bytes ≠ [] ∧ fault = .deviceFull := by
  rw [fill]
  by_cases full : tree.get? place = some .full
  · by_cases empty : bytes = [] <;> simp [full, empty, eq_comm]
  · simp [full]

/-- Where bytes can be refused, the tree is as it was before the file was opened. -/
theorem eq_of_fill (full : tree.get? place = some .full)
    (filled : tree.fill place written = .ok now) : now = tree := by
  rw [fill, if_pos full] at filled
  split at filled
  · exact (Except.ok.inj filled).symm
  · contradiction

end FileTree

/-- Writing bytes to an open file of a tree is what the tree says. -/
theorem Disk.append_tree (tree : FileTree) (place : Key) (bytes : List UInt8) :
    Disk.tree.append place bytes tree =
      match tree.append place bytes with
      | .ok after => some (.ok (), after)
      | .error fault => some (.error fault, tree) := by
  simp only [Disk.tree, Disk.change]
  cases tree.append place bytes <;> rfl

namespace Writer

variable {tree now : FileTree} {place : Key} {writer : Writer Key} {taken : List UInt8}

/-- A writer to an open file of a tree has taken some bytes: the file holds those that are written,
and the others are pending. -/
structure Holds (tree : FileTree) (place : Key) (writer : Writer Key) (now : FileTree)
    (taken : List UInt8) : Prop where
  /-- The writer writes to the file. -/
  handle : writer.handle = place
  /-- Bytes are written or pending. -/
  parts : ∃ written, tree.fill place written = .ok now ∧ written ++ writer.pending = taken

/-- What a step of a writer comes to. -/
inductive Comes (tree : FileTree) (place : Key) (taken : List UInt8) :
    Option ((Except AccessFault Unit × Writer Key) × FileTree) → Prop where
  /-- All bytes are taken. -/
  | taken {writer : Writer Key} {now : FileTree} (holds : Holds tree place writer now taken) :
    Comes tree place taken (some ((.ok (), writer), now))
  /-- The file is a full device, which has refused some of them. -/
  | refused {writer : Writer Key} (handle : writer.handle = place)
    (full : tree.get? place = some .full) (nonempty : taken ≠ []) :
    Comes tree place taken (some ((.error .deviceFull, writer), tree))

/-- A writer to a file just opened has taken nothing. -/
theorem holds_ofHandle (filled : tree.fill place [] = .ok now) :
    Holds tree place (ofHandle place) now [] :=
  ⟨rfl, [], filled, rfl⟩

/-- A writer can hold more bytes back. -/
theorem Holds.hold (holds : Holds tree place writer now taken) (bytes : List UInt8) :
    Holds tree place (writer.hold bytes) now (taken ++ bytes) := by
  obtain ⟨handle, written, filled, rfl⟩ := holds
  exact ⟨handle, written, filled, (List.append_assoc ..).symm⟩

/-- Flushing lets the file hold all that was taken. -/
theorem Holds.flush_eq (free : tree.get? place ≠ some .directory)
    (holds : Holds tree place writer now taken) :
    writer.flush Disk.tree now =
      match tree.fill place taken with
      | .ok after => some ((.ok (), { writer with pending := [] }), after)
      | .error fault => some ((.error fault, writer), tree) := by
  obtain ⟨rfl, written, filled, rfl⟩ := holds
  obtain ⟨handle, pending⟩ := writer
  rw [flush]
  by_cases empty : pending = []
  · subst empty
    simp only [List.append_nil, filled]
    rfl
  · rw [if_neg empty]
    have appended := FileTree.append_of_fill free filled pending
    simp only [bind, StateT.bind, Disk.append_tree, appended]
    cases refilled : tree.fill handle (written ++ pending) with
    | ok after => rfl
    | error fault =>
      rw [FileTree.eq_of_fill (FileTree.fill_eq_error_iff.mp refilled).1 filled]
      rfl

/-- A writer that is given up leaves a full device as it is. -/
theorem flush_of_full (full : tree.get? writer.handle = some .full) :
    ∃ outcome, writer.flush Disk.tree tree = some (outcome, tree) := by
  rw [flush]
  by_cases empty : writer.pending = []
  · exact ⟨_, by rw [if_pos empty]; rfl⟩
  · have refused : tree.append writer.handle writer.pending = .error .deviceFull := by
      simp only [FileTree.append, full]
      exact if_neg empty
    refine ⟨(.error .deviceFull, writer), ?_⟩
    rw [if_neg empty]
    simp only [bind, StateT.bind, Disk.append_tree, refused]
    rfl

/-- Making room takes no bytes, and for as many as can be held at most nothing stays pending. -/
theorem Holds.makeRoom (free : tree.get? place ≠ some .directory)
    (holds : Holds tree place writer now taken) (bytes : List UInt8) :
    (∃ next after, writer.makeRoom Disk.tree bytes now = some ((.ok (), next), after) ∧
        Holds tree place next after taken ∧ (capacity ≤ bytes.length → next.pending = [])) ∨
      writer.makeRoom Disk.tree bytes now = some ((.error .deviceFull, writer), tree) ∧
        tree.get? place = some .full ∧ taken ≠ [] := by
  rw [Writer.makeRoom]
  by_cases short : writer.room < bytes.length
  · rw [if_pos short, holds.flush_eq free]
    cases filled : tree.fill place taken with
    | ok after =>
      have still : Holds tree place { writer with pending := [] } after taken :=
        ⟨holds.handle, taken, filled, taken.append_nil⟩
      exact .inl ⟨_, after, rfl, still, fun _ => rfl⟩
    | error fault =>
      obtain ⟨full, nonempty, rfl⟩ := FileTree.fill_eq_error_iff.mp filled
      exact .inr ⟨rfl, full, nonempty⟩
  · rw [if_neg short]
    refine .inl ⟨writer, now, rfl, holds, fun long => ?_⟩
    have positive : 0 < capacity := by decide
    rw [room] at short
    exact List.eq_nil_of_length_eq_zero (by omega)

/-- One more piece is taken, or refused by a full device. -/
theorem Holds.put (free : tree.get? place ≠ some .directory)
    (holds : Holds tree place writer now taken) (bytes : List UInt8) :
    Comes tree place (taken ++ bytes) (writer.put Disk.tree bytes now) := by
  rw [Writer.put]
  by_cases fits : bytes.length < writer.room
  · rw [if_pos fits]
    exact .taken (holds.hold bytes)
  · rw [if_neg fits]
    obtain ⟨next, after, made, still, cleared⟩ | ⟨made, full, nonempty⟩ :=
      holds.makeRoom free bytes
    · simp only [bind, StateT.bind, made]
      by_cases long : capacity ≤ bytes.length
      · -- Nothing is pending, so the bytes follow those in the file directly.
        obtain ⟨rfl, written, filled, rfl⟩ := still
        have appended := FileTree.append_of_fill free filled bytes
        rw [cleared long, List.append_nil]
        simp only [Option.bind_some, if_pos long]
        simp only [StateT.bind, bind, Disk.append_tree, appended]
        cases refilled : tree.fill next.handle (written ++ bytes) with
        | ok later => exact .taken ⟨rfl, _, refilled, by rw [cleared long, List.append_nil]⟩
        | error fault =>
          obtain ⟨full, nonempty, rfl⟩ := FileTree.fill_eq_error_iff.mp refilled
          rw [FileTree.eq_of_fill full filled]
          exact .refused rfl full nonempty
      · simp only [Option.bind_some, if_neg long]
        exact .taken (still.hold bytes)
    · simp only [bind, StateT.bind, made]
      exact .refused holds.handle full (List.append_ne_nil_of_left_ne_nil nonempty bytes)

/-- Pieces are taken to the last one, or refused by a full device. -/
theorem Holds.putAll (free : tree.get? place ≠ some .directory)
    (holds : Holds tree place writer now taken) (pieces : List (List UInt8)) :
    Comes tree place (taken ++ pieces.flatten) (writer.putAll Disk.tree pieces now) := by
  induction pieces generalizing writer now taken with
  | nil =>
    rw [List.flatten_nil, List.append_nil]
    exact .taken holds
  | cons piece rest ih =>
    rw [List.flatten_cons, ← List.append_assoc, Writer.putAll]
    simp only [bind, StateT.bind]
    have comes := holds.put free piece
    generalize writer.put Disk.tree piece now = outcome at comes ⊢
    cases comes with
    | taken still => exact ih still
    | refused handle full nonempty =>
      exact .refused handle full (List.append_ne_nil_of_left_ne_nil nonempty _)

/-- When all pieces are taken and the rest is flushed, the file holds all that was taken and nothing
is pending; else the tree is as it was. -/
theorem Holds.finish (free : tree.get? place ≠ some .directory)
    (holds : Holds tree place writer now taken) (pieces : List (List UInt8)) :
    ∃ left, left.handle = place ∧
      match tree.fill place (taken ++ pieces.flatten) with
      | .ok after =>
        writer.finish Disk.tree pieces now = some ((.ok (), left), after) ∧ left.pending = []
      | .error fault => writer.finish Disk.tree pieces now = some ((.error fault, left), tree) := by
  simp only [Writer.finish, bind, StateT.bind]
  have comes := holds.putAll free pieces
  generalize writer.putAll Disk.tree pieces now = outcome at comes ⊢
  cases comes with
  | @taken last before still =>
    simp only [Option.bind_some, still.flush_eq free]
    cases tree.fill place (taken ++ pieces.flatten) with
    | ok after => exact ⟨{ last with pending := [] }, still.handle, rfl, rfl⟩
    | error fault => exact ⟨last, still.handle, rfl⟩
  | @refused last handle full nonempty =>
    rw [FileTree.fill_eq_error_iff.mpr ⟨full, nonempty, rfl⟩]
    exact ⟨last, handle, rfl⟩

end Writer

/-- Writing lines to a file of a tree lets it hold their bytes at once. What cannot be written
changes nothing. -/
theorem writeLines_eq (tree : FileTree) (output : Path) (lines : Array String) :
    writeLines Disk.tree output lines tree =
      match tree.write output (fileContent lines) with
      | .ok after => some (.ok (), after)
      | .error fault => some (.error fault, tree) := by
  simp only [writeLines, bind, StateT.bind, FileTree.write, Except.bind]
  have created := tree.create_eq output
  cases opened : tree.writeKey output with
  | error fault =>
    simp only [opened, bind, Except.bind] at created
    simp only [Disk.tree, Disk.change, created]
    rfl
  | ok place =>
    have free := FileTree.free_of_writeKey opened
    obtain ⟨now, emptied⟩ := tree.exists_fill_nil place
    simp only [opened, bind, Except.bind, emptied] at created
    obtain ⟨left, handle, finished⟩ :=
      (Writer.holds_ofHandle emptied).finish free (linePieces lines.toList)
    rw [List.nil_append, flatten_linePieces] at finished
    have started : Disk.tree.create output tree = some (.ok place, now) := by
      simp only [Disk.tree, Disk.change, created]
      rfl
    simp only [started, Option.bind_some]
    simp only [StateT.bind, bind]
    cases filled : tree.fill place (fileContent lines) with
    | ok after =>
      rw [filled] at finished
      obtain ⟨finished, empty⟩ := finished
      rw [finished, Option.bind_some, Writer.flush, if_pos empty]
      rfl
    | error fault =>
      rw [filled] at finished
      have full := (FileTree.fill_eq_error_iff.mp filled).1
      rw [← handle] at full
      obtain ⟨outcome, flushed⟩ := Writer.flush_of_full full
      rw [finished, Option.bind_some, flushed]
      rfl

end HackVm
