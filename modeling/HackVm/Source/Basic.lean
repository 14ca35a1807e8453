import HackVm.AccessFault
import HackVm.Text.Utf8

/-!
# Sources

A source is read in chunks: a read gives some bytes or fails, and after a failure the next read
goes on behind it. A read that was only interrupted is made again before anybody learns of it, so it
is no chunk. What a source holds is a sequence of items, each a line or a failed read.
`Source.next?` takes the first item off a source and returns what is left to read. A line ends
at a line feed, which is dropped together with one carriage return before it; the last line may
lack its line feed and then loses nothing. A failed read ends the line before it, and what was
read of that line is lost. `weight_next?` bounds the number of items: every item taken makes the
source lighter.
-/
namespace HackVm

/-- What one read gives. -/
inductive Chunk where
  /-- Bytes, possibly none. -/
  | bytes (data : List UInt8)
  /-- A refusal, for any reason but an interruption: the reader makes an interrupted read again. -/
  | failure (fault : AccessFault)
deriving DecidableEq, Repr

/-- The reads of a source, in order; after the last one the source is at its end. -/
abbrev Source := List Chunk

/-- A line, or a read that failed in place of one. -/
inductive Item where
  /-- The bytes of a line without its ending. -/
  | line (bytes : List UInt8)
  /-- A refusal. -/
  | failure (fault : AccessFault)
deriving DecidableEq, Repr

/-- The text of an item; a line that is not UTF-8 has none. -/
def Item.text : Item → Except AccessFault String
  | line bytes =>
    match Text.decode? bytes with
    | some text => .ok text
    | none => .error .notText
  | failure fault => .error fault

/-- The byte that ends a line. -/
def lineFeed : UInt8 := 10

/-- The byte that may stand before a line feed and belongs to the ending of the line. -/
def carriageReturn : UInt8 := 13

/-- A terminated line without the carriage return at its end. -/
def dropReturn (line : List UInt8) : List UInt8 :=
  if line.getLast? = some carriageReturn then line.dropLast else line

namespace Source

/-- How much a source holds: its bytes and its failures. -/
def weight : Source → Nat
  | [] => 0
  | .bytes data :: rest => data.length + weight rest
  | .failure _ :: rest => 1 + weight rest

/-- Take the first item off a source of which the bytes `begun` of a line were already read. A
failing read takes the place of the line it was for; interrupted reads, which are made again at
once, are not among the reads of a source. -/
def nextFrom? (begun : List UInt8) : Source → Option (Item × Source)
  | [] => if begun = [] then none else some (.line begun, [])
  | .failure fault :: rest => some (.failure fault, rest)
  | .bytes data :: rest =>
    match data.dropWhile (· != lineFeed) with
    | [] => nextFrom? (begun ++ data) rest
    | _ :: later =>
      some (.line (dropReturn (begun ++ data.takeWhile (· != lineFeed))), .bytes later :: rest)

/-- Take the first item off a source. -/
def next? (source : Source) : Option (Item × Source) := nextFrom? [] source

/-- What is left is lighter than what there was, counting the begun line. -/
theorem weight_nextFrom? {begun : List UInt8} {source rest : Source} {item : Item}
    (taken : nextFrom? begun source = some (item, rest)) :
    rest.weight < begun.length + source.weight := by
  induction source generalizing begun with
  | nil =>
    simp only [nextFrom?] at taken
    split at taken
    · contradiction
    · rename_i nonempty
      obtain ⟨rfl, rfl⟩ := Prod.mk.inj (Option.some.inj taken)
      have positive := List.length_pos_iff.mpr nonempty
      simp only [weight]
      omega
  | cons chunk source ih =>
    cases chunk with
    | failure fault =>
      simp only [nextFrom?, Option.some.injEq, Prod.mk.injEq] at taken
      obtain ⟨rfl, rfl⟩ := taken
      simp only [weight]
      omega
    | bytes data =>
      simp only [nextFrom?] at taken
      split at taken
      · have lighter := ih taken
        simp only [List.length_append] at lighter
        simp only [weight]
        omega
      · rename_i ending later dropped
        obtain ⟨rfl, rfl⟩ := Prod.mk.inj (Option.some.inj taken)
        have shorter := (List.dropWhile_suffix (l := data) (· != lineFeed)).length_le
        rw [dropped] at shorter
        simp only [List.length_cons] at shorter
        simp only [weight]
        omega

/-- Taking an item makes a source lighter. -/
theorem weight_next? {source rest : Source} {item : Item}
    (taken : source.next? = some (item, rest)) : rest.weight < source.weight := by
  simpa using weight_nextFrom? taken

end Source

end HackVm
