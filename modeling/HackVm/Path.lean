import HackVm.Text.Utf8

/-!
# Paths

A path is a list of bytes in which slashes separate names. The last name of a path is found
without regard to slashes and single dots at its end; a path of nothing else has none, and
neither has one that ends by going up. The last dot of a name, unless the name begins with it,
separates its stem from its extension. The stem names the static variables of a file, and the
output of a file differs from it in the extension only.
-/
namespace HackVm

/-- A path as the operating system sees it. -/
structure Path where
  /-- Names and slashes. -/
  bytes : List UInt8
deriving DecidableEq, Repr

namespace Path

/-- The byte between names. -/
def slash : UInt8 := 47

/-- The byte between a stem and an extension. -/
def dot : UInt8 := 46

/-- The name of the directory above. -/
def above : List UInt8 := [dot, dot]

/-- The path written by a text. -/
def ofString (text : String) : Path := ⟨Text.encode text⟩

/-- The path as text. -/
def display (path : Path) : String := Text.display path.bytes

/-- Drop the slashes and single dots at the end of a path given backwards. -/
def dropEnding : List UInt8 → List UInt8
  | [] => []
  | byte :: earlier =>
    if byte = slash then dropEnding earlier
    else if byte = dot then
      match earlier with
      | [] => []
      | next :: rest => if next = slash then dropEnding rest else byte :: earlier
    else byte :: earlier

/-- The last name of a path, with the bytes before it. -/
def lastName? (bytes : List UInt8) : Option (List UInt8 × List UInt8) :=
  let backwards := dropEnding bytes.reverse
  let name := (backwards.takeWhile (· != slash)).reverse
  if name = [] ∨ name = above then none
  else some ((backwards.dropWhile (· != slash)).reverse, name)

/-- The stem of a name and the extension, if there is one. -/
def splitName (name : List UInt8) : List UInt8 × Option (List UInt8) :=
  let backwards := name.reverse
  match backwards.dropWhile (· != dot) with
  | [] | [_] => (name, none)
  | _ :: stem => (stem.reverse, some (backwards.takeWhile (· != dot)).reverse)

/-- The stem of the last name. -/
def stem? (path : Path) : Option (List UInt8) :=
  (lastName? path.bytes).map fun (_, name) => (splitName name).1

/-- The extension of the last name. -/
def extension? (path : Path) : Option (List UInt8) :=
  (lastName? path.bytes).bind fun (_, name) => (splitName name).2

/-- Put an extension in place of what follows the stem of the last name. -/
def setExtension (path : Path) (extension : List UInt8) : Path :=
  match lastName? path.bytes with
  | none => path
  | some (before, name) => ⟨before ++ (splitName name).1 ++ dot :: extension⟩

/-- Take as many bytes off the end as the extension has, then set a new one. A path without a
last name stays as it is, also when it lost its name by the first step. -/
def withExtension (path : Path) (extension : List UInt8) : Path :=
  let cut := (path.extension?.map (·.length)).getD 0
  setExtension ⟨path.bytes.take (path.bytes.length - cut)⟩ extension

/-- Where the assembly of a source file goes unless the user says otherwise. -/
def output (path : Path) : Path := path.withExtension (Text.encode "asm")

/-- The name that qualifies the static variables of a source file: the stem of its last name,
if that is text and not empty. -/
def qualifier? (path : Path) : Option String :=
  (path.stem?.bind Text.decode?).filter fun stem => !stem.isEmpty

end Path

end HackVm
