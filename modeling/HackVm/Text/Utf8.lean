/-!
# Text as bytes

Files, paths and arguments are bytes; commands and messages are text. `encode` and `decode?` go
between the two by UTF-8 and undo each other: `decode?_eq_some_iff` says that the bytes read as
a text are exactly the bytes written for it. `display` shows bytes that need not be UTF-8: it
cuts them into the sequences that encode one character and the maximal sequences that begin
like one, and shows each of the latter as one replacement character.
-/
namespace HackVm.Text

/-- The UTF-8 bytes of a text. -/
def encode (text : String) : List UInt8 := text.toByteArray.data.toList

/-- The text that the bytes encode, when they are UTF-8. -/
def decode? (bytes : List UInt8) : Option String := String.fromUTF8? ⟨bytes.toArray⟩

/-- Bytes are read as a text exactly when they are the bytes written for it. -/
theorem decode?_eq_some_iff {bytes : List UInt8} {text : String} :
    decode? bytes = some text ↔ bytes = encode text := by
  constructor
  · intro decoded
    simp only [decode?, String.fromUTF8?] at decoded
    split at decoded
    · obtain rfl := Option.some.inj decoded
      rfl
    · contradiction
  · rintro rfl
    have valid := text.isValidUTF8
    simp only [decode?, encode, Array.toArray_toList, String.fromUTF8?, valid, ↓reduceDIte]
    rfl

/-- The bytes written for a text are read as that text. -/
@[simp]
theorem decode?_encode (text : String) : decode? (encode text) = some text :=
  decode?_eq_some_iff.mpr rfl

/-- An inclusive range of bytes. -/
structure ByteRange where
  /-- Least byte of the range. -/
  least : UInt8
  /-- Greatest byte of the range. -/
  greatest : UInt8
deriving DecidableEq, Repr

/-- The bytes that may continue any character. -/
def ByteRange.continuation : ByteRange := ⟨0x80, 0xBF⟩

/-- The ranges of the bytes that must follow a first byte, in order. No byte follows one that
stands for itself, nor one that begins no character. -/
def followers (first : UInt8) : List ByteRange :=
  if first < 0xC2 then []
  else if first < 0xE0 then [.continuation]
  else if first = 0xE0 then [⟨0xA0, 0xBF⟩, .continuation]
  else if first = 0xED then [⟨0x80, 0x9F⟩, .continuation]
  else if first < 0xF0 then [.continuation, .continuation]
  else if first = 0xF0 then [⟨0x90, 0xBF⟩, .continuation, .continuation]
  else if first < 0xF4 then [.continuation, .continuation, .continuation]
  else if first = 0xF4 then [⟨0x80, 0x8F⟩, .continuation, .continuation]
  else []

/-- How many of the bytes lie in the ranges, byte by range, before the first that does not. -/
def following : List ByteRange → List UInt8 → Nat
  | range :: ranges, byte :: bytes =>
    if range.least ≤ byte ∧ byte ≤ range.greatest then following ranges bytes + 1 else 0
  | _, _ => 0

/-- Cut bytes into sequences, each of which encodes one character or is as long as the bytes
agree with the beginning of some character, and at least one byte. -/
def sequences : List UInt8 → List (List UInt8)
  | [] => []
  | first :: rest =>
    let count := following (followers first) rest
    (first :: rest.take count) :: sequences (rest.drop count)
termination_by bytes => bytes.length
decreasing_by
  simp only [List.length_drop, List.length_cons]
  omega

/-- The text of bytes, with one replacement character for each sequence that is not UTF-8. -/
def display (bytes : List UInt8) : String :=
  String.join ((sequences bytes).map fun sequence => (decode? sequence).getD "\uFFFD")

end HackVm.Text
