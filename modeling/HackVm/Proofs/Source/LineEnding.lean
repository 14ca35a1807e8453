import HackVm.Proofs.Grammar
import HackVm.Proofs.Source.Items
import HackVm.Proofs.Text.Folding

/-!
# Carriage returns at the end of a line

A line that ends at a line feed loses one carriage return at its end, and the last line of a source
keeps it. This makes no difference to what the line says: the bytes are a text with the carriage
return exactly when they are one without it, and in the text it belongs to a comment or is a blank
behind the last word, of which no letter takes notice when it is made small. `reading_dropReturn`
says so of a line as a whole, errors included.
-/
namespace HackVm

namespace Text

/-- The bytes of two texts one after the other. -/
theorem encode_append (front back : String) :
    encode (front ++ back) = encode front ++ encode back := by
  simp [encode, String.toByteArray_append]

/-- A character in ASCII has its code for its only byte, and all bytes of any other are outside
ASCII. -/
theorem encode_singleton_cases (char : Char) :
    encode (String.singleton char) = [UInt8.ofNat char.toNat] ∧ char.toNat < 128 ∨
      encode (String.singleton char) ≠ [] ∧
        ∀ byte ∈ encode (String.singleton char), 128 ≤ byte.toNat := by
  have bytes : encode (String.singleton char) = String.utf8EncodeChar char := by
    rw [encode, String.toByteArray_singleton, List.utf8Encode_singleton, List.data_toByteArray]
  have high (code : Nat) (large : 128 ≤ code % 256) : 128 ≤ (UInt8.ofNat code).toNat := by
    rw [UInt8.toNat_ofNat']
    exact large
  rw [bytes]
  unfold String.utf8EncodeChar
  dsimp only
  by_cases single : char.val.toNat ≤ 127
  · exact .inl ⟨if_pos single, Nat.lt_succ_of_le single⟩
  · rw [if_neg single]
    right
    split
    · refine ⟨List.cons_ne_nil _ _, ?_⟩
      simp only [List.forall_mem_cons]
      exact ⟨high _ (by omega), high _ (by omega), List.forall_mem_nil _⟩
    · split
      · refine ⟨List.cons_ne_nil _ _, ?_⟩
        simp only [List.forall_mem_cons]
        exact ⟨high _ (by omega), high _ (by omega), high _ (by omega), List.forall_mem_nil _⟩
      · refine ⟨List.cons_ne_nil _ _, ?_⟩
        simp only [List.forall_mem_cons]
        exact ⟨high _ (by omega), high _ (by omega), high _ (by omega), high _ (by omega),
          List.forall_mem_nil _⟩

/-- Bytes with a carriage return at their end are a text exactly when those before it are one. -/
theorem decode?_append_return (bytes : List UInt8) :
    decode? (bytes ++ [carriageReturn]) = (decode? bytes).map (· ++ "\r") := by
  have returned : encode "\r" = [carriageReturn] := by decide
  cases decoded : decode? bytes with
  | some text =>
    rw [decode?_eq_some_iff] at decoded
    rw [Option.map_some, decode?_eq_some_iff, encode_append, decoded, returned]
  | none =>
    cases whole : decode? (bytes ++ [carriageReturn]) with
    | none => rfl
    | some text =>
      rw [decode?_eq_some_iff] at whole
      induction text using String.push_induction with
      | empty => simp [encode] at whole
      | push text char =>
        rw [String.push_eq_append, encode_append] at whole
        rcases encode_singleton_cases char with ⟨single, -⟩ | ⟨some, high⟩
        · -- The last character is the carriage return, so the bytes before it are a text.
          rw [single] at whole
          obtain ⟨rfl, -⟩ := List.append_inj' whole rfl
          rw [decode?_encode] at decoded
          contradiction
        · have last := high _ (List.getLast_mem some)
          rw [← List.dropLast_append_getLast some, ← List.append_assoc] at whole
          obtain ⟨-, same⟩ := List.append_inj' whole rfl
          rw [← (List.cons.inj same).1] at last
          exact absurd last (by decide)

/-- A carriage return at the end of a text changes none of its words. -/
theorem words_append_return (chars : List Char) : words (chars ++ ['\r']) = words chars := by
  have blank : isBlank '\r' = true := by decide
  rw [words_append_blank _ [] blank, words_nil, List.append_nil]

end Text

/-- The words of a line are those of its code, each in lowercase. -/
theorem lineWords_eq (line : String) :
    lineWords line = (Text.words (codePart line.toList)).map (String.ofList ∘ Text.lowercase) := by
  rw [lineWords, Text.words_lowercase, List.map_map]

/-- A carriage return at the end of a line changes none of its words. -/
theorem lineWords_append_return (line : String) : lineWords (line ++ "\r") = lineWords line := by
  have chars : (line ++ "\r").toList = line.toList ++ ['\r'] := String.toList_append
  rw [lineWords_eq, lineWords_eq, words_codePart, words_codePart, chars, Text.words_append_return]

/-- A line says the same without the carriage return at its end. -/
theorem reading_dropReturn (bytes : List UInt8) (line : Nat) :
    (Item.line (dropReturn bytes)).reading line = (Item.line bytes).reading line := by
  rw [dropReturn]
  split
  · rename_i ends
    obtain ⟨front, rfl⟩ := List.getLast?_eq_some_iff.mp ends
    rw [List.dropLast_concat]
    simp only [Item.reading, Item.text, Text.decode?_append_return]
    cases Text.decode? front with
    | none => rfl
    | some text =>
      simp only [Option.map_some, parseLine, Command.ofLine, lineWords_append_return]
  · rfl

end HackVm
