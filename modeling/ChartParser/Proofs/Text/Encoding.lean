import ChartParser.Proofs.Text.Pieces
import ChartParser.Text.Encoding

/-!
# Lines of encoded texts

A byte below 128 stands in an encoding only for the character of that number. So
the lines of a text are the same whether the text or its bytes are taken apart.
-/

namespace ChartParser.Text

/-- The bytes that encode characters. -/
def encoded (characters : List Char) : List UInt8 :=
  characters.flatMap String.utf8EncodeChar

@[simp] theorem encoded_nil : encoded [] = [] :=
  rfl

@[simp] theorem encoded_append (first second : List Char) :
    encoded (first ++ second) = encoded first ++ encoded second := by
  simp [encoded]

@[simp] theorem encoded_cons (character : Char) (later : List Char) :
    encoded (character :: later) = String.utf8EncodeChar character ++ encoded later := by
  simp [encoded]

/-- The bytes of a text encode its characters. -/
theorem bytes_eq_encoded (text : String) : bytes text = encoded text.toList := by
  rw [bytes, String.toUTF8, ← String.utf8Encode_toList, List.utf8Encode, List.data_toByteArray]
  rfl

/-- Characters encode the bytes of the text that they make. -/
theorem bytes_ofList (characters : List Char) :
    bytes (String.ofList characters) = encoded characters := by
  rw [bytes_eq_encoded, String.toList_ofList]

/-- Decoding finds the text that is encoded. -/
theorem fromUTF8?_eq_some_iff {encoding : List UInt8} {text : String} :
    String.fromUTF8? ⟨encoding.toArray⟩ = some text ↔ encoding = bytes text := by
  constructor
  · intro decoded
    rw [String.fromUTF8?] at decoded
    split at decoded
    · obtain rfl := Option.some.inj decoded
      rfl
    · cases decoded
  · rintro rfl
    rw [bytes, Array.toArray_toList]
    exact dif_pos text.isValidUTF8

/-- Decoding finds nothing where no text is encoded. -/
theorem fromUTF8?_eq_none_iff {encoding : List UInt8} :
    String.fromUTF8? ⟨encoding.toArray⟩ = none ↔ ∀ text, encoding ≠ bytes text := by
  simp only [Option.eq_none_iff_forall_ne_some, ne_eq, fromUTF8?_eq_some_iff]

/-- Different texts have different bytes. -/
theorem bytes_injective : Function.Injective bytes := by
  intro first second same
  have decoded := fromUTF8?_eq_some_iff.mpr (rfl : bytes first = bytes first)
  exact Option.some.inj (decoded.symm.trans (fromUTF8?_eq_some_iff.mpr same))

/-- A byte below 128 in the encoding of a character is the number of the character. -/
theorem eq_of_mem_utf8EncodeChar {character : Char} {byte : UInt8} (ascii : byte.toNat < 128)
    (member : byte ∈ String.utf8EncodeChar character) : character.toNat = byte.toNat := by
  have number : character.val.toNat = character.toNat := rfl
  simp only [String.utf8EncodeChar, number] at member
  split at member
  · obtain rfl := List.mem_singleton.mp member
    rw [UInt8.toNat_ofNat']
    omega
  -- Every byte of a longer encoding has its highest bit set.
  · exfalso
    have high : ∃ value, 128 ≤ value ∧ value < 256 ∧ byte = UInt8.ofNat value := by
      split at member
      · simp only [List.mem_cons, List.not_mem_nil, or_false] at member
        rcases member with rfl | rfl <;> exact ⟨_, by omega, by omega, rfl⟩
      · split at member <;> simp only [List.mem_cons, List.not_mem_nil, or_false] at member
        · rcases member with rfl | rfl | rfl <;> exact ⟨_, by omega, by omega, rfl⟩
        · rcases member with rfl | rfl | rfl | rfl <;> exact ⟨_, by omega, by omega, rfl⟩
    obtain ⟨value, atLeast, below, rfl⟩ := high
    rw [UInt8.toNat_ofNat'] at ascii
    omega

/-- A line feed is encoded by one byte. -/
theorem encoded_lineFeed : String.utf8EncodeChar '\n' = [0x0A] := by
  decide

/-- A carriage return is encoded by one byte. -/
theorem encoded_carriageReturn : String.utf8EncodeChar '\r' = [0x0D] := by
  decide

/-- The byte of a line feed stands only for line feeds. -/
theorem lineFeed_mem_encoded {characters : List Char} :
    0x0A ∈ encoded characters ↔ '\n' ∈ characters := by
  rw [encoded, List.mem_flatMap]
  constructor
  · rintro ⟨character, member, found⟩
    have same := eq_of_mem_utf8EncodeChar (by decide) found
    have isFeed : character = '\n' := Char.toNat_inj.mp same
    exact isFeed ▸ member
  · intro member
    exact ⟨'\n', member, by decide⟩

/-- The lines of an encoding encode the lines of the text. -/
theorem pieces_encoded (characters : List Char) :
    pieces 0x0A (encoded characters) =
      ⟨(pieces '\n' characters).ended.map encoded, encoded (pieces '\n' characters).rest⟩ := by
  induction characters using pieces_induction '\n' with
  | unended items absent =>
      rw [pieces_of_not_mem absent, pieces_of_not_mem (lineFeed_mem_encoded.not.mpr absent)]
      rfl
  | ended piece later absent inductionHypothesis =>
      have shape : encoded (piece ++ '\n' :: later) = encoded piece ++ 0x0A :: encoded later := by
        rw [encoded_append, encoded_cons, encoded_lineFeed, List.singleton_append]
      rw [shape, pieces_append_cons (lineFeed_mem_encoded.not.mpr absent),
        pieces_append_cons absent, inductionHypothesis]
      rfl

/-- A carriage return is left out from the bytes of a text as from the text. -/
theorem dropFinal_bytes (text : String) :
    dropFinal 0x0D (bytes text) = bytes (String.ofList (dropFinal '\r' text.toList)) := by
  rw [bytes_eq_encoded, bytes_ofList]
  rcases List.eq_nil_or_concat' text.toList with none | ⟨before, last, characters⟩
  · rw [none]
    rfl
  · rw [characters]
    by_cases isReturn : last = '\r'
    · subst isReturn
      rw [dropFinal_concat, encoded_append, encoded_cons, encoded_carriageReturn, encoded_nil,
        List.append_nil, dropFinal_concat]
    · have other : (encoded (before ++ [last])).getLast? ≠ some 0x0D := by
        intro found
        rw [encoded_append, encoded_cons, encoded_nil, List.append_nil,
          List.getLast?_append_of_ne_nil _ String.utf8EncodeChar_ne_nil] at found
        have same := eq_of_mem_utf8EncodeChar (by decide) (List.mem_of_getLast? found)
        exact isReturn (Char.toNat_inj.mp same)
      rw [dropFinal_of_getLast?_ne other, dropFinal_of_getLast?_ne (by simpa using isReturn)]

/-- What encodes no text encodes none without a carriage return at its end. -/
theorem dropFinal_ne_bytes {encoding : List UInt8} (notText : ∀ text, encoding ≠ bytes text)
    (text : String) : dropFinal 0x0D encoding ≠ bytes text := by
  intro isText
  rcases dropFinal_cases 0x0D encoding with same | longer
  · exact notText text (same.symm.trans isText)
  · apply notText (String.ofList (text.toList ++ ['\r']))
    rw [longer, isText, bytes_ofList, encoded_append, bytes_eq_encoded, encoded_cons,
      encoded_carriageReturn, encoded_nil, List.append_nil]

end ChartParser.Text
