import Mathlib.Data.List.Basic

/-!
# Files that are read as text

`decode` reads the bytes of a file as UTF-8, or fails.  `decode_append_left` and
`decode_append_right` say that a text before or after some bytes makes no
difference to whether they can be read: UTF-8 synchronises itself.
-/

namespace Mgd.Lib.Utf8

/-- The bytes of a text. -/
def encode (text : List Char) : List UInt8 := text.flatMap String.utf8EncodeChar

/-- The text of the bytes, `none` when they are not UTF-8. -/
def decode (bytes : List UInt8) : Option (List Char) :=
  (String.fromUTF8? bytes.toByteArray).map String.toList

theorem encode_append (text more : List Char) :
    encode (text ++ more) = encode text ++ encode more :=
  List.flatMap_append

theorem toByteArray_encode (text : List Char) :
    (encode text).toByteArray = (String.ofList text).toByteArray := by
  rfl

theorem decode_eq_some_iff {bytes : List UInt8} {text : List Char} :
    decode bytes = some text ↔ bytes = encode text := by
  unfold decode String.fromUTF8?
  constructor
  · intro h
    split at h
    · next hValid =>
        have hText : (String.fromUTF8 bytes.toByteArray hValid).toList = text :=
          Option.some.inj h
        apply List.toByteArray_inj.mp
        rw [toByteArray_encode, ← hText, String.ofList_toList]
        rfl
    · cases h
  · rintro rfl
    have hValid : (encode text).toByteArray.IsValidUTF8 := ⟨text, rfl⟩
    rw [dif_pos hValid]
    exact congrArg some String.toList_ofList

theorem decode_encode (text : List Char) : decode (encode text) = some text :=
  decode_eq_some_iff.mpr rfl

theorem decode_isSome_iff {bytes : List UInt8} :
    (decode bytes).isSome = true ↔ bytes.toByteArray.IsValidUTF8 := by
  unfold decode String.fromUTF8?
  rw [Option.isSome_map]
  split
  · next hValid => exact ⟨fun _ => hValid, fun _ => rfl⟩
  · next hNot => exact ⟨fun h => (Bool.false_ne_true h).elim, fun h => absurd h hNot⟩

/-- The beginning of a text that ends in a text is one: where the second begins,
no character of the whole has begun before. -/
theorem isValidUTF8_of_append {a b : ByteArray} (h : (a ++ b).IsValidUTF8)
    (hEnd : b.IsValidUTF8) : a.IsValidUTF8 := by
  by_cases hEmpty : b.size = 0
  · rwa [ByteArray.size_eq_zero_iff.mp hEmpty, ByteArray.append_empty] at h
  · have hPos : 0 < b.size := Nat.pos_of_ne_zero hEmpty
    have hSize : a.size < (a ++ b).size := by
      rw [ByteArray.size_append]
      omega
    have hPosition : String.Pos.Raw.IsValid ⟨a ++ b, h⟩ ⟨a.size⟩ := by
      rw [String.Pos.Raw.isValid_iff_isUTF8FirstByte]
      refine .inr ⟨hSize, ?_⟩
      unfold String.getUTF8Byte
      rw [ByteArray.getElem_append_right (Nat.le_refl _)]
      have hFirst := hEnd.isUTF8FirstByte_getElem_zero hPos
      simpa using hFirst
    have hBefore := (String.Pos.Raw.isValid_iff_isValidUTF8_extract_zero.mp hPosition).2
    rwa [ByteArray.extract_append_eq_left rfl] at hBefore

/-- What follows a text in a text is one: the characters of the first are taken
off one by one. -/
theorem decode_append_left (text : List Char) (bytes : List UInt8) :
    decode (encode text ++ bytes) = (decode bytes).map (text ++ ·) := by
  cases hRest : decode bytes with
  | some more =>
      rw [decode_eq_some_iff.mp hRest, ← encode_append, decode_encode]
      rfl
  | none =>
      rw [Option.map_none, ← Option.not_isSome_iff_eq_none, decode_isSome_iff]
      rw [← Option.not_isSome_iff_eq_none, decode_isSome_iff] at hRest
      induction text with
      | nil => exact hRest
      | cons c text ih =>
          have hFirst : (encode (c :: text) ++ bytes).toByteArray =
              [c].utf8Encode ++ (encode text ++ bytes).toByteArray := by
            rw [List.utf8Encode, ← List.toByteArray_append, ← List.append_assoc, ← encode,
              ← encode_append, List.singleton_append]
          rwa [hFirst, ByteArray.isValidUTF8_utf8Encode_singleton_append_iff]

theorem decode_append_right (bytes : List UInt8) (text : List Char) :
    decode (bytes ++ encode text) = (decode bytes).map (· ++ text) := by
  cases hStart : decode bytes with
  | some start =>
      rw [decode_eq_some_iff.mp hStart, ← encode_append, decode_encode]
      rfl
  | none =>
      rw [← Option.not_isSome_iff_eq_none, decode_isSome_iff] at hStart
      rw [Option.map_none, ← Option.not_isSome_iff_eq_none, decode_isSome_iff,
        List.toByteArray_append]
      exact fun h => hStart (isValidUTF8_of_append h ⟨text, rfl⟩)

end Mgd.Lib.Utf8
