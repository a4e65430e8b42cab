import PolicyDiagram.Text.Utf8

/-! Where characters stand in a byte sequence that encodes them. -/

namespace PolicyDiagram.Text

/-- The encoding of characters. -/
def encoded (chars : List Char) : List UInt8 := chars.flatMap String.utf8EncodeChar

/-- Exactly these bytes stand from a place on. -/
def Follow (bytes : ByteArray) (i : Nat) (tail : List UInt8) : Prop :=
  bytes.data.toList.drop i = tail

theorem encoded_cons (c : Char) (rest : List Char) :
    encoded (c :: rest) = String.utf8EncodeChar c ++ encoded rest := rfl

@[simp] theorem encoded_append (first second : List Char) :
    encoded (first ++ second) = encoded first ++ encoded second := by
  simp [encoded]

@[simp] theorem length_encoded (chars : List Char) : (encoded chars).length = byteCount chars := by
  induction chars with
  | nil => rfl
  | cons c rest ih => simp [encoded_cons, byteCount, ih]

theorem length_le_byteCount (chars : List Char) : chars.length ≤ byteCount chars := by
  induction chars with
  | nil => simp
  | cons c rest ih =>
    have := c.utf8Size_pos
    simp only [List.length_cons, byteCount]
    omega

theorem toList_toUTF8 (text : String) : text.toUTF8.data.toList = encoded text.toList := by
  rw [String.toUTF8_eq_toByteArray, ← String.utf8Encode_toList, List.utf8Encode,
    List.toList_data_toByteArray, encoded]

theorem size_toUTF8 (text : String) : text.toUTF8.size = byteCount text.toList := by
  rw [← length_encoded, ← toList_toUTF8, Array.length_toList, ByteArray.size_data]

theorem fromUTF8?_toUTF8 (text : String) : String.fromUTF8? text.toUTF8 = some text := by
  have valid : text.toUTF8.IsValidUTF8 := text.isValidUTF8
  rw [String.fromUTF8?, dif_pos valid]
  rfl

theorem follow_toUTF8 (text : String) : Follow text.toUTF8 0 (encoded text.toList) :=
  toList_toUTF8 text

theorem getElem?_of_follow {bytes : ByteArray} {i : Nat} {tail : List UInt8}
    (follow : Follow bytes i tail) : bytes[i]? = tail.head? := by
  have byList : bytes[i]? = bytes.data.toList[i]? := by
    rw [Array.getElem?_toList]
    rfl
  rw [byList, ← follow, List.head?_drop]

theorem follow_append {bytes : ByteArray} {i : Nat} {first second : List UInt8}
    (follow : Follow bytes i (first ++ second)) : Follow bytes (i + first.length) second := by
  unfold Follow at *
  rw [← List.drop_drop, follow, List.drop_left]

theorem follow_cons {bytes : ByteArray} {i : Nat} {byte : UInt8} {tail : List UInt8}
    (follow : Follow bytes i (byte :: tail)) : Follow bytes (i + 1) tail :=
  follow_append (show Follow bytes i ([byte] ++ tail) from follow)

theorem lt_size_of_follow {bytes : ByteArray} {i : Nat} {byte : UInt8} {tail : List UInt8}
    (follow : Follow bytes i (byte :: tail)) : i < bytes.size := by
  have long := congrArg List.length follow
  simp only [List.length_drop, Array.length_toList, ByteArray.size_data, List.length_cons] at long
  omega

theorem charAt?_of_follow {bytes : ByteArray} {i : Nat} {c : Char} {rest : List Char}
    (follow : Follow bytes i (encoded (c :: rest))) : charAt? bytes i = some (c, i + c.utf8Size) := by
  have cut : bytes.extract i bytes.size = (c :: rest).utf8Encode := by
    apply ByteArray.ext
    rw [ByteArray.data_extract, List.utf8Encode, List.data_toByteArray]
    apply Array.toList_inj.mp
    rw [Array.toList_extract, List.extract_eq_take_drop,
      List.take_of_length_le (by simp [ByteArray.size_data])]
    exact follow
  rw [charAt?, ByteArray.utf8DecodeChar?_eq_utf8DecodeChar?_extract, cut,
    List.utf8DecodeChar?_utf8Encode_cons]
  rfl

end PolicyDiagram.Text
