import PolicyDiagram.Yaml.Stream
import PolicyDiagram.Proofs.Text.Encoding

/-! A text of allowed characters is a sound stream of just these characters, whatever blocks its bytes are
taken in by. -/

namespace PolicyDiagram.Yaml

open Text (Follow encoded encoded_cons getElem?_of_follow follow_append charAt?_of_follow
  encodedWidth?)

theorem encodedWidth?_ofNat {n : Nat} (small : n < 256) :
    encodedWidth? (UInt8.ofNat n) =
      if n < 0x80 then some 1
      else if n < 0xC0 then none
      else if n < 0xE0 then some 2
      else if n < 0xF0 then some 3
      else if n < 0xF8 then some 4
      else none := by
  revert n
  decide +kernel

theorem encodedWidth?_of_char (c : Char) :
    ∃ first rest, String.utf8EncodeChar c = first :: rest ∧ encodedWidth? first = some c.utf8Size := by
  have size : c.utf8Size =
      if c.toNat ≤ 0x7f then 1 else if c.toNat ≤ 0x7ff then 2 else if c.toNat ≤ 0xffff then 3 else 4 := by
    simp [Char.utf8Size, UInt32.le_iff_toNat_le]
  have bound : c.toNat < 0x110000 := by
    have valid := c.valid
    simp only [UInt32.isValidChar, Nat.isValidChar, Char.toNat_val] at valid
    omega
  rw [size]
  simp only [String.utf8EncodeChar, Char.toNat_val]
  split
  · exact ⟨_, _, rfl, by rw [encodedWidth?_ofNat (by omega), if_pos (by omega)]⟩
  · split
    · refine ⟨_, _, rfl, ?_⟩
      rw [encodedWidth?_ofNat (by omega), if_neg (by omega), if_neg (by omega), if_pos (by omega)]
    · split
      · refine ⟨_, _, rfl, ?_⟩
        rw [encodedWidth?_ofNat (by omega), if_neg (by omega), if_neg (by omega), if_neg (by omega),
          if_pos (by omega)]
      · refine ⟨_, _, rfl, ?_⟩
        rw [encodedWidth?_ofNat (by omega), if_neg (by omega), if_neg (by omega), if_neg (by omega),
          if_neg (by omega), if_pos (by omega)]

theorem takeIn_of_follow {bytes : ByteArray} {chars : List Char} {i fuel : Nat}
    (follow : Follow bytes i (encoded chars)) (allowed : ∀ c ∈ chars, isAllowed c = true)
    (enough : chars.length < fuel) (limit : Nat) (block done : List Char) :
    takeIn bytes i limit block done fuel = ⟨(block ++ done).reverse ++ chars, true⟩ := by
  induction chars generalizing i fuel limit block done with
  | nil =>
    have ends : bytes[i]? = none := getElem?_of_follow follow
    cases fuel with
    | zero => simp [takeIn]
    | succ fuel => simp [takeIn, ends]
  | cons c rest ih =>
    obtain ⟨first, others, bytesOf, width⟩ := encodedWidth?_of_char c
    have here : bytes[i]? = some first := by
      rw [getElem?_of_follow follow, encoded_cons, bytesOf]
      rfl
    have inside : ¬bytes.size < i + c.utf8Size := by
      have long := congrArg List.length follow
      simp only [List.length_drop, Array.length_toList, ByteArray.size_data, Text.length_encoded,
        Text.byteCount] at long
      have := c.utf8Size_pos
      omega
    have behind : Follow bytes (i + c.utf8Size) (encoded rest) := by
      have := follow_append (show Follow bytes i (String.utf8EncodeChar c ++ encoded rest) from follow)
      rwa [String.length_utf8EncodeChar] at this
    obtain ⟨fuel, rfl⟩ : ∃ spare, fuel = spare + 1 := ⟨fuel - 1, by simp at enough; omega⟩
    have onward := ih behind (fun d member => allowed d (by simp [member])) (by simpa using enough)
    -- Whether the character starts a block or not, it is the next one of the stream.
    by_cases crosses : limit < i + c.utf8Size
    · simp [takeIn, here, width, inside, crosses, charAt?_of_follow follow, allowed c, onward]
    · simp [takeIn, here, width, inside, crosses, charAt?_of_follow follow, allowed c, onward]

theorem ofBytes_of_allowed {text : String} (allowed : ∀ c ∈ text.toList, isAllowed c = true) :
    Stream.ofBytes text.toUTF8 = ⟨text.toList, true⟩ := by
  have long := Text.length_le_byteCount text.toList
  rw [Stream.ofBytes, takeIn_of_follow (Text.follow_toUTF8 text) allowed
    (by rw [Text.size_toUTF8]; omega) _ _ _]
  rfl

end PolicyDiagram.Yaml
