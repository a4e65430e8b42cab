import PolicyDiagram.Json.Literal
import PolicyDiagram.Json.Print
import PolicyDiagram.Proofs.Text.Encoding

/-! String literals read back: a quoted text is read as the text, and passed over up to its quote. -/

namespace PolicyDiagram.Json

open Text (Follow encoded encoded_cons encoded_append follow_append follow_cons fromUTF8?_toUTF8
  getElem?_of_follow lt_size_of_follow)

/-! ## Bytes -/

theorem utf8EncodeChar_of_lt {c : Char} (ascii : c.toNat < 128) :
    String.utf8EncodeChar c = [UInt8.ofNat c.toNat] := by
  simp [String.utf8EncodeChar, Nat.le_of_lt_succ ascii]

theorem high_of_mem_utf8EncodeChar {c : Char} {byte : UInt8} (member : byte ∈ String.utf8EncodeChar c)
    (wide : 128 ≤ c.toNat) : 128 ≤ byte.toNat := by
  have high : ¬c.toNat ≤ 127 := by omega
  simp only [String.utf8EncodeChar, Char.toNat_val, high, if_false] at member
  split at member
  · simp only [List.mem_cons, List.not_mem_nil, or_false] at member
    rcases member with rfl | rfl <;> simp only [UInt8.toNat_ofNat'] <;> omega
  · split at member
    · simp only [List.mem_cons, List.not_mem_nil, or_false] at member
      rcases member with rfl | rfl | rfl <;> simp only [UInt8.toNat_ofNat'] <;> omega
    · simp only [List.mem_cons, List.not_mem_nil, or_false] at member
      rcases member with rfl | rfl | rfl | rfl <;> simp only [UInt8.toNat_ofNat'] <;> omega

theorem byte?_of_follow {bytes : Bytes} {i : Nat} {c : Char} {rest : List Char} {tail : List UInt8}
    (ascii : c.toNat < 128) (follow : Follow bytes i (encoded (c :: rest) ++ tail)) :
    bytes.byte? i = some c ∧ Follow bytes (i + 1) (encoded rest ++ tail) := by
  rw [encoded_cons, utf8EncodeChar_of_lt ascii] at follow
  refine ⟨?_, follow_cons follow⟩
  have first := getElem?_of_follow follow
  have small : (UInt8.ofNat c.toNat).toNat = c.toNat := by
    rw [UInt8.toNat_ofNat']
    omega
  simp [Bytes.byte?, first, small]

/-! ## Strokes -/

/-- So many strokes lead from one place to another and put these bytes. -/
def Strokes (step : Nat → Except Fault Stroke) (i : Nat) (put : List UInt8) (j count : Nat) : Prop :=
  ∀ content fuel, followText step i content (fuel + count) =
    followText step j (put.foldl ByteArray.push content) fuel

theorem Strokes.refl {step : Nat → Except Fault Stroke} {i : Nat} : Strokes step i [] i 0 :=
  fun _ _ => rfl

theorem Strokes.one {step : Nat → Except Fault Stroke} {i j : Nat} {put : List UInt8}
    (stroke : step i = .ok (.put put j)) : Strokes step i put j 1 := by
  intro content fuel
  simp [followText, stroke]

theorem Strokes.trans {step : Nat → Except Fault Stroke} {i j k m n : Nat} {first second : List UInt8}
    (before : Strokes step i first j m) (after : Strokes step j second k n) :
    Strokes step i (first ++ second) k (m + n) := by
  intro content fuel
  rw [Nat.add_comm m n, ← Nat.add_assoc, before, after, List.foldl_append]

/-- A byte of a text that stands for itself. -/
def IsPlainByte (byte : UInt8) : Prop := 32 ≤ byte.toNat ∧ byte.toNat ≠ 34 ∧ byte.toNat ≠ 92

theorem stroke_plain {bytes : Bytes} {i : Nat} {byte : UInt8} {tail : List UInt8}
    (plain : IsPlainByte byte) (follow : Follow bytes i (byte :: tail)) :
    bytes.stroke i = .ok (.put [byte] (i + 1)) ∧ bytes.passStroke i = .ok (.put [byte] (i + 1)) := by
  obtain ⟨printable, notQuote, notBackslash⟩ := plain
  have here : bytes[i]? = some byte := getElem?_of_follow follow
  have quote : byte ≠ 34 := by rintro rfl; exact notQuote rfl
  have backslash : byte ≠ 92 := by rintro rfl; exact notBackslash rfl
  have control : ¬byte < 32 := by
    intro low
    have : byte.toNat < 32 := low
    omega
  have read : bytes.stroke i = .ok (.put [byte] (i + 1)) := by
    simp [Bytes.stroke, here, quote, backslash, control]
  have other : bytes.byte? i ≠ some '\\' := by
    intro same
    have value : Char.ofNat byte.toNat = '\\' := by simpa [Bytes.byte?, here] using same
    have code : ∀ n < 256, Char.ofNat n = '\\' → n = 92 := by decide +kernel
    exact notBackslash (code byte.toNat byte.toNat_lt value)
  exact ⟨read, by simp [Bytes.passStroke, other, here, control, read]⟩

theorem strokes_plain {bytes : Bytes} {i : Nat} {plain tail : List UInt8}
    (each : ∀ byte ∈ plain, IsPlainByte byte) (follow : Follow bytes i (plain ++ tail)) :
    Strokes bytes.stroke i plain (i + plain.length) plain.length ∧
      Strokes bytes.passStroke i plain (i + plain.length) plain.length := by
  induction plain generalizing i with
  | nil => exact ⟨Strokes.refl, Strokes.refl⟩
  | cons byte rest ih =>
    obtain ⟨read, passed⟩ := stroke_plain (each byte (by simp)) follow
    obtain ⟨reads, passes⟩ := ih (fun b member => each b (by simp [member])) (follow_cons follow)
    have long : i + (byte :: rest).length = i + 1 + rest.length := by simp; omega
    have count : (byte :: rest).length = 1 + rest.length := by simp; omega
    rw [long, count]
    exact ⟨(Strokes.one read).trans reads, (Strokes.one passed).trans passes⟩

theorem stroke_letter {bytes : Bytes} {i : Nat} {letter : Char} {byte : UInt8} {tail : List UInt8}
    (escapes : letterEscape letter = some byte) (ascii : letter.toNat < 128) (notUnit : letter ≠ 'u')
    (follow : Follow bytes i (encoded ['\\', letter] ++ tail)) :
    bytes.stroke i = .ok (.put [byte] (i + 2)) ∧ bytes.passStroke i = .ok (.put [byte] (i + 2)) := by
  obtain ⟨mark, behind⟩ := byte?_of_follow (by decide) follow
  obtain ⟨shown, -⟩ := byte?_of_follow ascii behind
  have here : bytes[i]? = some 92 := getElem?_of_follow follow
  have read : bytes.stroke i = .ok (.put [byte] (i + 2)) := by
    simp [Bytes.stroke, here, shown, escapes]
  exact ⟨read, by simp [Bytes.passStroke, shown, notUnit, here, read]⟩

theorem stroke_quote {bytes : Bytes} {i : Nat} {tail : List UInt8}
    (follow : Follow bytes i (encoded ['"'] ++ tail)) :
    bytes.stroke i = .ok .close ∧ bytes.passStroke i = .ok .close := by
  obtain ⟨mark, -⟩ := byte?_of_follow (by decide) follow
  have here : bytes[i]? = some 34 := getElem?_of_follow follow
  have close : bytes.stroke i = .ok .close := by simp [Bytes.stroke, here]
  exact ⟨close, by simp [Bytes.passStroke, mark, here, close]⟩

theorem hexNumber?_control {n : Nat} (control : n < 32) :
    Text.hexNumber? ['0', '0', Nat.digitChar (n / 16), Nat.digitChar (n % 16)] = some n := by
  revert n
  decide

theorem stroke_unit {bytes : Bytes} {i n : Nat} {tail : List UInt8} (control : n < 32)
    (follow : Follow bytes i
      (encoded ['\\', 'u', '0', '0', Nat.digitChar (n / 16), Nat.digitChar (n % 16)] ++ tail)) :
    bytes.stroke i = .ok (.put (String.utf8EncodeChar (.ofNat n)) (i + 6)) ∧
      bytes.passStroke i = .ok (.put [] (i + 6)) := by
  have digit : ∀ k < 16, (Nat.digitChar k).toNat < 128 := by decide
  obtain ⟨mark, follow₁⟩ := byte?_of_follow (by decide) follow
  obtain ⟨letter, follow₂⟩ := byte?_of_follow (by decide) follow₁
  obtain ⟨first, follow₃⟩ := byte?_of_follow (by decide) follow₂
  obtain ⟨second, follow₄⟩ := byte?_of_follow (by decide) follow₃
  obtain ⟨third, follow₅⟩ := byte?_of_follow (digit _ (by omega)) follow₄
  obtain ⟨fourth, -⟩ := byte?_of_follow (digit _ (by omega)) follow₅
  have here : bytes[i]? = some 92 := getElem?_of_follow follow
  have unit : bytes.hexUnit (i + 2) = .ok n := by
    simp [Bytes.hexUnit, first, second, third, fourth, hexNumber?_control control]
  have notTrailing : isTrailing n = false := by simp [isTrailing]; omega
  have notLeading : isLeading n = false := by simp [isLeading]; omega
  constructor
  · simp [Bytes.stroke, here, letter, Bytes.unitEscape, unit, notTrailing, notLeading, bind,
      Except.bind]
  · simp [Bytes.passStroke, mark, letter, unit, bind, Except.bind]

/-- At a place where a character is written it is read, and it is passed over. -/
def ReadsEscape (bytes : Bytes) (i : Nat) (c : Char) : Prop :=
  ∃ count ≤ (encoded (escape c)).length,
    Strokes bytes.stroke i (String.utf8EncodeChar c) (i + (encoded (escape c)).length) count ∧
    ∃ passed, Strokes bytes.passStroke i passed (i + (encoded (escape c)).length) count

theorem readsEscape_letter {bytes : Bytes} {i : Nat} {c letter : Char} {byte : UInt8}
    {tail : List UInt8} (written : escape c = ['\\', letter])
    (escapes : letterEscape letter = some byte) (ascii : letter.toNat < 128) (notUnit : letter ≠ 'u')
    (value : String.utf8EncodeChar c = [byte]) (follow : Follow bytes i (encoded (escape c) ++ tail)) :
    ReadsEscape bytes i c := by
  rw [written] at follow
  obtain ⟨read, passed⟩ := stroke_letter escapes ascii notUnit follow
  have two : (encoded ['\\', letter]).length = 2 := by
    rw [encoded_cons, encoded_cons, utf8EncodeChar_of_lt ascii]
    rfl
  rw [ReadsEscape, written, two, value]
  exact ⟨1, by omega, Strokes.one read, [byte], Strokes.one passed⟩

theorem readsEscape_unit {bytes : Bytes} {i : Nat} {c : Char} {tail : List UInt8} (control : c.toNat < 32)
    (written : escape c =
      ['\\', 'u', '0', '0', Nat.digitChar (c.toNat / 16), Nat.digitChar (c.toNat % 16)])
    (follow : Follow bytes i (encoded (escape c) ++ tail)) : ReadsEscape bytes i c := by
  rw [written] at follow
  obtain ⟨read, passed⟩ := stroke_unit control follow
  rw [Char.ofNat_toNat] at read
  have digit : ∀ k < 16, (Nat.digitChar k).toNat < 128 := by decide
  have six : (encoded (escape c)).length = 6 := by
    rw [written]
    simp only [encoded_cons, utf8EncodeChar_of_lt (digit (c.toNat / 16) (by omega)),
      utf8EncodeChar_of_lt (digit (c.toNat % 16) (by omega))]
    rfl
  rw [ReadsEscape, six]
  exact ⟨1, by omega, Strokes.one read, [], Strokes.one passed⟩

theorem isPlainByte_of_mem {c : Char} (printable : 32 ≤ c.toNat) (quote : c ≠ '"') (backslash : c ≠ '\\') :
    ∀ byte ∈ String.utf8EncodeChar c, IsPlainByte byte := by
  intro byte member
  by_cases ascii : c.toNat < 128
  · rw [utf8EncodeChar_of_lt ascii, List.mem_singleton] at member
    have same : byte.toNat = c.toNat := by
      rw [member, UInt8.toNat_ofNat']
      omega
    have notQuote : c.toNat ≠ 34 := by
      intro code
      exact quote (by rw [← Char.ofNat_toNat c, code])
    have notBackslash : c.toNat ≠ 92 := by
      intro code
      exact backslash (by rw [← Char.ofNat_toNat c, code])
    exact ⟨by omega, by omega, by omega⟩
  · have high := high_of_mem_utf8EncodeChar member (by omega)
    exact ⟨by omega, by omega, by omega⟩

theorem readsEscape_self {bytes : Bytes} {i : Nat} {c : Char} {tail : List UInt8} (printable : 32 ≤ c.toNat)
    (quote : c ≠ '"') (backslash : c ≠ '\\') (written : escape c = [c])
    (follow : Follow bytes i (encoded (escape c) ++ tail)) : ReadsEscape bytes i c := by
  have one : encoded [c] = String.utf8EncodeChar c := by simp [encoded]
  rw [written, one] at follow
  obtain ⟨reads, passes⟩ := strokes_plain (isPlainByte_of_mem printable quote backslash) follow
  rw [ReadsEscape, written, one]
  exact ⟨_, Nat.le_refl _, reads, _, passes⟩

theorem readsEscape {bytes : Bytes} {i : Nat} {c : Char} {tail : List UInt8}
    (follow : Follow bytes i (encoded (escape c) ++ tail)) : ReadsEscape bytes i c := by
  fun_cases escape c with
  | case1 => exact readsEscape_letter rfl rfl (by decide) (by decide) rfl follow
  | case2 => exact readsEscape_letter rfl rfl (by decide) (by decide) rfl follow
  | case3 => exact readsEscape_letter rfl rfl (by decide) (by decide) rfl follow
  | case4 => exact readsEscape_letter rfl rfl (by decide) (by decide) rfl follow
  | case5 => exact readsEscape_letter rfl rfl (by decide) (by decide) rfl follow
  | case6 _ code =>
    obtain rfl : c = '\x08' := by rw [← Char.ofNat_toNat c, code]
    exact readsEscape_letter rfl rfl (by decide) (by decide) rfl follow
  | case7 _ _ code =>
    obtain rfl : c = '\x0c' := by rw [← Char.ofNat_toNat c, code]
    exact readsEscape_letter rfl rfl (by decide) (by decide) rfl follow
  | case8 _ _ _ control => exact readsEscape_unit control (by simp_all [escape]) follow
  | case9 _ _ _ printable quote backslash =>
    exact readsEscape_self (by omega) quote backslash (by simp_all [escape]) follow

theorem readsEscapes {bytes : Bytes} {text : List Char} {i : Nat} {tail : List UInt8}
    (follow : Follow bytes i (encoded (text.flatMap escape) ++ tail)) :
    ∃ count ≤ (encoded (text.flatMap escape)).length,
      Strokes bytes.stroke i (encoded text) (i + (encoded (text.flatMap escape)).length) count ∧
      ∃ passed,
        Strokes bytes.passStroke i passed (i + (encoded (text.flatMap escape)).length) count := by
  induction text generalizing i with
  | nil => exact ⟨0, Nat.le_refl _, Strokes.refl, [], Strokes.refl⟩
  | cons c rest ih =>
    rw [List.flatMap_cons, encoded_append, List.append_assoc] at follow
    obtain ⟨m, short, read, first, passed⟩ := readsEscape follow
    obtain ⟨n, shorter, reads, others, passes⟩ := ih (follow_append follow)
    have long : i + (encoded ((c :: rest).flatMap escape)).length =
        i + (encoded (escape c)).length + (encoded (rest.flatMap escape)).length := by
      simp only [List.flatMap_cons, encoded_append, List.length_append]
      omega
    rw [long]
    refine ⟨m + n, ?_, read.trans reads, _, passed.trans passes⟩
    simp only [List.flatMap_cons, encoded_append, List.length_append]
    omega

theorem foldl_push (content : ByteArray) (bytes : List UInt8) :
    bytes.foldl ByteArray.push content = content ++ bytes.toByteArray := by
  induction bytes generalizing content with
  | nil => simp
  | cons byte rest ih =>
    rw [List.foldl_cons, ih, ← ByteArray.append_toByteArray_singleton, ByteArray.append_assoc,
      ← List.toByteArray_append, List.singleton_append]

theorem fromUTF8?_encoded (text : List Char) :
    String.fromUTF8? (encoded text).toByteArray = some (String.ofList text) := by
  have same : (encoded text).toByteArray = (String.ofList text).toUTF8 := by
    rw [String.toUTF8_eq_toByteArray, String.toByteArray_ofList, List.utf8Encode, encoded]
  rw [same, fromUTF8?_toUTF8]

theorem followText_of_strokes {bytes : Bytes} {step : Nat → Except Fault Stroke} {i j count : Nat}
    {put : List UInt8} (strokes : Strokes step i put j count) (close : step j = .ok .close)
    (short : count ≤ bytes.size) :
    followText step i .empty (bytes.size + 1) = .ok (put.toByteArray, j + 1) := by
  obtain ⟨spare, enough⟩ := Nat.exists_eq_add_of_le short
  have fuel : bytes.size + 1 = spare + 1 + count := by omega
  rw [fuel, strokes, foldl_push, ByteArray.empty_append, followText]
  simp only [close]

theorem text_of_follow {bytes : Bytes} {text : List Char} {i : Nat} {tail : List UInt8}
    (follow : Follow bytes i (encoded (text.flatMap escape ++ ['"']) ++ tail)) :
    bytes.text i = .ok (String.ofList text, i + (encoded (text.flatMap escape)).length + 1) ∧
      bytes.passText i = .ok (i + (encoded (text.flatMap escape)).length + 1) := by
  rw [encoded_append, List.append_assoc] at follow
  obtain ⟨count, short, reads, passed, passes⟩ := readsEscapes follow
  have quote := follow_append follow
  obtain ⟨close, closePassed⟩ := stroke_quote quote
  have inside : count ≤ bytes.size := by
    have := lt_size_of_follow quote
    omega
  constructor
  · rw [Bytes.text, followText_of_strokes reads close inside]
    simp only [bind, Except.bind, fromUTF8?_encoded]
  · rw [Bytes.passText, followText_of_strokes passes closePassed inside]
    rfl

end PolicyDiagram.Json
