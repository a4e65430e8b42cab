import Mathlib.Algebra.Group.Nat.Defs
import PolicyDiagram.Proofs.Yaml.Cursor

/-! Escapes of double-quoted scalars: what is written for a character is read as that character. -/

namespace PolicyDiagram.Yaml

theorem length_hexDigits (n count : Nat) : (hexDigits n count).length = count := by
  induction count generalizing n with
  | zero => rfl
  | succ count ih => simp [hexDigits, ih]

theorem hexValue?_upper {k : Nat} (small : k < 16) :
    Text.hexValue? (Nat.digitChar k).toUpper = some k := by
  revert k
  decide

theorem hexNumber?_hexDigits (n count : Nat) :
    Text.hexNumber? (hexDigits n count) = some (n % 16 ^ count) := by
  induction count generalizing n with
  | zero => simp [hexDigits, Text.hexNumber?, Nat.mod_one]
  | succ count ih =>
    have upper := ih (n / 16)
    rw [Text.hexNumber?] at upper ⊢
    have value : n % 16 ^ (count + 1) = 16 * (n / 16 % 16 ^ count) + n % 16 := by
      rw [Nat.pow_succ, Nat.mul_comm, Nat.mod_mul]
      omega
    simp [hexDigits, List.foldlM_append, upper, hexValue?_upper (Nat.mod_lt n (by omega)), value]

/-- An escape is read as its character. -/
def ReadsEscape (x : Char) : Prop :=
  ∀ (c : Cursor) (more : List Char), c.rest = escaped x ++ more →
    (∃ others, c.rest = '\\' :: others) ∧ (c.skip 1).lineEnd? = none ∧
      c.escape? = some (x, c.skip (escaped x).length)

theorem readsEscape_letter {x letter : Char} (written : escaped x = ['\\', letter])
    (solid : isBreak letter = false) (read : Cursor.letterEscape? letter = some x) : ReadsEscape x := by
  intro c more here
  rw [written] at here
  have behind : (c.skip 1).rest = letter :: more := by simp [here]
  refine ⟨⟨_, here⟩, Cursor.lineEnd?_of_solid behind solid, ?_⟩
  simp [Cursor.escape?, Cursor.peek?, here, read, written]

theorem readsEscape_number {x : Char} (letter : Char) (count : Nat)
    (written : escaped x = '\\' :: letter :: hexDigits x.toNat count) (solid : isBreak letter = false)
    (noLetter : Cursor.letterEscape? letter = none)
    (digits : Cursor.numericEscape? letter = some count) (small : x.toNat < 16 ^ count) :
    ReadsEscape x := by
  intro c more here
  rw [written] at here
  have behind : (c.skip 1).rest = letter :: (hexDigits x.toNat count ++ more) := by simp [here]
  refine ⟨⟨_, here⟩, Cursor.lineEnd?_of_solid behind solid, ?_⟩
  have taken : (c.rest.drop 2).take count = hexDigits x.toNat count := by
    have := length_hexDigits x.toNat count
    simp [here, this]
  have value := hexNumber?_hexDigits x.toNat count
  rw [Nat.mod_eq_of_lt small] at value
  have valid : x.toNat.isValidChar := x.valid
  have long : (escaped x).length = 2 + count := by
    rw [written]
    simp [length_hexDigits]
    omega
  simp only [Cursor.escape?, Cursor.peek?, behind, List.head?_cons, Option.bind_eq_bind,
    Option.bind_some, noLetter, digits, taken, value, length_hexDigits, valid, and_self, if_true,
    Char.ofNat_toNat, long]

theorem readsEscape_of_lookup {x letter : Char} (found : escapeLetters.lookup x = some letter) :
    ReadsEscape x := by
  have each : ∀ pair ∈ escapeLetters, escaped pair.1 = ['\\', pair.2] ∧ isBreak pair.2 = false ∧
      Cursor.letterEscape? pair.2 = some pair.1 := by decide +kernel
  obtain ⟨before, after, listed, -⟩ := List.lookup_eq_some_iff.mp found
  obtain ⟨written, solid, read⟩ := each (x, letter) (by simp [listed])
  exact readsEscape_letter written solid read

theorem escaped_cases (x : Char) :
    (escaped x = [x] ∧ x ≠ '"' ∧ x ≠ '\\' ∧ (x = ' ' ∨ IsSolid x)) ∨ ReadsEscape x := by
  cases found : escapeLetters.lookup x with
  | some letter => exact .inr (readsEscape_of_lookup found)
  | none =>
    have unlisted : ∀ pair ∈ escapeLetters, x ≠ pair.1 := by
      intro pair member same
      have := List.lookup_eq_none_iff.mp found pair member
      simp [same] at this
    by_cases printable : isPrintable x = true
    · left
      have tab : x ≠ '\t' := unlisted ('\t', 't') (by decide)
      refine ⟨by simp [escaped, found, printable], unlisted ('"', '"') (by decide),
        unlisted ('\\', '\\') (by decide), ?_⟩
      by_cases blank : x = ' '
      · exact .inl blank
      · refine .inr ⟨by simp [isBlank, blank, tab], ?_⟩
        simp [isBreak, unlisted ('\n', 'n') (by decide), unlisted ('\r', 'r') (by decide),
          unlisted (nextLine, 'N') (by decide), unlisted (lineSeparator, 'L') (by decide),
          unlisted (paragraphSeparator, 'P') (by decide)]
    · right
      -- The least of three widths that holds the number is used, and eight digits hold every character.
      by_cases narrow : x.toNat ≤ 0xFF
      · exact readsEscape_number 'x' 2
          (by simp [escaped, found, printable, narrow]) rfl rfl rfl (by omega)
      · by_cases middle : x.toNat ≤ 0xFFFF
        · exact readsEscape_number 'u' 4
            (by simp [escaped, found, printable, narrow, middle]) rfl rfl rfl (by omega)
        · have bound : x.toNat < 0x110000 := by
            have valid := x.valid
            simp only [UInt32.isValidChar, Nat.isValidChar, Char.toNat_val] at valid
            omega
          exact readsEscape_number 'U' 8
            (by simp [escaped, found, printable, narrow, middle]) rfl rfl rfl (by omega)

end PolicyDiagram.Yaml
