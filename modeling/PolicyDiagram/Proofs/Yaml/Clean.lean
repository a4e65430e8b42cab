import PolicyDiagram.Proofs.Data.Verbal
import PolicyDiagram.Proofs.Yaml.Stream
import PolicyDiagram.Proofs.Yaml.Styles

/-! A printed text has only characters that a stream may have, so the stream of its bytes is the text. -/

namespace PolicyDiagram.Yaml

open Data (Tree IsKeyName VerbalItems VerbalEntries)

/-- Characters that a stream may have. -/
def Clean (text : List Char) : Prop := ∀ x ∈ text, isAllowed x = true

instance (text : List Char) : Decidable (Clean text) :=
  decidable_of_iff (text.all isAllowed = true) List.all_eq_true

theorem clean_append {first second : List Char} : Clean (first ++ second) ↔ Clean first ∧ Clean second := by
  simp only [Clean, List.mem_append]
  exact ⟨fun each => ⟨fun x member => each x (.inl member), fun x member => each x (.inr member)⟩,
    fun both x member => member.elim (both.1 x) (both.2 x)⟩

theorem clean_cons {x : Char} {rest : List Char} : Clean (x :: rest) ↔ isAllowed x = true ∧ Clean rest := by
  simp [Clean]

theorem clean_of_printable {text : List Char} (printable : ∀ x ∈ text, isPrintable x = true) : Clean text :=
  fun x member => isAllowed_of_printable (printable x member)

/-! ## Lines -/

theorem clean_ended {line : List Char} (clean : Clean line) : Clean (ended line) := by
  rw [ended]
  split
  · exact clean
  · exact clean_append.mpr ⟨clean, by decide⟩

theorem clean_map_ended {lines : List (List Char)} (clean : Clean lines.flatten) :
    Clean (lines.map ended).flatten := by
  induction lines with
  | nil => exact clean
  | cons line lines ih =>
    obtain ⟨first, others⟩ := clean_append.mp clean
    exact clean_append.mpr ⟨clean_ended first, ih others⟩

theorem clean_indent {lines : List (List Char)} (clean : Clean lines.flatten) :
    Clean (indent lines).flatten := by
  induction lines with
  | nil => exact clean
  | cons line lines ih =>
    obtain ⟨first, others⟩ := clean_append.mp clean
    refine clean_append.mpr ⟨?_, ih others⟩
    dsimp only
    split
    · exact first
    · exact clean_cons.mpr ⟨rfl, clean_cons.mpr ⟨rfl, first⟩⟩

theorem clean_hang {lines : List (List Char)} (clean : Clean lines.flatten) : Clean (hang lines).flatten := by
  cases lines with
  | nil => exact clean
  | cons line lines =>
    obtain ⟨first, others⟩ := clean_append.mp clean
    exact clean_append.mpr ⟨first, clean_indent others⟩

theorem clean_lead {text : List Char} {lines : List (List Char)} (before : Clean text)
    (clean : Clean lines.flatten) : Clean (lead text lines).flatten := by
  cases lines with
  | nil => exact clean
  | cons line lines =>
    obtain ⟨first, others⟩ := clean_append.mp clean
    exact clean_append.mpr ⟨clean_append.mpr ⟨before, first⟩, others⟩

/-! ## Scalars -/

theorem clean_hexDigits (n count : Nat) : Clean (hexDigits n count) := by
  induction count generalizing n with
  | zero => simp [hexDigits, Clean]
  | succ count ih =>
    have digit : ∀ k < 16, isAllowed (Nat.digitChar k).toUpper = true := by decide
    rw [hexDigits]
    exact clean_append.mpr ⟨ih _, clean_cons.mpr ⟨digit _ (Nat.mod_lt n (by omega)), by simp [Clean]⟩⟩

theorem clean_escaped (x : Char) : Clean (escaped x) := by
  rw [escaped]
  split
  · rename_i letter found
    obtain ⟨before, after, listed, -⟩ := List.lookup_eq_some_iff.mp found
    have letters : ∀ pair ∈ escapeLetters, isAllowed pair.2 = true := List.all_eq_true.mp (by decide)
    exact clean_cons.mpr ⟨rfl, clean_cons.mpr ⟨letters (x, letter) (by simp [listed]), by simp [Clean]⟩⟩
  · split
    · rename_i printable
      exact clean_of_printable (by simpa using printable)
    · split
      · exact clean_append.mpr ⟨by decide, clean_hexDigits _ _⟩
      · split <;> exact clean_append.mpr ⟨by decide, clean_hexDigits _ _⟩

theorem clean_flatMap {write : Char → List Char} {text : List Char} (each : ∀ x ∈ text, Clean (write x)) :
    Clean (text.flatMap write) := by
  intro y member
  obtain ⟨x, inside, written⟩ := List.mem_flatMap.mp member
  exact each x inside y written

theorem clean_scalarLines (text : List Char) : Clean (scalarLines text).flatten := by
  cases style : styleFor text with
  | doubleQuoted =>
    simp only [scalarLines, style, List.flatten_singleton]
    exact clean_append.mpr ⟨clean_append.mpr ⟨by decide, clean_flatMap fun x _ => clean_escaped x⟩,
      by decide⟩
  | singleQuoted =>
    obtain ⟨-, printable⟩ := quotable_of_style style
    have quoted : Clean (text.flatMap fun c => if c = '\'' then ['\'', '\''] else [c]) := by
      refine clean_flatMap fun x member => ?_
      split
      · decide
      · exact clean_cons.mpr ⟨isAllowed_of_printable (printable x member), by decide⟩
    simp only [scalarLines, style]
    refine clean_hang (clean_map_ended ?_)
    rw [flatten_linesWithBreaks]
    exact clean_append.mpr ⟨clean_append.mpr ⟨by decide, quoted⟩, by decide⟩
  | plain =>
    obtain ⟨-, -, -, -, printable⟩ := plain_of_style style
    simp only [scalarLines, style, List.flatten_singleton]
    exact clean_ended (clean_of_printable printable)
  | literal =>
    obtain ⟨-, -, printable⟩ := literal_of_style style
    have header : Clean (literalHeader text) := by
      simp only [literalHeader]
      split <;> split <;> first | decide | (split <;> decide)
    simp only [scalarLines, style, List.flatten_cons]
    refine clean_append.mpr ⟨clean_ended header, clean_indent (clean_map_ended ?_)⟩
    rw [flatten_linesWithBreaks]
    exact clean_of_printable printable
  | folded => exact absurd style (styleFor_ne_folded text)

/-! ## Trees -/

theorem clean_keyName {name : String} (word : IsKeyName name) : Clean name.toList := by
  intro x member
  have bounds := Data.toNat_of_letter (word.2.2 x member)
  simp only [isAllowed, Bool.or_eq_true, Bool.and_eq_true, decide_eq_true_eq]
  omega

mutual

theorem clean_treeLines : {tree : Tree} → tree.Verbal → Clean (treeLines tree).flatten
  | .null, _ => by decide
  | .text value, _ => clean_scalarLines value.toList
  | .list items, verbal => by
    rw [treeLines]
    split
    · decide
    · exact clean_itemLines verbal
  | .record entries, verbal => by
    rw [treeLines]
    split
    · decide
    · exact clean_entryLines verbal

theorem clean_itemLines : {items : List Tree} → VerbalItems items → Clean (itemLines items).flatten
  | [], _ => by decide
  | item :: rest, verbal => by
    have first := clean_treeLines verbal.1
    rw [itemLines, List.flatten_append]
    refine clean_append.mpr ⟨clean_lead (by decide) ?_, clean_itemLines verbal.2⟩
    split
    · exact first
    · exact clean_hang first

theorem clean_entryLines : {entries : List (String × Tree)} → VerbalEntries entries →
    Clean (entryLines entries).flatten
  | [], _ => by decide
  | (name, value) :: rest, verbal => by
    have key : Clean (name.toList ++ [':']) := clean_append.mpr ⟨clean_keyName verbal.1, by decide⟩
    have content := clean_treeLines verbal.2.1
    have others := clean_entryLines verbal.2.2
    by_cases inline : isInline value = true
    · rw [entryLines_inline inline, List.flatten_append]
      have shown : Clean (name.toList ++ [':', ' ']) := clean_append.mpr ⟨clean_keyName verbal.1, by decide⟩
      exact clean_append.mpr ⟨clean_lead shown content, others⟩
    · cases value with
      | list items =>
        have filled : items ≠ [] := by simpa [isInline] using inline
        rw [entryLines_list filled, List.flatten_append]
        exact clean_append.mpr ⟨clean_append.mpr ⟨clean_ended key, clean_itemLines verbal.2.1⟩, others⟩
      | record entries =>
        have filled : entries ≠ [] := by simpa [isInline] using inline
        rw [entryLines_record filled, List.flatten_append]
        exact clean_append.mpr
          ⟨clean_append.mpr ⟨clean_ended key, clean_indent (clean_entryLines verbal.2.1)⟩, others⟩
      | _ => exact absurd rfl inline

end

theorem ofBytes_print {tree : Tree} (verbal : tree.Verbal) :
    Stream.ofBytes (print tree).toUTF8 = ⟨(treeLines tree).flatten, true⟩ := by
  have text : (print tree).toList = (treeLines tree).flatten := String.toList_ofList
  rw [ofBytes_of_allowed (by rw [text]; exact clean_treeLines verbal), text]

end PolicyDiagram.Yaml
