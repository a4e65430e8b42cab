import PolicyDiagram.Proofs.Yaml.Lines
import PolicyDiagram.Yaml.Stream

/-! The style that is chosen for a text can hold it, and writes it with characters that a stream may have. -/

namespace PolicyDiagram.Yaml

/-! ## Choice -/

theorem isPrintable_cases {x : Char} (printable : isPrintable x = true) :
    x = ' ' ∨ IsSolid x ∨ Cursor.IsKept x := by
  have apart (y : Char) (other : isPrintable y = false) : x ≠ y := by
    rintro rfl
    exact absurd printable (by simp [other])
  by_cases blank : x = ' '
  · exact .inl blank
  · by_cases kept : x = '\n' ∨ x = lineSeparator ∨ x = paragraphSeparator
    · exact .inr (.inr kept)
    · simp only [not_or] at kept
      refine .inr (.inl ⟨by simp [isBlank, blank, apart '\t' rfl], ?_⟩)
      simp [isBreak, kept, apart '\r' rfl, apart nextLine rfl]

theorem isAllowed_of_printable {x : Char} (printable : isPrintable x = true) : isAllowed x = true := by
  have valid := x.valid
  simp only [UInt32.isValidChar, Nat.isValidChar, Char.toNat_val] at valid
  simp only [isPrintable, isAllowed, Bool.or_eq_true, Bool.and_eq_true, decide_eq_true_eq] at printable ⊢
  omega

theorem printable_of_needsEscapes {text : List Char} (none : needsEscapes text = false) :
    (∀ x ∈ text, isPrintable x = true) ∧ hasPair (· == ' ') isBreak text = false := by
  simpa [needsEscapes] using none

theorem styleFor_ne_folded (text : List Char) : styleFor text ≠ .folded := by
  rw [styleFor]
  split
  · decide
  · split
    · split <;> decide
    · split
      · decide
      · split <;> decide

theorem literal_of_style {text : List Char} (style : styleFor text = .literal) :
    IsLiteral text ∧ text ≠ [] ∧ ∀ x ∈ text, isPrintable x = true := by
  rw [styleFor] at style
  split at style
  · contradiction
  · rename_i escapes
    obtain ⟨printable, -⟩ := printable_of_needsEscapes (by simpa using escapes)
    split at style
    · rename_i feed
      refine ⟨fun x member => isPrintable_cases (printable x member), ?_, printable⟩
      rintro rfl
      simp at feed
    · split at style
      · contradiction
      · split at style <;> contradiction

theorem quotable_of_style {text : List Char} (style : styleFor text = .singleQuoted) :
    Quotable true text ∧ ∀ x ∈ text, isPrintable x = true := by
  rw [styleFor] at style
  split at style
  · contradiction
  · rename_i escapes
    obtain ⟨printable, before⟩ := printable_of_needsEscapes (by simpa using escapes)
    split at style
    · split at style <;> contradiction
    · rename_i feed
      split at style
      · contradiction
      · rename_i after
        refine ⟨⟨fun _ x member => ?_, fun _ => before, fun _ => by simpa using after⟩, printable⟩
        rcases isPrintable_cases (printable x member) with blank | solid | rfl | separator
        · exact .inl blank
        · exact .inr (.inl solid)
        · exact absurd member (by simpa using feed)
        · exact .inr (.inr separator)

/-- How a text starts that is written plain: with no indicator, or with one that means nothing there. -/
theorem head_of_start {x : Char} {rest : List Char} (starts : startsWithIndicator (x :: rest) = false) :
    leadingIndicators.contains x = false ∧
      ("-?:".toList.contains x = true → ∃ y others, rest = y :: others ∧ IsSolid y) := by
  simp only [startsWithIndicator, List.head?_cons, Option.any_some, List.drop_succ_cons, List.drop_zero,
    Bool.or_eq_false_iff] at starts
  refine ⟨starts.1.1.1, fun special => ?_⟩
  have behind := starts.1.1.2
  rw [special, Bool.true_and] at behind
  cases rest with
  | nil => exact absurd behind (by decide)
  | cons y others => exact ⟨y, others, rfl, partsWords_eq_false.mp behind⟩

theorem plain_of_style {text : List Char} (style : styleFor text = .plain) :
    Cursor.PlainLine text ∧ text ≠ [] ∧ startsWithIndicator text = false ∧
      Meaning.ofPlain (String.ofList text) = .text ∧ ∀ x ∈ text, isPrintable x = true := by
  -- Each of the other styles is tested for first, so the plain one has passed every test.
  rw [styleFor] at style
  split at style
  · contradiction
  · rename_i escapes
    obtain ⟨printable, before⟩ := printable_of_needsEscapes (by simpa using escapes)
    split at style
    · split at style <;> contradiction
    · split at style
      · contradiction
      · split at style
        · contradiction
        · rename_i safe
          simp only [Bool.or_eq_true, not_or, Bool.not_eq_true] at safe
          obtain ⟨⟨⟨⟨mistakable, edged⟩, broken⟩, starts⟩, holds⟩ := safe
          simp only [isMistakable, Bool.or_eq_false_iff, bne_eq_false_iff_eq] at mistakable
          simp only [isEdged, Bool.or_eq_false_iff] at edged
          simp only [holdsIndicator, Bool.or_eq_false_iff] at holds
          refine ⟨⟨?_, ?_, holds.2, ?_, ?_⟩, ?_, starts, mistakable.2, printable⟩
          · intro x member
            rcases isPrintable_cases (printable x member) with blank | solid | kept
            · exact .inl blank
            · exact .inr solid
            · have := List.any_eq_false.mp broken x member
              exact absurd kept.isBreak this
          · have last : (text.getLast? == some ':') = text.getLast?.any (· == ':') := by
              cases text.getLast? <;> simp
            rw [hasPair_concat, holds.1.2, ← last, holds.1.1]
            rfl
          · intro x member
            obtain ⟨rest, rfl⟩ := List.head?_eq_some_iff.mp member
            refine ⟨by simpa using edged.1, ?_⟩
            rintro rfl
            exact absurd (head_of_start starts).1 (by decide)
          · intro x member
            rw [Option.mem_def] at member
            simpa [member] using edged.2
          · rintro rfl
            exact absurd mistakable.2 (by decide)

/-! ## Texts -/

theorem between_double (indent : Nat) (text : List Char) :
    between false indent text = text.flatMap escaped ++ ['"'] := by
  induction text with
  | nil => rfl
  | cons x text ih => simp [between, spelled, ih]

theorem inserted_quoted (indent : Nat) (text : List Char) :
    inserted indent (text.flatMap (spelled true) ++ ['\'']) = between true indent text := by
  induction text with
  | nil => rfl
  | cons x text ih =>
    by_cases quote : x = '\''
    · subst quote
      have pair := inserted_line (show ∀ y ∈ ['\'', '\''], isBreak y = false from List.all_iff_forall_prop.mp (by decide)) indent
        (text.flatMap (spelled true) ++ ['\''])
      have plain : (isBreak '\'') = false := rfl
      simpa [between, spelled, ih, plain] using pair
    · have next : (text.flatMap (spelled true) ++ ['\'']).head?.any (!isBreak ·) =
          !text.head?.any isBreak := by
        cases text with
        | nil => rfl
        | cons y text =>
          by_cases quote : y = '\''
          · subst quote
            rfl
          · simp [spelled, quote]
      have written : spelled true x = [x] := by simp [spelled, quote]
      rw [List.flatMap_cons, written, List.append_assoc, List.singleton_append, inserted, next, ih, between,
        written]
      simp

/-- What is written for a text that is not indented more than two columns to the right of its block. -/
theorem onward_single {text : List Char} (style : styleFor text = .singleQuoted) (column : Nat) :
    onward column (scalarLines text) = '\'' :: (between true (column + 2) text ++ ['\n']) := by
  have whole : ['\''] ++ (text.flatMap fun c => if c = '\'' then ['\'', '\''] else [c]) ++ ['\''] =
      '\'' :: (text.flatMap (spelled true) ++ ['\'']) := rfl
  have ends : closing ('\'' :: (text.flatMap (spelled true) ++ ['\''])) = ['\n'] := by
    rw [← List.cons_append, closing_append (List.cons_ne_nil _ _)]
    rfl
  have first := inserted_line (show ∀ y ∈ ['\''], isBreak y = false from List.all_iff_forall_prop.mp (by decide)) (column + 2)
    (text.flatMap (spelled true) ++ ['\''])
  simp only [scalarLines, style, whole]
  rw [onward_hang, onward_linesWithBreaks (List.cons_ne_nil _ _), ends, ← inserted_quoted]
  exact congrArg (· ++ ['\n']) first

theorem onward_double {text : List Char} (style : styleFor text = .doubleQuoted) (column indent : Nat) :
    onward column (scalarLines text) = '"' :: (between false indent text ++ ['\n']) := by
  simp [scalarLines, style, onward, below, between_double]

theorem onward_plain {text : List Char} (style : styleFor text = .plain) (column : Nat) :
    onward column (scalarLines text) = text ++ ['\n'] := by
  obtain ⟨line, -⟩ := plain_of_style style
  have unbroken : text.getLast?.any isBreak = false := by
    cases last : text.getLast? with
    | none => rfl
    | some x =>
      rcases line.chars x (List.mem_of_getLast? last) with rfl | solid
      · rfl
      · exact solid.2
  simp [scalarLines, style, onward, below, ended, unbroken]

theorem onward_literal {text : List Char} (style : styleFor text = .literal) (column : Nat) :
    onward column (scalarLines text) =
      literalHeader text ++ '\n' :: (opened (column + 2) text ++ closing text) := by
  obtain ⟨-, filled, -⟩ := literal_of_style style
  have header : ended (literalHeader text) = literalHeader text ++ ['\n'] := by
    simp only [literalHeader]
    split <;> split <;> first | rfl | (split <;> rfl)
  simp only [scalarLines, style]
  rw [onward, below_indent, below_linesWithBreaks filled (onward_linesWithBreaks filled _), header]
  simp

end PolicyDiagram.Yaml
