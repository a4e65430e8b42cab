import PolicyDiagram.Proofs.Data.Faithful

/-! Trees of records, lists and texts whose keys are words. Policy documents and configurations have no
other data. -/

namespace PolicyDiagram.Data

/-- A character of a name. -/
def IsLetter (c : Char) : Prop := c.isLower = true ∨ c = '_'

instance (c : Char) : Decidable (IsLetter c) := inferInstanceAs (Decidable (_ ∨ _))

theorem toNat_of_letter {c : Char} (letter : IsLetter c) : 95 ≤ c.toNat ∧ c.toNat ≤ 122 := by
  rcases letter with lower | rfl
  · have bounds : 97 ≤ c.toNat ∧ c.toNat ≤ 122 := by
      have between : (decide (c.val ≥ 97) && decide (c.val ≤ 122)) = true := lower
      simpa [UInt32.le_iff_toNat_le] using between
    omega
  · decide

/-- A name that every format writes as it is, and takes as a key. -/
def IsKeyName (name : String) : Prop :=
  name.toList ≠ [] ∧ name.toList.length ≤ 1024 ∧ ∀ c ∈ name.toList, IsLetter c

instance (name : String) : Decidable (IsKeyName name) :=
  decidable_of_iff (name.toList ≠ [] ∧ name.toList.length ≤ 1024 ∧
    (name.toList.all fun c => decide (IsLetter c)) = true) (by simp [IsKeyName])

mutual

def Tree.Verbal : Tree → Prop
  | .null | .text _ => True
  | .boolean _ | .natural _ => False
  | .list items => VerbalItems items
  | .record entries => VerbalEntries entries

def VerbalItems : List Tree → Prop
  | [] => True
  | item :: rest => item.Verbal ∧ VerbalItems rest

def VerbalEntries : List (String × Tree) → Prop
  | [] => True
  | (name, value) :: rest => IsKeyName name ∧ value.Verbal ∧ VerbalEntries rest

end

mutual

/-- No numbers and no truth values, and the fields are words. -/
def Shape.Verbal {α : Type} : Shape α → Prop
  | .text | .path | .choice _ _ => True
  | .natural | .boolean => False
  | .list element => element.Verbal
  | .optional content => content.Verbal
  | .record _ _ fields => fields.Verbal
  | .via shape _ _ => shape.Verbal

def Fields.Verbal {ρ : Type} : Fields ρ → Prop
  | .done => True
  | .field name _ _ shape _ _ rest => IsKeyName name ∧ shape.Verbal ∧ rest.Verbal

end

theorem verbalItems_map {α : Type} {write : α → Tree} (verbal : ∀ value, (write value).Verbal)
    (values : List α) : VerbalItems (values.map write) := by
  induction values with
  | nil => trivial
  | cons value rest ih => exact ⟨verbal value, ih⟩

mutual

theorem Shape.write_verbal {α : Type} : (shape : Shape α) → shape.Verbal →
    ∀ value, (shape.write value).Verbal
  | .text, _, _ | .path, _, _ | .choice _ _, _, _ => trivial
  | .list element, verbal, values => by
    simpa only [Shape.write, Tree.Verbal] using verbalItems_map (element.write_verbal verbal) values
  | .optional content, verbal, value => by
    cases value with
    | none => trivial
    | some value => simpa only [Shape.write] using content.write_verbal verbal value
  | .record _ _ fields, verbal, value => by
    simpa only [Shape.write, Tree.Verbal] using fields.write_verbal verbal value
  | .via shape _ toWritten, verbal, value => by
    simpa only [Shape.write] using shape.write_verbal verbal (toWritten value)

theorem Fields.write_verbal {ρ : Type} : (fields : Fields ρ) → fields.Verbal →
    ∀ value, VerbalEntries (fields.write value)
  | .done, _, _ => trivial
  | .field name others presence shape get set rest, verbal, value => by
    obtain ⟨word, part, remaining⟩ := verbal
    rw [Fields.write_field]
    split
    · exact rest.write_verbal remaining value
    · exact ⟨word, shape.write_verbal part (get value), rest.write_verbal remaining value⟩

end

end PolicyDiagram.Data
