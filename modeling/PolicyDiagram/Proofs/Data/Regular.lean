import Mathlib.Data.List.Pairwise
import PolicyDiagram.Proofs.Data.Datum

/-! Records whose fields do not get in each other's way. Readers take the entries of a record in one by one;
if the fields are independent, that is the same as taking in the fields one by one. -/

namespace PolicyDiagram.Data

/-- The values that an empty datum reads as. -/
def Shape.empties {α : Type} : Shape α → List α
  | .text => [""]
  | .list _ => [[]]
  | .optional content => none :: content.empties.map some
  | .via shape ofWritten _ => shape.empties.map ofWritten
  | _ => []

/-- No key spells two fields, no field touches what another one stores, all fields may be left out, and a
field that is left out is as good as an empty one. -/
structure Fields.Independent {ρ : Type} (fields : Fields ρ) (empty : ρ) : Prop where
  apart : fields.toList.Pairwise fun first second => ∀ key ∈ first.keys, key ∉ second.keys
  commute : fields.toList.Pairwise fun first second =>
    ∀ part other value, first.set part (second.set other value) = second.set other (first.set part value)
  elective : ∀ field ∈ fields.toList, field.presence ≠ .required
  atRest : ∀ field ∈ fields.toList, ∀ part ∈ field.shape.empties, field.set part empty = empty

mutual

/-- Lists, texts and records of independent fields, at every depth. -/
def Shape.Regular {α : Type} : Shape α → Prop
  | .text | .path => True
  | .natural | .boolean | .choice _ _ => False
  | .list element => element.Regular
  | .optional content => content.Regular
  | .record _ empty fields => fields.Independent empty ∧ fields.Regular
  | .via shape _ _ => shape.Regular

def Fields.Regular {ρ : Type} : Fields ρ → Prop
  | .done => True
  | .field _ _ _ shape _ _ rest => shape.Regular ∧ rest.Regular

end

theorem Fields.regular_iff {ρ : Type} : (fields : Fields ρ) →
    (fields.Regular ↔ ∀ field ∈ fields.toList, field.shape.Regular)
  | .done => by simp [Fields.Regular, Fields.toList]
  | .field _ _ _ _ _ _ rest => by simp [Fields.Regular, Fields.toList, rest.regular_iff]

/-- What holds of texts and carries over from the parts of a regular shape to the shape. -/
structure Shape.Inherited (motive : {α : Type} → Shape α → Prop) : Prop where
  text : motive .text
  path : motive .path
  list {α : Type} (element : Shape α) : motive element → motive (.list element)
  optional {α : Type} (content : Shape α) : motive content → motive (.optional content)
  record {ρ : Type} (name : String) (empty : ρ) (fields : Fields ρ) : fields.Independent empty →
    (∀ field ∈ fields.toList, motive field.shape) → motive (.record name empty fields)
  via {α β : Type} (shape : Shape α) (ofWritten : α → β) (toWritten : β → α) : motive shape →
    motive (.via shape ofWritten toWritten)

mutual

theorem Shape.Inherited.holds {motive : {α : Type} → Shape α → Prop} (inherited : Shape.Inherited motive)
    {α : Type} : (shape : Shape α) → shape.Regular → motive shape
  | .text, _ => inherited.text
  | .path, _ => inherited.path
  | .list element, regular => inherited.list element (inherited.holds element regular)
  | .optional content, regular => inherited.optional content (inherited.holds content regular)
  | .record name empty fields, regular =>
    inherited.record name empty fields regular.1 (inherited.holdsFields fields regular.2)
  | .via shape ofWritten toWritten, regular =>
    inherited.via shape ofWritten toWritten (inherited.holds shape regular)

theorem Shape.Inherited.holdsFields {motive : {α : Type} → Shape α → Prop}
    (inherited : Shape.Inherited motive) {ρ : Type} : (fields : Fields ρ) → fields.Regular →
    ∀ field ∈ fields.toList, motive field.shape
  | .done, _, _, member => by simp [Fields.toList] at member
  | .field _ _ _ shape _ _ rest, regular, field, member => by
    rcases List.mem_cons.mp member with rfl | later
    · exact inherited.holds shape regular.1
    · exact inherited.holdsFields rest regular.2 field later

end

end PolicyDiagram.Data
