import PolicyDiagram.Data.Tree
import PolicyDiagram.Files.Path

/-!
Shapes: one description of how a type of values is laid out as data, from which every format derives both its
reader and its writer. Fields are written in the order in which the shape has them.
-/

namespace PolicyDiagram.Data

/-- Whether a field may be left out: an optional one of records with named fields only, where it reads as
nothing; a defaulted one always, and it is then as in the empty record. An elided one is not even written when
it is nothing. -/
inductive Presence where
  | required
  | optional
  | defaulted
  | elided
deriving DecidableEq, Repr

def countRange : Nat := Nat.pow 2 64

mutual

inductive Shape : Type → Type 1 where
  | text : Shape String
  | path : Shape Path
  | natural : Shape Nat
  | boolean : Shape Bool
  | choice {α : Type} (variants : List (String × α)) (nameOf : α → String) : Shape α
  | list {α : Type} (element : Shape α) : Shape (List α)
  | optional {α : Type} (content : Shape α) : Shape (Option α)
  | record {ρ : Type} (name : String) (empty : ρ) (fields : Fields ρ) : Shape ρ
  | via {α β : Type} (shape : Shape α) (ofWritten : α → β) (toWritten : β → α) : Shape β

inductive Fields : Type → Type 1 where
  | done {ρ : Type} : Fields ρ
  | field {ρ α : Type} (name : String) (others : List String) (presence : Presence)
      (shape : Shape α) (get : ρ → α) (set : α → ρ → ρ) (rest : Fields ρ) : Fields ρ

end

mutual

def Shape.write {α : Type} : Shape α → α → Tree
  | .text, value => .text value
  | .path, value => .text value.spelling
  | .natural, value => .natural value
  | .boolean, value => .boolean value
  | .choice _ nameOf, value => .text (nameOf value)
  | .list element, values => .list (values.map element.write)
  | .optional content, value =>
    match value with
    | none => .null
    | some value => content.write value
  | .record _ _ fields, value => .record (fields.write value)
  | .via shape _ toWritten, value => shape.write (toWritten value)

def Fields.write {ρ : Type} : Fields ρ → ρ → List (String × Tree)
  | .done, _ => []
  | .field name _ presence shape get _ rest, value =>
    let written := shape.write (get value)
    if presence = .elided ∧ written.isNull then rest.write value
    else (name, written) :: rest.write value

end

def Fields.length {ρ : Type} : Fields ρ → Nat
  | .done => 0
  | .field _ _ _ _ _ _ rest => rest.length + 1

end PolicyDiagram.Data
