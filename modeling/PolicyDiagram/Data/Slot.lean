import PolicyDiagram.Data.Shape

/-!
What the readers of all formats share: which field of a record a key spells, which fields have been given,
and which one is missing. How a field is taken in is left to the format.
-/

namespace PolicyDiagram.Data

structure Slot (σ : Type) where
  name : String
  others : List String
  presence : Presence
  store : σ

namespace Slot

def answers {σ : Type} (slot : Slot σ) (key : String) : Bool :=
  slot.name == key || slot.others.contains key

def missing {σ : Type} (slots : List (Slot σ)) (given : List String) : Option String :=
  (slots.find? fun slot => slot.presence == .required && !given.contains slot.name).map name

end Slot

structure Partial (ρ : Type) where
  value : ρ
  given : List String

end PolicyDiagram.Data
