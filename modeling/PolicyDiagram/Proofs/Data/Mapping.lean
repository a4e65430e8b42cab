import Mathlib.Data.List.Forall2
import PolicyDiagram.Data.Slot

/-! Two shapes with the same data, of which the second one stores a function of what the first one stores. The
readers of all formats cannot tell their texts apart: both read the same texts and refuse the same texts for
the same reasons. -/

namespace PolicyDiagram.Data

mutual

/-- The second shape is laid out as the first one, and takes every part through a function. -/
inductive Shape.Maps : {α β : Type} → (α → β) → Shape α → Shape β → Prop
  | same {α : Type} (shape : Shape α) : Shape.Maps id shape shape
  | via {α β : Type} (shape : Shape α) (ofWritten : α → β) (toWritten : β → α) :
      Shape.Maps ofWritten shape (.via shape ofWritten toWritten)
  | list {α β : Type} {f : α → β} {element : Shape α} {image : Shape β} (each : Shape.Maps f element image) :
      Shape.Maps (List.map f) (.list element) (.list image)
  | record {ρ τ : Type} {f : ρ → τ} {name : String} {empty : ρ} {fields : Fields ρ} {images : Fields τ}
      (each : Fields.Maps f fields images) :
      Shape.Maps f (.record name empty fields) (.record name (f empty) images)

/-- The fields of two records correspond: storing commutes with the function. -/
inductive Fields.Maps : {ρ τ : Type} → (ρ → τ) → Fields ρ → Fields τ → Prop
  | done {ρ τ : Type} (f : ρ → τ) : Fields.Maps f .done .done
  | field {ρ τ α β : Type} {f : ρ → τ} {g : α → β} {name : String} {others : List String} {presence : Presence}
      {shape : Shape α} {image : Shape β} {get : ρ → α} {get' : τ → β} {set : α → ρ → ρ} {set' : β → τ → τ}
      {rest : Fields ρ} {rest' : Fields τ} (part : Shape.Maps g shape image)
      (commutes : ∀ part value, f (set part value) = set' (g part) (f value)) (more : Fields.Maps f rest rest') :
      Fields.Maps f (.field name others presence shape get set rest)
        (.field name others presence image get' set' rest')

end

theorem foldlM_through {m : Type → Type} [Monad m] [LawfulMonad m] {α σ τ : Type} {f : σ → τ}
    {step : σ → α → m σ} {image : τ → α → m τ} (each : ∀ state item, image (f state) item = f <$> step state item)
    (items : List α) (state : σ) : items.foldlM image (f state) = f <$> items.foldlM step state := by
  induction items generalizing state with
  | nil => simp
  | cons item rest ih =>
    rw [List.foldlM_cons, List.foldlM_cons, each, bind_map_left, map_bind]
    exact bind_congr ih

/-- A record on the way, taken through a function. -/
def Partial.map {ρ τ : Type} (f : ρ → τ) (state : Partial ρ) : Partial τ := ⟨f state.value, state.given⟩

@[simp] theorem Partial.given_map {ρ τ : Type} (f : ρ → τ) (state : Partial ρ) :
    (state.map f).given = state.given := rfl

namespace Slot

variable {σ τ : Type} {stores : σ → τ → Prop}

/-- Two slots for the same key that differ in what they store. -/
structure Alike (stores : σ → τ → Prop) (slot : Slot σ) (image : Slot τ) : Prop where
  name : slot.name = image.name
  others : slot.others = image.others
  presence : slot.presence = image.presence
  store : stores slot.store image.store

theorem Alike.answers {slot : Slot σ} {image : Slot τ} (alike : Alike stores slot image) (key : String) :
    slot.answers key = image.answers key := by
  rw [Slot.answers, Slot.answers, alike.name, alike.others]

/-- Two searches that both fail, or that end at slots that are alike. -/
inductive Found (stores : σ → τ → Prop) : Option (Slot σ) → Option (Slot τ) → Prop
  | nowhere : Found stores none none
  | both {slot : Slot σ} {image : Slot τ} (alike : Alike stores slot image) :
      Found stores (some slot) (some image)

theorem found_find? {slots : List (Slot σ)} {images : List (Slot τ)}
    (alike : List.Forall₂ (Alike stores) slots images) (key : String) :
    Found stores (slots.find? (·.answers key)) (images.find? (·.answers key)) := by
  induction alike with
  | nil => exact .nowhere
  | cons first _ ih =>
    rw [List.find?_cons, List.find?_cons, first.answers]
    split
    · exact .both first
    · exact ih

theorem missing_eq {slots : List (Slot σ)} {images : List (Slot τ)}
    (alike : List.Forall₂ (Alike stores) slots images) (given : List String) :
    missing slots given = missing images given := by
  induction alike with
  | nil => rfl
  | cons first _ ih =>
    unfold missing at ih ⊢
    rw [List.find?_cons, List.find?_cons, first.presence, first.name]
    split
    · simp [first.name]
    · exact ih

end Slot

end PolicyDiagram.Data
