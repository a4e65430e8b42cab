import PolicyDiagram.Json.Read
import PolicyDiagram.Proofs.Data.Mapping

/-! Reading JSON through a function: corresponding shapes read the same texts, and fail on the others alike. -/

namespace PolicyDiagram.Json

open Data (Shape Fields Slot Partial)

/-- What the second store keeps is what the first one keeps, taken through a function. -/
def Stores {ρ τ : Type} (f : ρ → τ) (store : Store ρ) (image : Store τ) : Prop :=
  ∀ node value, image node (f value) = (store node value).map f

abbrev Corresponding {ρ τ : Type} (f : ρ → τ) : List (Slot (Store ρ)) → List (Slot (Store τ)) → Prop :=
  List.Forall₂ (Slot.Alike (Stores f))

variable {ρ τ : Type} {f : ρ → τ} {slots : List (Slot (Store ρ))} {images : List (Slot (Store τ))}

theorem readMember_map (alike : Corresponding f slots images) (state : Partial ρ) (member : Member) :
    readMember images (state.map f) member = (readMember slots state member).map (Partial.map f) := by
  unfold readMember
  cases member.key with
  | error fault => rfl
  | ok key =>
    -- Both searches end at the same place, so the member is passed over in both or stored in both.
    have found := Slot.found_find? alike key
    simp only [bind, Except.bind]
    generalize slots.find? (·.answers key) = slot at found
    generalize images.find? (·.answers key) = image at found
    cases found with
    | nowhere =>
      cases member.value with
      | error fault => rfl
      | ok node =>
        dsimp only
        cases node.passing <;> rfl
    | @both slot image alike =>
      simp only [Partial.given_map, ← alike.name]
      split
      · rfl
      · cases member.value with
        | error fault => rfl
        | ok node =>
          have stored := alike.store node state.value
          simp only [Partial.map, stored]
          cases slot.store node state.value <;> rfl

theorem readMembers_map (bytes : Bytes) (empty : ρ) (alike : Corresponding f slots images)
    (members : List Member) (ending : Ending) :
    readMembers bytes (f empty) images members ending =
      (readMembers bytes empty slots members ending).map f := by
  have folded : members.foldlM (readMember images) ⟨f empty, []⟩ =
      (members.foldlM (readMember slots) ⟨empty, []⟩).map (Partial.map f) :=
    Data.foldlM_through (readMember_map alike) members ⟨empty, []⟩
  unfold readMembers
  rw [folded]
  cases members.foldlM (readMember slots) ⟨empty, []⟩ with
  | error fault => rfl
  | ok state =>
    have missing := Slot.missing_eq alike state.given
    simp only [Except.map, bind, Except.bind]
    cases ending.recordFault bytes with
    | some fault => rfl
    | none =>
      simp only [Partial.given_map, ← missing]
      cases Slot.missing slots state.given <;> rfl

theorem readItems_map (bytes : Bytes) (expected : String) (ending : Ending)
    (alike : Corresponding f slots images) (items : List Node) (position : Nat) (value : ρ) :
    readItems bytes expected ending images items position (f value) =
      (readItems bytes expected ending slots items position value).map f := by
  induction alike generalizing items position value with
  | nil =>
    cases items with
    | nil =>
      unfold readItems
      cases ending.listSurplusFault bytes <;> rfl
    | cons item rest => rfl
  | @cons slot image slots images first _ ih =>
    cases items with
    | nil =>
      unfold readItems
      cases ending.listFault bytes with
      | some fault => rfl
      | none =>
        simp only [← first.presence]
        split
        · exact ih [] (position + 1) value
        · rfl
    | cons item rest =>
      unfold readItems
      rw [first.store item value]
      cases slot.store item value with
      | error fault => rfl
      | ok next => exact ih rest (position + 1) next

theorem Node.refuse_map {α β : Type} (node : Node) (expected : String) (g : α → β) :
    (node.refuse expected : Except Fault β) = (node.refuse expected : Except Fault α).map g := by
  unfold Node.refuse
  cases node.found <;> rfl

theorem readRecord_map (bytes : Bytes) (name : String) (empty : ρ) (alike : Corresponding f slots images)
    (node : Node) :
    readRecord bytes name (f empty) images node = (readRecord bytes name empty slots node).map f := by
  unfold readRecord
  cases node.content with
  | record members ending => exact readMembers_map bytes empty alike members ending
  | list items ending =>
    simp only [← alike.length_eq]
    exact readItems_map bytes _ ending alike items 0 empty
  | absent | name | number | text => exact node.refuse_map ("struct " ++ name) f

theorem mapM_map {α β : Type} {g : α → β} {element : Node → Except Fault α} {image : Node → Except Fault β}
    (each : ∀ node, image node = (element node).map g) (nodes : List Node) :
    nodes.mapM image = (nodes.mapM element).map (List.map g) := by
  induction nodes with
  | nil => rfl
  | cons node rest ih =>
    rw [List.mapM_cons, List.mapM_cons, each, ih]
    cases element node with
    | error fault => rfl
    | ok value => cases rest.mapM element <;> rfl

theorem readList_map {α β : Type} {g : α → β} {element : Node → Except Fault α}
    {image : Node → Except Fault β} (each : ∀ node, image node = (element node).map g) (bytes : Bytes)
    (node : Node) : readList bytes image node = (readList bytes element node).map (List.map g) := by
  unfold readList
  cases node.content with
  | list nodes ending =>
    simp only [mapM_map each]
    cases nodes.mapM element with
    | error fault => rfl
    | ok values =>
      simp only [Except.map, bind, Except.bind]
      cases ending.listFault bytes <;> rfl
  | absent | name | number | text | record => exact node.refuse_map "a sequence" (List.map g)

-- By recursion on how the shapes correspond, since a record's fields hold shapes of their own.
mutual

theorem read_of_maps (bytes : Bytes) {α β : Type} {g : α → β} {shape : Shape α} {image : Shape β} :
    shape.Maps g image → ∀ node, read bytes image node = (read bytes shape node).map g
  | .same shape, node => by cases read bytes shape node <;> rfl
  | .via _ _ _, _ => rfl
  | .list each, node => readList_map (read_of_maps bytes each) bytes node
  | @Shape.Maps.record _ _ _ name empty _ _ each, node =>
    readRecord_map bytes name empty (slots_of_maps bytes each) node

theorem slots_of_maps (bytes : Bytes) {ρ τ : Type} {f : ρ → τ} {fields : Fields ρ} {images : Fields τ} :
    fields.Maps f images → Corresponding f (Json.slots bytes fields) (Json.slots bytes images)
  | .done _ => .nil
  | .field part commutes more => by
    refine .cons ⟨rfl, rfl, rfl, ?_⟩ (slots_of_maps bytes more)
    intro node value
    simp only [read_of_maps bytes part node]
    cases read bytes _ node with
    | error fault => rfl
    | ok part => exact congrArg Except.ok (commutes part value).symm

end

/-- A text decodes through a function, or fails with the same error. -/
theorem decode_of_maps (source : Source) {α β : Type} {g : α → β} {shape : Shape α} {image : Shape β}
    (maps : shape.Maps g image) (bytes : Bytes) :
    decode source image bytes = (decode source shape bytes).map g := by
  unfold decode readAll
  simp only [read_of_maps bytes maps]
  cases read bytes shape bytes.parse with
  | error fault => rfl
  | ok value =>
    cases bytes.parse.passing with
    | error fault => simp [Except.map, Except.mapError, bind, Except.bind]
    | ok stop =>
      by_cases followed : bytes.skipBlank stop < bytes.size <;>
        simp [followed, Except.map, Except.mapError, bind, Except.bind]

end PolicyDiagram.Json
