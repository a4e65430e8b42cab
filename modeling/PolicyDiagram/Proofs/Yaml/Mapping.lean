import PolicyDiagram.Proofs.Data.Mapping
import PolicyDiagram.Yaml.Read

/-! Reading YAML through a function: corresponding shapes read the same documents, follow the same aliases, and
fail on the others alike. -/

namespace PolicyDiagram.Yaml

open Data (Shape Fields Slot Partial)

/-- What the second store keeps is what the first one keeps, taken through a function. -/
def Stores {ρ τ : Type} (f : ρ → τ) (store : Store ρ) (image : Store τ) : Prop :=
  ∀ trail node value, image trail node (f value) = f <$> store trail node value

abbrev Corresponding {ρ τ : Type} (f : ρ → τ) : List (Slot (Store ρ)) → List (Slot (Store τ)) → Prop :=
  List.Forall₂ (Slot.Alike (Stores f))

theorem map_locate {α β : Type} (g : α → β) (mark : Mark) (trail : Trail) (reading : Reading α) :
    g <$> locate mark trail reading = locate mark trail (g <$> reading) := by
  funext count
  simp only [locate, Functor.map, StateT.map, bind, Except.bind]
  cases reading count <;> rfl

theorem map_fail {α β : Type} (g : α → β) (problem : Data.Mismatch) :
    g <$> (fail problem : Reading α) = fail problem := rfl

theorem map_refuse {α β : Type} (g : α → β) (content : Content) (trail : Trail) (expected : String)
    (node : Node) :
    g <$> (refuse content trail expected node : Reading α) = refuse content trail expected node := by
  cases node with
  | scalar mark scalar =>
    simp only [refuse, map_locate]
    cases scalar.found <;> rfl
  | sequence | mapping => simp only [refuse, map_locate, map_fail]
  | nothing | «alias» | cut => rfl

variable {ρ τ : Type} {f : ρ → τ} {slots : List (Slot (Store ρ))} {images : List (Slot (Store τ))}

theorem readEntry_map (content : Content) (trail : Trail) (alike : Corresponding f slots images)
    (state : Partial ρ) (entry : Node × Node) :
    readEntry content trail images (state.map f) entry =
      Partial.map f <$> readEntry content trail slots state entry := by
  unfold readEntry
  rw [map_bind]
  apply bind_congr
  intro key
  have found := Slot.found_find? alike key
  generalize slots.find? (·.answers key) = slot at found
  generalize images.find? (·.answers key) = image at found
  cases found with
  | nowhere => simp
  | @both slot image alike =>
    simp only [Partial.given_map, ← alike.name]
    split
    · rfl
    · have stored := alike.store (stepOf entry.1 :: trail) entry.2 state.value
      simp [Partial.map, stored]

theorem readEntries_map (content : Content) (trail : Trail) (empty : ρ) (alike : Corresponding f slots images)
    (entries : List (Node × Node)) :
    readEntries content trail (f empty) images entries =
      f <$> readEntries content trail empty slots entries := by
  have folded : entries.foldlM (readEntry content trail images) ⟨f empty, []⟩ =
      Partial.map f <$> entries.foldlM (readEntry content trail slots) ⟨empty, []⟩ :=
    Data.foldlM_through (readEntry_map content trail alike) entries ⟨empty, []⟩
  unfold readEntries
  rw [folded, bind_map_left, map_bind]
  apply bind_congr
  intro state
  have missing := Slot.missing_eq alike state.given
  simp only [Partial.given_map, ← missing]
  cases Slot.missing slots state.given <;> rfl

theorem readRecord_map (content : Content) (trail : Trail) (name : String) (empty : ρ)
    (alike : Corresponding f slots images) (node : Node) :
    readRecord content trail name (f empty) images node =
      f <$> readRecord content trail name empty slots node := by
  unfold readRecord
  rw [map_bind]
  apply bind_congr
  intro node
  cases node with
  | mapping | nothing => simp only [readEntries_map content trail empty alike, map_locate]
  | scalar mark scalar =>
    by_cases bare : scalar.isBare = true
    · simp only [bare, if_true, readEntries_map content trail empty alike, map_locate]
    · simp [bare, map_refuse]
  | sequence | «alias» | cut => simp only [map_refuse]

theorem readItems_map {α β : Type} {g : α → β} {element : Trail → Node → Reading α}
    {image : Trail → Node → Reading β} (each : ∀ trail node, image trail node = g <$> element trail node)
    (trail : Trail) (items : List Node) (position : Nat) :
    readItems image trail items position = List.map g <$> readItems element trail items position := by
  induction items generalizing position with
  | nil => simp [readItems]
  | cons item rest ih => simp [readItems, each, ih]

theorem readList_map {α β : Type} {g : α → β} {element : Trail → Node → Reading α}
    {image : Trail → Node → Reading β} (each : ∀ trail node, image trail node = g <$> element trail node)
    (content : Content) (trail : Trail) (node : Node) :
    readList content trail image node = List.map g <$> readList content trail element node := by
  unfold readList
  rw [map_bind]
  apply bind_congr
  intro node
  cases node with
  | sequence => simp only [readItems_map each, map_locate]
  | nothing => rfl
  | scalar mark scalar =>
    by_cases bare : scalar.isBare = true
    · simp [bare]
    · simp [bare, map_refuse]
  | mapping | «alias» | cut => simp only [map_refuse]

-- By recursion on how the shapes correspond, as in JSON; the count of followed aliases is threaded through.
mutual

theorem read_of_maps (content : Content) {α β : Type} {g : α → β} {shape : Shape α} {image : Shape β} :
    shape.Maps g image → ∀ trail node, read content image trail node = g <$> read content shape trail node
  | .same shape, trail, node => (id_map (read content shape trail node)).symm
  | .via _ _ _, _, _ => rfl
  | .list each, trail, node => readList_map (read_of_maps content each) content trail node
  | @Shape.Maps.record _ _ _ name empty _ _ each, trail, node =>
    readRecord_map content trail name empty (slots_of_maps content each) node

theorem slots_of_maps (content : Content) {ρ τ : Type} {f : ρ → τ} {fields : Fields ρ} {images : Fields τ} :
    fields.Maps f images → Corresponding f (Yaml.slots content fields) (Yaml.slots content images)
  | .done _ => .nil
  | .field part commutes more => by
    refine .cons ⟨rfl, rfl, rfl, ?_⟩ (slots_of_maps content more)
    intro trail node value
    simp [read_of_maps content part trail node, commutes]

end

/-- A text decodes through a function, or fails with the same error. -/
theorem decode_of_maps {α β : Type} {g : α → β} {shape : Shape α} {image : Shape β} (maps : shape.Maps g image)
    (bytes : ByteArray) : decode image bytes = (decode shape bytes).map g := by
  unfold decode
  simp only [read_of_maps (Content.ofBytes bytes) maps, StateT.run_map]
  generalize Content.ofBytes bytes = content
  cases (read content shape [] content.root).run 0 with
  | error error => rfl
  | ok answer =>
    simp only [Functor.map, Except.map, bind, Except.bind]
    cases content.fault.isSome <;> cases content.followed <;> rfl

end PolicyDiagram.Yaml
