import PolicyDiagram.Proofs.Index.Lookup

/-! An index keeps nothing that its look-ups do not show. No type is kept with an empty list or an empty table,
and a table's positions are determined by its groups, so two indexes that answer alike are equal. -/

namespace PolicyDiagram

namespace DirectIndex

/-- No type is kept without an action. -/
def Filled (index : DirectIndex) : Prop := ∀ typeName : String, index.actions[typeName]? ≠ some []

theorem filled_empty : empty.Filled := by
  intro typeName
  simp [empty]

theorem Filled.push {index : DirectIndex} (filled : index.Filled) (typeName action : String) :
    (index.push typeName action).Filled := by
  intro other
  unfold DirectIndex.push
  rw [Std.ExtTreeMap.getElem?_alter]
  split
  · simp [appended]
  · exact filled other

theorem Filled.ext {first second : DirectIndex} (filled : first.Filled) (filled' : second.Filled)
    (same : ∀ typeName, first.actionsFor typeName = second.actionsFor typeName) : first = second := by
  obtain ⟨actions⟩ := first
  obtain ⟨actions'⟩ := second
  rw [DirectIndex.mk.injEq]
  apply Std.ExtTreeMap.ext_getElem?
  intro typeName
  have here := filled typeName
  have there := filled' typeName
  have equal := same typeName
  unfold actionsFor at equal
  -- An empty answer means that the type is not kept, on either side.
  cases one : actions[typeName]? <;> cases other : actions'[typeName]? <;> simp_all

end DirectIndex

namespace RelationGroups

theorem WellFormed.ext {first second : RelationGroups} (sound : first.WellFormed) (sound' : second.WellFormed)
    (same : first.groups = second.groups) : first = second := by
  have relations : first.relations = second.relations := congrArg (List.map Prod.fst) same
  have positions : first.positions = second.positions := by
    apply Std.ExtTreeMap.ext_getElem?
    intro relation
    apply Option.ext
    intro position
    rw [sound.positions, sound'.positions, relations]
  calc first = ⟨first.groups, first.positions⟩ := rfl
    _ = ⟨second.groups, second.positions⟩ := by rw [same, positions]
    _ = second := rfl

theorem WellFormed.groups_push_ne_nil {table : RelationGroups} (sound : table.WellFormed)
    (relation action : String) : (table.push relation action).groups ≠ [] := by
  rw [sound.groups_push]
  split
  · rename_i known
    have kept : table.groups ≠ [] := by
      rintro none
      simp [relations, none] at known
    simpa using kept
  · simp

end RelationGroups

namespace RelatedIndex

/-- The relations of a type with their actions, in the order in which they are gone through. -/
def listing (index : RelatedIndex) (typeName : String) : List (String × List String) :=
  ((index.groupsFor typeName).map RelationGroups.groups).getD []

/-- No type is kept without a relation, and every table is well-formed. -/
def Filled (index : RelatedIndex) : Prop :=
  ∀ typeName table, index.groupsFor typeName = some table → table.WellFormed ∧ table.groups ≠ []

theorem filled_empty : empty.Filled := by
  intro typeName table found
  simp [groupsFor, empty] at found

theorem Filled.wellFormed {index : RelatedIndex} (filled : index.Filled) (typeName : String) :
    ((index.groupsFor typeName).getD .empty).WellFormed := by
  cases found : index.groupsFor typeName with
  | none => exact RelationGroups.wellFormed_empty
  | some table => exact (filled typeName table found).1

theorem Filled.push {index : RelatedIndex} (filled : index.Filled) (typeName relation action : String) :
    (index.push typeName relation action).Filled := by
  intro other table found
  rw [groupsFor_push] at found
  split at found
  · cases Option.some.inj found
    have sound := filled.wellFormed typeName
    exact ⟨sound.push relation action, sound.groups_push_ne_nil relation action⟩
  · exact filled other table found

theorem Filled.ext {first second : RelatedIndex} (filled : first.Filled) (filled' : second.Filled)
    (same : ∀ typeName, first.listing typeName = second.listing typeName) : first = second := by
  obtain ⟨byType⟩ := first
  obtain ⟨byType'⟩ := second
  rw [RelatedIndex.mk.injEq]
  apply Std.ExtTreeMap.ext_getElem?
  intro typeName
  have here := filled typeName
  have there := filled' typeName
  have equal := same typeName
  unfold listing at equal
  unfold groupsFor at here there equal
  cases one : byType[typeName]? <;> cases other : byType'[typeName]?
  case none.none => rfl
  case none.some table => simp_all
  case some.none table => simp_all
  case some.some table table' =>
    have groups : table.groups = table'.groups := by simpa [one, other] using equal
    rw [(here table one).1.ext (there table' other).1 groups]

end RelatedIndex

namespace ActionIndex

/-- No index that recording leads to keeps an empty entry, or a position that its groups do not have. -/
structure Canonical (index : ActionIndex) : Prop where
  direct : index.direct.Filled
  related : index.related.Filled

theorem canonical_empty : empty.Canonical := ⟨DirectIndex.filled_empty, RelatedIndex.filled_empty⟩

theorem Canonical.recordClause {index : ActionIndex} (canonical : index.Canonical) (clause : Clause) :
    (index.recordClause clause).Canonical := by
  obtain ⟨typeName, action, condition⟩ := clause
  cases condition with
  | roleBinding role => exact ⟨canonical.direct.push typeName action, canonical.related⟩
  | relationshipAction via =>
    exact ⟨canonical.direct, canonical.related.push typeName via.relation via.action⟩
  | unrecognized => exact canonical

theorem Canonical.foldl {index : ActionIndex} (canonical : index.Canonical) (more : List Clause) :
    (more.foldl ActionIndex.recordClause index).Canonical := by
  induction more generalizing index with
  | nil => exact canonical
  | cons clause rest ih => exact ih (canonical.recordClause clause)

theorem canonical_build (bindings : List ActionBinding) : (build bindings).Canonical := by
  rw [build_eq_foldl_clauses]
  exact canonical_empty.foldl (clauses bindings)

/-- Two indexes that give the same direct actions and go through the same relations, for every type. -/
structure AnswersAlike (first second : ActionIndex) : Prop where
  direct : ∀ typeName, first.direct.actionsFor typeName = second.direct.actionsFor typeName
  related : ∀ typeName, first.related.listing typeName = second.related.listing typeName

theorem Canonical.ext {first second : ActionIndex} (canonical : first.Canonical)
    (canonical' : second.Canonical) (alike : first.AnswersAlike second) : first = second := by
  have direct := canonical.direct.ext canonical'.direct alike.direct
  have related := canonical.related.ext canonical'.related alike.related
  calc first = ⟨first.direct, first.related⟩ := rfl
    _ = ⟨second.direct, second.related⟩ := by rw [direct, related]
    _ = second := rfl

/-- The index of bindings is made of what scans of the bindings find, and of nothing else. -/
theorem build_eq_of_scans {first second : List ActionBinding}
    (direct : ∀ typeName, directActions first typeName = directActions second typeName)
    (related : ∀ typeName, relatedActions first typeName = relatedActions second typeName) :
    build first = build second := by
  apply (canonical_build first).ext (canonical_build second)
  constructor
  · intro typeName
    rw [actionsFor_build, actionsFor_build, direct]
  · intro typeName
    unfold RelatedIndex.listing
    rw [groupsFor_build, groupsFor_build, related]

/-- Indexes of bindings are equal, with every entry, every relation and every position that they keep, if and only
if they answer alike. -/
theorem build_beq_iff_answersAlike (first second : List ActionBinding) :
    (build first == build second) = true ↔ (build first).AnswersAlike (build second) := by
  rw [beq_iff_eq]
  constructor
  · intro same
    rw [same]
    exact ⟨fun _ => rfl, fun _ => rfl⟩
  · exact (canonical_build first).ext (canonical_build second)

end ActionIndex

end PolicyDiagram
