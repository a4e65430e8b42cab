import Mathlib.Data.Finset.Card
import Mathlib.Data.Finset.Dedup
import PolicyDiagram.Proofs.Index.Canonical

/-! Every look-up of an index of bindings, for types and relations that occur in the bindings and for those that
do not: the actions of a type, those behind one of its relations, its table of relations, and the numbers of types.
Each is compared with a scan of the bindings that knows nothing of maps and positions. -/

namespace PolicyDiagram

/-- The actions recorded for one relation, in order. -/
def actionsOf (relation : String) (pairs : List (String × String)) : List String :=
  pairs.filterMap fun pair => if pair.1 = relation then some pair.2 else none

/-- The actions of a type through a relation, by a scan of the bindings. -/
def actionsThrough (bindings : List ActionBinding) (typeName relation : String) : List String :=
  actionsOf relation (relatedActions bindings typeName)

/-- The relations of a type, each where it comes up first, by a scan of the bindings. -/
def relationsOf (bindings : List ActionBinding) (typeName : String) : List String :=
  ((relatedActions bindings typeName).map Prod.fst).eraseDups

theorem gather_relatedActions (bindings : List ActionBinding) (typeName : String) :
    gather (relatedActions bindings typeName) =
      (relationsOf bindings typeName).map fun relation =>
        (relation, actionsThrough bindings typeName relation) := rfl

def Condition.isRoleBinding : Condition → Bool
  | .roleBinding _ => true
  | _ => false

def Condition.isRelationshipAction : Condition → Bool
  | .relationshipAction _ => true
  | _ => false

/-- The types of the bindings that have a condition of a kind. -/
def typesWith (kind : Condition → Bool) (bindings : List ActionBinding) : List String :=
  (bindings.filter (·.conditions.any kind)).map ActionBinding.typeName

theorem mem_typesWith {kind : Condition → Bool} {bindings : List ActionBinding} {typeName : String} :
    typeName ∈ typesWith kind bindings ↔
      ∃ clause ∈ clauses bindings, clause.typeName = typeName ∧ kind clause.condition = true := by
  simp only [typesWith, clauses, List.mem_map, List.mem_filter, List.any_eq_true, List.mem_flatMap]
  constructor
  · rintro ⟨binding, ⟨listed, condition, held, fits⟩, rfl⟩
    exact ⟨_, ⟨binding, listed, condition, held, rfl⟩, rfl, fits⟩
  · rintro ⟨_, ⟨binding, listed, condition, held, rfl⟩, rfl, fits⟩
    exact ⟨binding, ⟨listed, condition, held, fits⟩, rfl⟩

/-- A scan finds something on a type if and only if a binding on it has a condition of the kind looked for. -/
theorem filterMap_clauses_ne_nil {β : Type} {find : Clause → Option β} {kind : Condition → Bool}
    {typeName : String} (finds : ∀ clause : Clause,
      (find clause).isSome = true ↔ clause.typeName = typeName ∧ kind clause.condition = true)
    (bindings : List ActionBinding) :
    (clauses bindings).filterMap find ≠ [] ↔ typeName ∈ typesWith kind bindings := by
  rw [mem_typesWith, Ne, List.filterMap_eq_nil_iff]
  simp only [← finds, Option.isSome_iff_ne_none]
  push Not
  rfl

theorem directActions_ne_nil {bindings : List ActionBinding} {typeName : String} :
    directActions bindings typeName ≠ [] ↔ typeName ∈ typesWith Condition.isRoleBinding bindings := by
  apply filterMap_clauses_ne_nil
  intro clause
  unfold Clause.direct? Condition.isRoleBinding
  cases clause.condition <;> by_cases same : clause.typeName = typeName <;> simp [same]

theorem relatedActions_ne_nil {bindings : List ActionBinding} {typeName : String} :
    relatedActions bindings typeName ≠ [] ↔
      typeName ∈ typesWith Condition.isRelationshipAction bindings := by
  apply filterMap_clauses_ne_nil
  intro clause
  unfold Clause.related? Condition.isRelationshipAction
  cases clause.condition <;> by_cases same : clause.typeName = typeName <;> simp [same]

/-! ## Look-ups -/

/-- Looking a relation up by its position finds what going through the groups finds. -/
theorem RelationGroups.WellFormed.get?_eq_some_iff {table : RelationGroups} (sound : table.WellFormed)
    {relation : String} {actions : List String} :
    table.get? relation = some actions ↔ (relation, actions) ∈ table.groups := by
  unfold get?
  constructor
  · intro found
    obtain ⟨position, known, found⟩ := Option.bind_eq_some_iff.mp found
    obtain ⟨group, here, rfl⟩ := Option.map_eq_some_iff.mp found
    have named := (sound.positions relation position).mp known
    rw [relations, List.getElem?_map, here] at named
    cases Option.some.inj named
    exact List.mem_of_getElem? here
  · intro member
    obtain ⟨position, here⟩ := List.getElem?_of_mem member
    have named : table.relations[position]? = some relation := by
      rw [relations, List.getElem?_map, here, Option.map_some]
    rw [(sound.positions relation position).mpr named, Option.bind_some, here, Option.map_some]

theorem actionsThrough_eq_nil {bindings : List ActionBinding} {typeName relation : String}
    (unseen : relation ∉ relationsOf bindings typeName) : actionsThrough bindings typeName relation = [] := by
  unfold actionsThrough actionsOf
  rw [List.filterMap_eq_nil_iff]
  intro pair member
  apply if_neg
  rintro rfl
  exact unseen (List.mem_eraseDups.mpr (List.mem_map_of_mem member))

theorem size_eq_card {β : Type} {map : Std.ExtTreeMap String β} {keys : List String}
    (same : ∀ key, key ∈ map ↔ key ∈ keys) : map.size = keys.toFinset.card := by
  have equal : map.keys.toFinset = keys.toFinset := by
    ext key
    rw [List.mem_toFinset, List.mem_toFinset, Std.ExtTreeMap.mem_keys, same]
  rw [← equal, List.toFinset_card_of_nodup Std.ExtTreeMap.nodup_keys, Std.ExtTreeMap.length_keys]

theorem DirectIndex.Filled.mem_iff {index : DirectIndex} (filled : index.Filled) {typeName : String} :
    typeName ∈ index.actions ↔ index.actionsFor typeName ≠ [] := by
  have here := filled typeName
  rw [Std.ExtTreeMap.mem_iff_isSome_getElem?, actionsFor]
  cases found : index.actions[typeName]? <;> simp_all

namespace ActionIndex

/-- The index of bindings answers every question about them exactly. -/
structure Exact (bindings : List ActionBinding) (index : ActionIndex) : Prop where
  direct : ∀ typeName, index.direct.actionsFor typeName = directActions bindings typeName
  related : ∀ typeName relation,
    index.related.actionsFor typeName relation = actionsThrough bindings typeName relation
  present : ∀ typeName, (index.related.groupsFor typeName).isSome = true ↔
    typeName ∈ typesWith Condition.isRelationshipAction bindings
  relations : ∀ typeName table, index.related.groupsFor typeName = some table →
    table.relations = relationsOf bindings typeName ∧ table.relations.Nodup
  groups : ∀ typeName table, index.related.groupsFor typeName = some table →
    table.groups = table.relations.map fun relation =>
      (relation, actionsThrough bindings typeName relation)
  searched : ∀ typeName table, index.related.groupsFor typeName = some table →
    ∀ relation actions, table.get? relation = some actions ↔ (relation, actions) ∈ table.groups
  directTypes : index.direct.typeCount = (typesWith Condition.isRoleBinding bindings).toFinset.card
  relatedTypes :
    index.related.typeCount = (typesWith Condition.isRelationshipAction bindings).toFinset.card

theorem groups_of_build {bindings : List ActionBinding} {typeName : String} {table : RelationGroups}
    (found : (build bindings).related.groupsFor typeName = some table) :
    table.groups = (relationsOf bindings typeName).map fun relation =>
      (relation, actionsThrough bindings typeName relation) := by
  rw [groupsFor_build] at found
  rw [RelationGroups.groups_of_ofPairs? found, gather_relatedActions]

theorem relations_of_build {bindings : List ActionBinding} {typeName : String} {table : RelationGroups}
    (found : (build bindings).related.groupsFor typeName = some table) :
    table.relations = relationsOf bindings typeName := by
  rw [RelationGroups.relations, groups_of_build found, List.map_map]
  exact List.map_id _

theorem isSome_groupsFor_build (bindings : List ActionBinding) (typeName : String) :
    ((build bindings).related.groupsFor typeName).isSome = true ↔
      typeName ∈ typesWith Condition.isRelationshipAction bindings := by
  rw [groupsFor_build, Option.isSome_iff_ne_none, Ne, RelationGroups.ofPairs?_eq_none]
  exact relatedActions_ne_nil

theorem related_actionsFor_build (bindings : List ActionBinding) (typeName relation : String) :
    (build bindings).related.actionsFor typeName relation =
      actionsThrough bindings typeName relation := by
  unfold RelatedIndex.actionsFor
  cases found : (build bindings).related.groupsFor typeName with
  | none =>
    rw [groupsFor_build, RelationGroups.ofPairs?_eq_none] at found
    simp [actionsThrough, actionsOf, found]
  | some table =>
    have sound := ((canonical_build bindings).related typeName table found).1
    have groups := groups_of_build found
    rw [Option.bind_some]
    -- Looking the relation up finds its group, and the groups are those of a scan.
    by_cases seen : relation ∈ relationsOf bindings typeName
    · have member : (relation, actionsThrough bindings typeName relation) ∈ table.groups := by
        rw [groups]
        exact List.mem_map.mpr ⟨relation, seen, rfl⟩
      rw [sound.get?_eq_some_iff.mpr member]
      rfl
    · have missing : table.get? relation = none := by
        rw [Option.eq_none_iff_forall_ne_some]
        intro actions known
        have member := sound.get?_eq_some_iff.mp known
        rw [groups] at member
        obtain ⟨_, listed, same⟩ := List.mem_map.mp member
        cases same
        exact seen listed
      rw [missing, actionsThrough_eq_nil seen]
      rfl

theorem exact_build (bindings : List ActionBinding) : Exact bindings (build bindings) := by
  have canonical := canonical_build bindings
  constructor
  case direct => exact actionsFor_build bindings
  case related => exact related_actionsFor_build bindings
  case present => exact isSome_groupsFor_build bindings
  case relations =>
    intro typeName table found
    exact ⟨relations_of_build found, (canonical.related typeName table found).1.nodup_relations⟩
  case groups =>
    intro typeName table found
    rw [relations_of_build found]
    exact groups_of_build found
  case searched =>
    intro typeName table found relation actions
    exact (canonical.related typeName table found).1.get?_eq_some_iff
  case directTypes =>
    apply size_eq_card
    intro typeName
    rw [canonical.direct.mem_iff, actionsFor_build]
    exact directActions_ne_nil
  case relatedTypes =>
    apply size_eq_card
    intro typeName
    rw [Std.ExtTreeMap.mem_iff_isSome_getElem?]
    exact isSome_groupsFor_build bindings typeName

end ActionIndex

end PolicyDiagram
