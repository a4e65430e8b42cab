import PolicyDiagram.Proofs.Index.Positions

/-! The numbers of entries that an index reports. Recording a clause adds one entry where it grants something, and
nothing anywhere else, so the entries of an index of bindings are as many as the conditions that grant one. -/

namespace PolicyDiagram

section Maps

variable {α β : Type} {map : Std.ExtTreeMap String β} {key : String}

theorem nodup_toList (map : Std.ExtTreeMap String β) : map.toList.Nodup := by
  apply List.Nodup.of_map Prod.fst
  rw [Std.ExtTreeMap.map_fst_toList_eq_keys]
  exact Std.ExtTreeMap.nodup_keys

theorem toList_perm_erase {value : β} (found : map[key]? = some value) :
    map.toList.Perm ((key, value) :: (map.erase key).toList) := by
  have apart : (key, value) ∉ (map.erase key).toList := by
    rw [Std.ExtTreeMap.mem_toList_iff_getElem?_eq_some, Std.ExtTreeMap.getElem?_erase]
    simp
  rw [List.perm_ext_iff_of_nodup (nodup_toList map) (List.nodup_cons.mpr ⟨apart, nodup_toList _⟩)]
  rintro ⟨other, part⟩
  rw [List.mem_cons, Std.ExtTreeMap.mem_toList_iff_getElem?_eq_some,
    Std.ExtTreeMap.mem_toList_iff_getElem?_eq_some, Std.ExtTreeMap.getElem?_erase]
  by_cases same : key = other
  · subst same
    simp [found, eq_comm]
  · simp [same, Ne.symm same]

theorem erase_alter (map : Std.ExtTreeMap String β) (key : String) (change : Option β → Option β) :
    (map.alter key change).erase key = map.erase key := by
  apply Std.ExtTreeMap.ext_getElem?
  intro other
  rw [Std.ExtTreeMap.getElem?_erase, Std.ExtTreeMap.getElem?_erase, Std.ExtTreeMap.getElem?_alter]
  split <;> rfl

theorem erase_of_none (absent : map[key]? = none) : map.erase key = map := by
  apply Std.ExtTreeMap.ext_getElem?
  intro other
  rw [Std.ExtTreeMap.getElem?_erase]
  split
  · rename_i same
    cases Std.LawfulEqCmp.compare_eq_iff_eq.mp same
    exact absent.symm
  · rfl

/-- How many items the entries of a map hold. -/
def itemCount (items : β → List α) (map : Std.ExtTreeMap String β) : Nat :=
  (map.toList.flatMap fun entry => items entry.2).length

theorem itemCount_empty (items : β → List α) : itemCount items ∅ = 0 := by
  have none : (∅ : Std.ExtTreeMap String β).toList = [] := List.eq_nil_of_length_eq_zero (by simp)
  rw [itemCount, none]
  rfl

theorem itemCount_eq_add {items : β → List α} {value : β} (found : map[key]? = some value) :
    itemCount items map = (items value).length + itemCount items (map.erase key) := by
  have split := (toList_perm_erase found).flatMap_right fun entry => items entry.2
  rw [itemCount, split.length_eq, List.flatMap_cons, List.length_append]
  rfl

/-- An entry that gets so many more items adds so many to the items of the map. -/
theorem itemCount_alter (items : β → List α) {change : Option β → Option β} {value : β} {more : Nat}
    (changed : change map[key]? = some value)
    (grown : (items value).length = (map[key]?.elim 0 fun old => (items old).length) + more) :
    itemCount items (map.alter key change) = itemCount items map + more := by
  have found : (map.alter key change)[key]? = some value := by
    rw [Std.ExtTreeMap.getElem?_alter, if_pos (Std.LawfulEqCmp.compare_eq_iff_eq.mpr rfl), changed]
  rw [itemCount_eq_add found, erase_alter, grown]
  cases before : map[key]? with
  | none =>
    rw [erase_of_none before, Option.elim_none]
    omega
  | some old =>
    rw [itemCount_eq_add before, Option.elim_some]
    omega

end Maps

/-! ## One recording -/

theorem DirectIndex.entryCount_push (index : DirectIndex) (typeName action : String) :
    (index.push typeName action).entryCount = index.entryCount + 1 := by
  apply itemCount_alter id rfl
  cases index.actions[typeName]? <;> simp

/-- As many actions as before, and one more, in whatever group it is. -/
theorem RelationGroups.WellFormed.length_actions_push {table : RelationGroups} (sound : table.WellFormed)
    (relation action : String) :
    (table.push relation action).actions.length = table.actions.length + 1 := by
  unfold RelationGroups.push
  cases known : table.positions[relation]? with
  | none => simp [actions]
  | some position =>
    obtain ⟨before, here⟩ := sound.getElem?_groups known
    obtain ⟨inside, same⟩ := List.getElem?_eq_some_iff.mp here
    have split : table.groups = table.groups.take position ++ (relation, before) ::
        table.groups.drop (position + 1) := by
      rw [← same, List.getElem_cons_drop, List.take_append_drop]
    have changed : (table.groups.modify position fun group => (group.1, group.2 ++ [action])) =
        table.groups.take position ++ (relation, before ++ [action]) ::
          table.groups.drop (position + 1) := by
      rw [List.modify_eq_take_cons_drop inside, same]
    dsimp only [actions]
    rw [changed]
    conv_rhs => rw [split]
    simp only [List.flatMap_append, List.flatMap_cons, List.length_append, List.length_singleton]
    omega

theorem RelatedIndex.Filled.entryCount_push {index : RelatedIndex} (filled : index.Filled)
    (typeName relation action : String) :
    (index.push typeName relation action).entryCount = index.entryCount + 1 := by
  apply itemCount_alter RelationGroups.actions rfl
  have sound := filled.wellFormed typeName
  unfold groupsFor at sound
  rw [sound.length_actions_push]
  cases index.byType[typeName]? <;> rfl

/-! ## All recordings -/

/-- The conditions of bindings, in document order. -/
def allConditions (bindings : List ActionBinding) : List Condition := bindings.flatMap ActionBinding.conditions

theorem map_condition_clauses (bindings : List ActionBinding) :
    (clauses bindings).map Clause.condition = allConditions bindings := by
  simp [clauses, allConditions, List.map_flatMap, Function.comp_def]

namespace ActionIndex

/-- An index has one entry for each clause that grants something. -/
structure Counts (index : ActionIndex) (seen : List Clause) : Prop where
  direct : index.direct.entryCount = seen.countP (·.condition.isRoleBinding)
  related : index.related.entryCount = seen.countP (·.condition.isRelationshipAction)

theorem counts_empty : empty.Counts [] := ⟨itemCount_empty id, itemCount_empty RelationGroups.actions⟩

theorem Counts.recordClause {index : ActionIndex} {seen : List Clause} (counts : index.Counts seen)
    (canonical : index.Canonical) (clause : Clause) :
    (index.recordClause clause).Counts (seen ++ [clause]) := by
  obtain ⟨typeName, action, condition⟩ := clause
  constructor
  · rw [List.countP_append, ← counts.direct]
    cases condition with
    | roleBinding role => exact index.direct.entryCount_push typeName action
    | relationshipAction via => rfl
    | unrecognized => rfl
  · rw [List.countP_append, ← counts.related]
    cases condition with
    | roleBinding role => rfl
    | relationshipAction via =>
      exact canonical.related.entryCount_push typeName via.relation via.action
    | unrecognized => rfl

theorem Counts.foldl {index : ActionIndex} {seen : List Clause} (counts : index.Counts seen)
    (canonical : index.Canonical) (more : List Clause) :
    (more.foldl ActionIndex.recordClause index).Counts (seen ++ more) := by
  induction more generalizing index seen with
  | nil => simpa using counts
  | cons clause rest ih =>
    have next := ih (counts.recordClause canonical clause) (canonical.recordClause clause)
    rwa [List.append_assoc, List.singleton_append] at next

theorem counts_build (bindings : List ActionBinding) : (build bindings).Counts (clauses bindings) := by
  rw [build_eq_foldl_clauses]
  exact counts_empty.foldl canonical_empty (clauses bindings)

theorem direct_entryCount_build (bindings : List ActionBinding) :
    (build bindings).direct.entryCount = (allConditions bindings).countP Condition.isRoleBinding := by
  rw [(counts_build bindings).direct, ← map_condition_clauses, List.countP_map]
  rfl

theorem related_entryCount_build (bindings : List ActionBinding) :
    (build bindings).related.entryCount =
      (allConditions bindings).countP Condition.isRelationshipAction := by
  rw [(counts_build bindings).related, ← map_condition_clauses, List.countP_map]
  rfl

end ActionIndex

theorem countP_kinds (conditions : List Condition) :
    conditions.countP Condition.isRoleBinding + conditions.countP Condition.isRelationshipAction +
      conditions.count .unrecognized = conditions.length := by
  induction conditions with
  | nil => rfl
  | cons condition rest ih =>
    rw [List.countP_cons, List.countP_cons, List.count_cons, List.length_cons, ← ih]
    cases condition <;> grind [Condition.isRoleBinding, Condition.isRelationshipAction]

end PolicyDiagram
