import PolicyDiagram.Diagram.Index

/-! The relation groups of one type, against what they stand for: the pairs of a relation and an action
that were recorded, gathered by relation. The groups and the positions are two views of one ordered map;
`WellFormed` says how they hang together, and every recording keeps it. -/

namespace PolicyDiagram

/-- Pairs gathered by their first part, in the order in which first parts come up. -/
def gather (pairs : List (String × String)) : List (String × List String) :=
  (pairs.map Prod.fst).eraseDups.map fun relation =>
    (relation, pairs.filterMap fun pair => if pair.1 = relation then some pair.2 else none)

/-- One more action in the group of a relation. -/
def extendGroup (relation action : String) (group : String × List String) : String × List String :=
  if group.1 = relation then (group.1, group.2 ++ [action]) else group

theorem actions_concat (pairs : List (String × String)) (relation action name : String) :
    ((pairs ++ [(relation, action)]).filterMap fun p => if p.1 = name then some p.2 else none) =
      (pairs.filterMap fun p => if p.1 = name then some p.2 else none) ++
        if name = relation then [action] else [] := by
  by_cases same : name = relation
  · simp [same, List.filterMap_append]
  · simp [same, Ne.symm same, List.filterMap_append]

theorem actions_eq_nil {pairs : List (String × String)} {relation : String}
    (fresh : relation ∉ pairs.map Prod.fst) :
    (pairs.filterMap fun p => if p.1 = relation then some p.2 else none) = [] := by
  rw [List.filterMap_eq_nil_iff]
  intro pair member
  have different : pair.1 ≠ relation := by
    rintro rfl
    exact fresh (List.mem_map_of_mem member)
  exact if_neg different

theorem gather_concat (pairs : List (String × String)) (relation action : String) :
    gather (pairs ++ [(relation, action)]) =
      if relation ∈ pairs.map Prod.fst then (gather pairs).map (extendGroup relation action)
      else gather pairs ++ [(relation, [action])] := by
  unfold gather
  rw [List.map_append, List.eraseDups_append]
  simp only [actions_concat]
  -- A relation that has come up before keeps its place, and a new one is put at the end.
  split
  · rename_i seen
    have nothing : ([(relation, action)].map Prod.fst).removeAll (pairs.map Prod.fst) = [] := by
      simpa [List.removeAll] using seen
    rw [nothing, List.eraseDups_nil, List.append_nil, List.map_map]
    apply List.map_congr_left
    intro name _
    by_cases same : name = relation <;> simp [extendGroup, same]
  · rename_i fresh
    have alone : ([(relation, action)].map Prod.fst).removeAll (pairs.map Prod.fst) = [relation] := by
      simpa [List.removeAll] using fresh
    rw [alone, List.map_append]
    congr 1
    · apply List.map_congr_left
      intro name member
      have different : name ≠ relation := by
        rintro rfl
        exact fresh (List.mem_eraseDups.mp member)
      simp [different]
    · simp [List.eraseDups_cons, actions_eq_nil fresh]

namespace RelationGroups

/-- The positions say where each relation stands among the groups and know no other relation, and no
group is empty. -/
structure WellFormed (table : RelationGroups) : Prop where
  positions : ∀ (relation : String) (position : Nat),
    table.positions[relation]? = some position ↔ table.relations[position]? = some relation
  filled : ∀ group ∈ table.groups, group.2 ≠ []

theorem wellFormed_empty : WellFormed empty := by
  constructor <;> simp [empty, relations]

theorem WellFormed.position_unique {table : RelationGroups} (sound : table.WellFormed)
    {relation : String} {first second : Nat} (here : table.relations[first]? = some relation)
    (there : table.relations[second]? = some relation) : first = second := by
  have one := (sound.positions relation first).mpr here
  have two := (sound.positions relation second).mpr there
  exact Option.some.inj (one.symm.trans two)

theorem WellFormed.nodup_relations {table : RelationGroups} (sound : table.WellFormed) :
    table.relations.Nodup := by
  rw [List.Nodup, List.pairwise_iff_getElem]
  intro i j hi hj before same
  have where_i : table.relations[i]? = some table.relations[j] := by
    rw [List.getElem?_eq_getElem hi, same]
  have equal := sound.position_unique where_i (List.getElem?_eq_getElem hj)
  omega

theorem WellFormed.positions_eq_none {table : RelationGroups} (sound : table.WellFormed)
    {relation : String} : table.positions[relation]? = none ↔ relation ∉ table.relations := by
  rw [Option.eq_none_iff_forall_ne_some]
  constructor
  · intro unknown member
    obtain ⟨position, here⟩ := List.getElem?_of_mem member
    exact unknown position ((sound.positions relation position).mpr here)
  · intro absent position known
    exact absent (List.mem_of_getElem? ((sound.positions relation position).mp known))

/-- Changing the group at a relation's place is changing the group of the relation. -/
theorem WellFormed.modify_groups {table : RelationGroups} (sound : table.WellFormed)
    {relation : String} {position : Nat} (here : table.positions[relation]? = some position)
    (action : String) :
    (table.groups.modify position fun group => (group.1, group.2 ++ [action])) =
      table.groups.map (extendGroup relation action) := by
  apply List.ext_getElem?
  intro i
  rw [List.getElem?_modify, List.getElem?_map]
  cases found : table.groups[i]? with
  | none => simp
  | some group =>
    have named : table.relations[i]? = some group.1 := by
      rw [relations, List.getElem?_map, found, Option.map_some]
    have place := (sound.positions relation position).mp here
    by_cases same : position = i
    · subst same
      have : group.1 = relation := Option.some.inj (named.symm.trans place)
      simp [extendGroup, this]
    · have : group.1 ≠ relation := by
        rintro rfl
        exact same (sound.position_unique place named)
      simp [extendGroup, this, same]

theorem WellFormed.groups_push {table : RelationGroups} (sound : table.WellFormed)
    (relation action : String) :
    (table.push relation action).groups =
      if relation ∈ table.relations then table.groups.map (extendGroup relation action)
      else table.groups ++ [(relation, [action])] := by
  unfold push
  split
  · rename_i position here
    have known : relation ∈ table.relations := by
      have place := (sound.positions relation position).mp here
      exact List.mem_of_getElem? place
    rw [if_pos known]
    exact sound.modify_groups here action
  · rename_i unknown
    rw [if_neg (sound.positions_eq_none.mp unknown)]

@[simp] theorem fst_extendGroup (relation action : String) (group : String × List String) :
    (extendGroup relation action group).1 = group.1 := by
  unfold extendGroup
  split <;> rfl

theorem WellFormed.relations_push {table : RelationGroups} (sound : table.WellFormed)
    (relation action : String) :
    (table.push relation action).relations =
      if relation ∈ table.relations then table.relations else table.relations ++ [relation] := by
  have renamed : Prod.fst ∘ extendGroup relation action = Prod.fst := by
    funext group
    exact fst_extendGroup relation action group
  rw [relations, sound.groups_push]
  split
  · rw [List.map_map, renamed, relations]
  · rw [List.map_append, List.map_singleton, relations]

/-- A relation that is recorded for the first time stands behind all others. -/
theorem WellFormed.positions_insert {table : RelationGroups} (sound : table.WellFormed) {relation : String}
    (fresh : relation ∉ table.relations) (other : String) (position : Nat) :
    (table.positions.insert relation table.relations.length)[other]? = some position ↔
      (table.relations ++ [relation])[position]? = some other := by
  rw [Std.ExtTreeMap.getElem?_insert, List.getElem?_append]
  simp only [Std.LawfulEqCmp.compare_eq_iff_eq]
  by_cases same : relation = other
  · subst same
    rw [if_pos rfl, Option.some_inj]
    split
    · rename_i inside
      constructor
      · intro last
        omega
      · intro member
        exact absurd (List.mem_of_getElem? member) fresh
    · rw [List.getElem?_singleton]
      split <;> simp <;> omega
  · rw [if_neg same, sound.positions]
    split
    · rfl
    · rename_i outside
      have beyond : table.relations[position]? = none := List.getElem?_eq_none (Nat.le_of_not_lt outside)
      rw [beyond, List.getElem?_singleton]
      split <;> simp [same]

theorem WellFormed.push {table : RelationGroups} (sound : table.WellFormed)
    (relation action : String) : (table.push relation action).WellFormed where
  positions := by
    intro other position
    -- A known relation leaves the positions alone, and a new one takes the position behind the last.
    rw [sound.relations_push]
    unfold RelationGroups.push
    split
    · rename_i place here
      have known := List.mem_of_getElem? ((sound.positions relation place).mp here)
      rw [if_pos known]
      exact sound.positions other position
    · rename_i unknown
      have fresh := sound.positions_eq_none.mp unknown
      have count : table.relations.length = table.groups.length := List.length_map _
      rw [if_neg fresh, ← count]
      exact sound.positions_insert fresh other position
  filled := by
    intro group member
    rw [sound.groups_push] at member
    split at member
    · obtain ⟨old, inside, rfl⟩ := List.mem_map.mp member
      unfold extendGroup
      split
      · simp
      · exact sound.filled old inside
    · rcases List.mem_append.mp member with inside | new
      · exact sound.filled group inside
      · cases List.mem_singleton.mp new
        simp

theorem mem_relations_of_gather {table : RelationGroups} {pairs : List (String × String)}
    (gathered : table.groups = gather pairs) {relation : String} :
    relation ∈ table.relations ↔ relation ∈ pairs.map Prod.fst := by
  rw [relations, gathered, gather, List.map_map]
  simp [Function.comp_def]

/-- The table of a history of recordings. -/
def ofPairs (pairs : List (String × String)) : RelationGroups :=
  pairs.foldl (fun table pair => table.push pair.1 pair.2) empty

theorem ofPairs_concat (pairs : List (String × String)) (relation action : String) :
    ofPairs (pairs ++ [(relation, action)]) = (ofPairs pairs).push relation action := by
  simp [ofPairs, List.foldl_append]

/-- Every history leads to a well-formed table, whose groups are the recorded pairs, gathered. -/
theorem ofPairs_spec (pairs : List (String × String)) :
    (ofPairs pairs).WellFormed ∧ (ofPairs pairs).groups = gather pairs := by
  -- from the right, since a recording comes on top of those before it
  rw [← List.reverse_reverse pairs]
  induction pairs.reverse with
  | nil => exact ⟨wellFormed_empty, rfl⟩
  | cons pair earlier ih =>
    obtain ⟨sound, groups⟩ := ih
    rw [List.reverse_cons, ofPairs_concat]
    refine ⟨sound.push pair.1 pair.2, ?_⟩
    rw [sound.groups_push, groups, gather_concat]
    simp only [mem_relations_of_gather groups]

theorem wellFormed_ofPairs (pairs : List (String × String)) : (ofPairs pairs).WellFormed :=
  (ofPairs_spec pairs).1

theorem groups_ofPairs (pairs : List (String × String)) : (ofPairs pairs).groups = gather pairs :=
  (ofPairs_spec pairs).2

end RelationGroups

end PolicyDiagram
