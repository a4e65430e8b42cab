import PolicyDiagram.Proofs.Index.Exact

/-! The groups of a type are reached through positions that are kept beside them. Here a position that leads past
the groups is a failure, for looking up and for recording alike, and no history of recordings comes to one: the
positions of every table are those of its groups, so that looking a relation up is as good as going through the
groups. -/

namespace PolicyDiagram.RelationGroups

/-- A position that leads past the groups. -/
structure Stray where
  position : Nat
deriving DecidableEq, Repr

def groupAt (table : RelationGroups) (position : Nat) : Except Stray (String × List String) :=
  match table.groups[position]? with
  | some group => .ok group
  | none => .error ⟨position⟩

/-- As `get?`, but a stray position is a failure. -/
def getChecked (table : RelationGroups) (relation : String) : Except Stray (Option (List String)) :=
  match table.positions[relation]? with
  | some position => do
    let group ← table.groupAt position
    return some group.2
  | none => return none

/-- Puts an action into the group at a position. -/
def appendAt (table : RelationGroups) (position : Nat) (action : String) : Except Stray RelationGroups := do
  let group ← table.groupAt position
  return { table with groups := table.groups.set position (group.1, group.2 ++ [action]) }

/-- Opens an empty group of a relation at the end. -/
def opened (table : RelationGroups) (relation : String) : RelationGroups where
  groups := table.groups ++ [(relation, [])]
  positions := table.positions.insert relation table.groups.length

/-- As `push`, in two steps: the group is opened if need be, and then reached by its position. -/
def pushChecked (table : RelationGroups) (relation action : String) : Except Stray RelationGroups :=
  match table.positions[relation]? with
  | some position => table.appendAt position action
  | none => (table.opened relation).appendAt table.groups.length action

theorem groupAt_of_getElem? {table : RelationGroups} {position : Nat} {group : String × List String}
    (here : table.groups[position]? = some group) : table.groupAt position = .ok group := by
  rw [groupAt, here]

theorem appendAt_of_getElem? {table : RelationGroups} {position : Nat} {group : String × List String}
    (here : table.groups[position]? = some group) (action : String) :
    table.appendAt position action =
      .ok { table with groups := table.groups.set position (group.1, group.2 ++ [action]) } := by
  rw [appendAt, groupAt_of_getElem? here]
  rfl

theorem WellFormed.getElem?_groups {table : RelationGroups} (sound : table.WellFormed) {relation : String}
    {position : Nat} (known : table.positions[relation]? = some position) :
    ∃ actions, table.groups[position]? = some (relation, actions) := by
  have named := (sound.positions relation position).mp known
  rw [relations, List.getElem?_map, Option.map_eq_some_iff] at named
  obtain ⟨⟨_, actions⟩, here, rfl⟩ := named
  exact ⟨actions, here⟩

theorem WellFormed.getChecked_eq {table : RelationGroups} (sound : table.WellFormed) (relation : String) :
    table.getChecked relation = .ok (table.get? relation) := by
  unfold getChecked get?
  cases known : table.positions[relation]? with
  | none => rfl
  | some position =>
    obtain ⟨actions, here⟩ := sound.getElem?_groups known
    rw [Option.bind_some, here]
    dsimp only
    rw [groupAt_of_getElem? here]
    rfl

theorem WellFormed.pushChecked_eq {table : RelationGroups} (sound : table.WellFormed)
    (relation action : String) : table.pushChecked relation action = .ok (table.push relation action) := by
  unfold pushChecked RelationGroups.push
  cases known : table.positions[relation]? with
  | some position =>
    obtain ⟨actions, here⟩ := sound.getElem?_groups known
    dsimp only
    rw [appendAt_of_getElem? here, List.modify_eq_set_getElem?, here]
    rfl
  | none =>
    have last : (table.opened relation).groups[table.groups.length]? = some (relation, []) := by
      simp [opened]
    dsimp only
    rw [appendAt_of_getElem? last]
    simp [opened]

theorem lookup_eq_some_iff_mem {β : Type} {entries : List (String × β)}
    (once : (entries.map Prod.fst).Nodup) {key : String} {value : β} :
    entries.lookup key = some value ↔ (key, value) ∈ entries := by
  induction entries with
  | nil => simp
  | cons entry rest ih =>
    obtain ⟨name, first⟩ := entry
    rw [List.map_cons, List.nodup_cons] at once
    obtain ⟨fresh, once⟩ := once
    by_cases same : key = name
    · subst same
      have elsewhere : (key, value) ∉ rest := by
        intro member
        exact fresh (List.mem_map.mpr ⟨_, member, rfl⟩)
      simp [elsewhere, eq_comm]
    · have different : (key == name) = false := by simpa using same
      simp [List.lookup_cons, different, ih once, same]

theorem WellFormed.get?_eq_lookup {table : RelationGroups} (sound : table.WellFormed) (relation : String) :
    table.get? relation = table.groups.lookup relation := by
  apply Option.ext
  intro actions
  rw [sound.get?_eq_some_iff, lookup_eq_some_iff_mem sound.nodup_relations]

theorem size_ofPairs (pairs : List (String × String)) :
    (ofPairs pairs).size = (pairs.map Prod.fst).toFinset.card := by
  have same : (ofPairs pairs).relations.toFinset = (pairs.map Prod.fst).toFinset := by
    ext relation
    rw [List.mem_toFinset, List.mem_toFinset, mem_relations_of_gather (groups_ofPairs pairs)]
  rw [← same, List.toFinset_card_of_nodup (wellFormed_ofPairs pairs).nodup_relations, relations,
    List.length_map, size]

theorem foldlM_pushChecked {table : RelationGroups} (sound : table.WellFormed)
    (pairs : List (String × String)) :
    pairs.foldlM (fun table pair => table.pushChecked pair.1 pair.2) table =
      .ok (pairs.foldl (fun table pair => table.push pair.1 pair.2) table) := by
  induction pairs generalizing table with
  | nil => rfl
  | cons pair rest ih =>
    rw [List.foldlM_cons, List.foldl_cons, sound.pushChecked_eq]
    exact ih (sound.push pair.1 pair.2)

/-- A table stands for a history of recordings. -/
structure Represents (table : RelationGroups) (history : List (String × String)) : Prop where
  distinct : table.relations.Nodup
  positions : ∀ (relation : String) (position : Nat),
    table.positions[relation]? = some position ↔ table.relations[position]? = some relation
  filled : ∀ group ∈ table.groups, group.2 ≠ []
  gathered : table.groups = gather history
  gets : ∀ relation, table.getChecked relation = .ok (table.get? relation)
  pushes : ∀ relation action, table.pushChecked relation action = .ok (table.push relation action)
  replayed : history.foldlM (fun table pair => table.pushChecked pair.1 pair.2) empty = .ok table
  searched : ∀ relation, table.get? relation = table.groups.lookup relation
  counted : table.size = (history.map Prod.fst).toFinset.card

theorem represents_ofPairs (history : List (String × String)) : (ofPairs history).Represents history := by
  have sound := wellFormed_ofPairs history
  constructor
  case distinct => exact sound.nodup_relations
  case positions => exact sound.positions
  case filled => exact sound.filled
  case gathered => exact groups_ofPairs history
  case gets => exact sound.getChecked_eq
  case pushes => exact sound.pushChecked_eq
  case replayed => exact foldlM_pushChecked wellFormed_empty history
  case searched => exact sound.get?_eq_lookup
  case counted => exact size_ofPairs history

example : (ofPairs [("parent", "a"), ("member", "b"), ("parent", "c")]).groups =
    [("parent", ["a", "c"]), ("member", ["b"])] := by decide +kernel

end PolicyDiagram.RelationGroups
