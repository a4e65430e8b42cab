import Std.Data.ExtTreeMap
import PolicyDiagram.Policy.Document

/-!
Look-up tables from type names to the actions bound on them. Related actions are grouped by relation, in the order
in which a type first mentions each relation. The tables are maps that are equal when they have the same entries,
so no trace of the order in which types were met is left in them.
-/

namespace PolicyDiagram

def appended {α : Type} (value : α) (old : Option (List α)) : Option (List α) :=
  some (old.getD [] ++ [value])

structure DirectIndex where
  actions : Std.ExtTreeMap String (List String)
deriving DecidableEq

namespace DirectIndex

def empty : DirectIndex := ⟨∅⟩

def actionsFor (index : DirectIndex) (typeName : String) : List String :=
  index.actions[typeName]?.getD []

def typeCount (index : DirectIndex) : Nat := index.actions.size

def entryCount (index : DirectIndex) : Nat :=
  (index.actions.toList.flatMap Prod.snd).length

def push (index : DirectIndex) (typeName action : String) : DirectIndex :=
  ⟨index.actions.alter typeName (appended action)⟩

theorem actionsFor_push (index : DirectIndex) (typeName action other : String) :
    (index.push typeName action).actionsFor other =
      if typeName = other then index.actionsFor typeName ++ [action] else index.actionsFor other := by
  simp only [push, actionsFor, Std.ExtTreeMap.getElem?_alter, Std.LawfulEqCmp.compare_eq_iff_eq]
  split <;> rfl

end DirectIndex

/-- Groups in first-seen order, and where each relation's group is. -/
structure RelationGroups where
  groups : List (String × List String)
  positions : Std.ExtTreeMap String Nat
deriving DecidableEq

namespace RelationGroups

def empty : RelationGroups := ⟨[], ∅⟩

def get? (table : RelationGroups) (relation : String) : Option (List String) :=
  table.positions[relation]?.bind fun position => (table.groups[position]?).map Prod.snd

def relations (table : RelationGroups) : List String := table.groups.map Prod.fst

def size (table : RelationGroups) : Nat := table.groups.length

def isEmpty (table : RelationGroups) : Bool := table.groups.isEmpty

def actions (table : RelationGroups) : List String := table.groups.flatMap Prod.snd

def push (table : RelationGroups) (relation action : String) : RelationGroups :=
  match table.positions[relation]? with
  | some position =>
    { table with groups := table.groups.modify position fun group => (group.1, group.2 ++ [action]) }
  | none =>
    { groups := table.groups ++ [(relation, [action])]
      positions := table.positions.insert relation table.groups.length }

end RelationGroups

structure RelatedIndex where
  byType : Std.ExtTreeMap String RelationGroups
deriving DecidableEq

namespace RelatedIndex

def empty : RelatedIndex := ⟨∅⟩

def groupsFor (index : RelatedIndex) (typeName : String) : Option RelationGroups :=
  index.byType[typeName]?

def actionsFor (index : RelatedIndex) (typeName relation : String) : List String :=
  ((index.groupsFor typeName).bind (·.get? relation)).getD []

def typeCount (index : RelatedIndex) : Nat := index.byType.size

def entryCount (index : RelatedIndex) : Nat :=
  (index.byType.toList.flatMap fun entry => entry.2.actions).length

def push (index : RelatedIndex) (typeName relation action : String) : RelatedIndex :=
  ⟨index.byType.alter typeName fun old => some ((old.getD .empty).push relation action)⟩

theorem groupsFor_push (index : RelatedIndex) (typeName relation action other : String) :
    (index.push typeName relation action).groupsFor other =
      if typeName = other then
        some (((index.groupsFor typeName).getD .empty).push relation action)
      else index.groupsFor other := by
  simp only [push, groupsFor, Std.ExtTreeMap.getElem?_alter, Std.LawfulEqCmp.compare_eq_iff_eq]

end RelatedIndex

structure ActionIndex where
  direct : DirectIndex
  related : RelatedIndex
deriving DecidableEq

namespace ActionIndex

def empty : ActionIndex := ⟨.empty, .empty⟩

/-- An unrecognized condition grants nothing. -/
def record (index : ActionIndex) (typeName action : String) : Condition → ActionIndex
  | .roleBinding _ => { index with direct := index.direct.push typeName action }
  | .relationshipAction via =>
    { index with related := index.related.push typeName via.relation via.action }
  | .unrecognized => index

def recordBinding (index : ActionIndex) (binding : ActionBinding) : ActionIndex :=
  binding.conditions.foldl (·.record binding.typeName binding.action) index

def build (bindings : List ActionBinding) : ActionIndex :=
  bindings.foldl recordBinding empty

end ActionIndex

end PolicyDiagram
