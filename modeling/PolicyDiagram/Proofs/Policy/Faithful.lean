import PolicyDiagram.Policy.Shapes
import PolicyDiagram.Proofs.Data.Verbal

/-! What is written for a policy document determines it. -/

namespace PolicyDiagram

open Data (Shape Fields isElided)

theorem conditions_ofCondition (condition : Condition) :
    (ConditionEntry.ofCondition condition).conditions = [condition] := by
  cases condition <;> rfl

theorem conditionsOf_entries (conditions : List Condition) :
    conditionsOf (some (conditions.map ConditionEntry.ofCondition)) = conditions := by
  simp [conditionsOf, List.flatMap_map, conditions_ofCondition]

theorem relationship_recovers (r : Relationship) : Relationship.shape.Recovers r := by
  simp [Relationship.shape, Fields.Distinct, isElided]

theorem resourceType_recovers (r : ResourceType) : ResourceType.shape.Recovers r := by
  simp [ResourceType.shape, Fields.Distinct, isElided, relationship_recovers]

theorem unionType_recovers (u : UnionType) : UnionType.shape.Recovers u := by
  simp [UnionType.shape, Fields.Distinct, isElided]

theorem action_recovers (a : Action) : Action.shape.Recovers a := by
  simp [Action.shape, Fields.Distinct, isElided]

theorem conditionEntry_recovers (e : ConditionEntry) : ConditionEntry.shape.Recovers e := by
  obtain ⟨role, via⟩ := e
  cases role <;> cases via <;>
    simp [ConditionEntry.shape, Fields.Distinct, isElided, Shape.write, RoleBinding.shape,
      RelationshipAction.shape, Data.Tree.isNull]

theorem conditions_recover (conditions : List Condition) :
    conditionsShape.Recovers conditions := by
  simp [conditionsShape, conditionsOf_entries, conditionEntry_recovers, Shape.write]

theorem actionBinding_recovers (b : ActionBinding) : ActionBinding.shape.Recovers b := by
  simp [ActionBinding.shape, Fields.Distinct, isElided, conditions_recover]

theorem Document.shape_recovers (d : Document) : Document.shape.Recovers d := by
  simp [Document.shape, Fields.Distinct, isElided, resourceType_recovers, unionType_recovers,
    action_recovers, actionBinding_recovers]

theorem Document.shape_verbal : Document.shape.Verbal := by
  simp only [Document.shape, ResourceType.shape, Relationship.shape, UnionType.shape, Action.shape,
    ActionBinding.shape, conditionsShape, ConditionEntry.shape, RoleBinding.shape,
    RelationshipAction.shape, Shape.Verbal, Fields.Verbal]
  decide

end PolicyDiagram
