import PolicyDiagram.Policy.Document
import PolicyDiagram.Data.Shape

/-!
How policy documents are laid out as data. Every field may be left out, and names of several words may be in camel
case. A condition is written as an entry with one key for its kind; an entry is read as the list of the
conditions whose keys it has.
-/

namespace PolicyDiagram

open Data (Shape Fields)

def Relationship.shape : Shape Relationship :=
  .record "Relationship" ⟨"", []⟩
    (.field "relation" [] .defaulted .text Relationship.relation
        (fun relation r => { r with relation }) <|
      .field "target_type_names" ["targetTypeNames"] .defaulted (.list .text) Relationship.targets
        (fun targets r => { r with targets }) <|
      .done)

def ResourceType.shape : Shape ResourceType :=
  .record "ResourceType" ⟨"", "", []⟩
    (.field "name" [] .defaulted .text ResourceType.name (fun name r => { r with name }) <|
      .field "id_prefix" ["idPrefix"] .defaulted .text ResourceType.idPrefix
        (fun idPrefix r => { r with idPrefix }) <|
      .field "relationships" [] .defaulted (.list Relationship.shape) ResourceType.relationships
        (fun relationships r => { r with relationships }) <|
      .done)

def UnionType.shape : Shape UnionType :=
  .record "Union" ⟨"", []⟩
    (.field "name" [] .defaulted .text UnionType.name (fun name u => { u with name }) <|
      .field "resource_type_names" ["resourceTypeNames"] .defaulted (.list .text) UnionType.members
        (fun members u => { u with members }) <|
      .done)

def Action.shape : Shape Action :=
  .record "Action" ⟨""⟩
    (.field "name" [] .defaulted .text Action.name (fun name a => { a with name }) .done)

def RoleBinding.shape : Shape RoleBinding := .record "RoleBindingCondition" ⟨⟩ .done

def RelationshipAction.shape : Shape RelationshipAction :=
  .record "RelationshipActionCondition" ⟨"", ""⟩
    (.field "relation" [] .defaulted .text RelationshipAction.relation
        (fun relation a => { a with relation }) <|
      .field "action_name" ["actionName"] .defaulted .text RelationshipAction.action
        (fun action a => { a with action }) <|
      .done)

structure ConditionEntry where
  role : Option RoleBinding
  via : Option RelationshipAction
deriving DecidableEq, Repr, Inhabited

namespace ConditionEntry

def shape : Shape ConditionEntry :=
  .record "ConditionEntry" ⟨none, none⟩
    (.field "role_binding" ["roleBinding"] .elided (.optional RoleBinding.shape) ConditionEntry.role
        (fun role e => { e with role }) <|
      .field "relationship_action" ["relationshipAction"] .elided
        (.optional RelationshipAction.shape) ConditionEntry.via (fun via e => { e with via }) <|
      .done)

/-- The role binding comes first; an entry that carries no condition is one unrecognized condition. -/
def conditions (entry : ConditionEntry) : List Condition :=
  match entry.role, entry.via with
  | none, none => [.unrecognized]
  | role, via =>
    role.toList.map Condition.roleBinding ++ via.toList.map Condition.relationshipAction

def ofCondition : Condition → ConditionEntry
  | .roleBinding role => ⟨some role, none⟩
  | .relationshipAction via => ⟨none, some via⟩
  | .unrecognized => ⟨none, none⟩

end ConditionEntry

def conditionsOf (entries : Option (List ConditionEntry)) : List Condition :=
  (entries.getD []).flatMap ConditionEntry.conditions

def conditionsShape : Shape (List Condition) :=
  .via (.optional (.list ConditionEntry.shape)) conditionsOf
    fun conditions => some (conditions.map ConditionEntry.ofCondition)

def ActionBinding.shape : Shape ActionBinding :=
  .record "ActionBinding" ⟨"", "", []⟩
    (.field "type_name" ["typeName"] .defaulted .text ActionBinding.typeName
        (fun typeName b => { b with typeName }) <|
      .field "action_name" ["actionName"] .defaulted .text ActionBinding.action
        (fun action b => { b with action }) <|
      .field "conditions" [] .defaulted conditionsShape ActionBinding.conditions
        (fun conditions b => { b with conditions }) <|
      .done)

def Document.shape : Shape Document :=
  .record "PolicyDocument" .empty
    (.field "resource_types" ["resourceTypes"] .defaulted (.list ResourceType.shape)
        Document.resourceTypes (fun resourceTypes d => { d with resourceTypes }) <|
      .field "unions" [] .defaulted (.list UnionType.shape) Document.unions
        (fun unions d => { d with unions }) <|
      .field "actions" [] .defaulted (.list Action.shape) Document.actions
        (fun actions d => { d with actions }) <|
      .field "action_bindings" ["actionBindings"] .defaulted (.list ActionBinding.shape)
        Document.bindings (fun bindings d => { d with bindings }) <|
      .done)

end PolicyDiagram
