/-!
Policy documents: resource types, unions of them, declared actions, and the bindings that tie an
action to a type under conditions. Everything is kept in the order in which it was declared.
-/

namespace PolicyDiagram

structure Relationship where
  relation : String
  targets : List String
deriving DecidableEq, Repr, Inhabited

structure ResourceType where
  name : String
  idPrefix : String
  relationships : List Relationship
deriving DecidableEq, Repr, Inhabited

structure UnionType where
  name : String
  members : List String
deriving DecidableEq, Repr, Inhabited

structure Action where
  name : String
deriving DecidableEq, Repr, Inhabited

/-- Assignable through a role; the condition carries nothing else. -/
structure RoleBinding where
deriving DecidableEq, Repr, Inhabited

/-- Reachable through an action permitted on a related resource. -/
structure RelationshipAction where
  relation : String
  action : String
deriving DecidableEq, Repr, Inhabited

inductive Condition where
  | roleBinding (role : RoleBinding)
  | relationshipAction (via : RelationshipAction)
  /-- An entry that names no known kind of condition. -/
  | unrecognized
deriving DecidableEq, Repr, Inhabited

structure ActionBinding where
  typeName : String
  action : String
  conditions : List Condition
deriving DecidableEq, Repr, Inhabited

structure Document where
  resourceTypes : List ResourceType
  unions : List UnionType
  actions : List Action
  bindings : List ActionBinding
deriving DecidableEq, Repr, Inhabited

namespace Document

def empty : Document := ⟨[], [], [], []⟩

instance : EmptyCollection Document := ⟨empty⟩

def append (first second : Document) : Document where
  resourceTypes := first.resourceTypes ++ second.resourceTypes
  unions := first.unions ++ second.unions
  actions := first.actions ++ second.actions
  bindings := first.bindings ++ second.bindings

instance : Append Document := ⟨append⟩

def isEmpty (document : Document) : Bool :=
  document.resourceTypes.isEmpty && document.unions.isEmpty && document.actions.isEmpty &&
    document.bindings.isEmpty

/-! ## Laws -/

@[simp] theorem resourceTypes_append (first second : Document) :
    (first ++ second).resourceTypes = first.resourceTypes ++ second.resourceTypes := rfl

@[simp] theorem unions_append (first second : Document) :
    (first ++ second).unions = first.unions ++ second.unions := rfl

@[simp] theorem actions_append (first second : Document) :
    (first ++ second).actions = first.actions ++ second.actions := rfl

@[simp] theorem bindings_append (first second : Document) :
    (first ++ second).bindings = first.bindings ++ second.bindings := rfl

theorem ext_sections {first second : Document}
    (types : first.resourceTypes = second.resourceTypes) (unions : first.unions = second.unions)
    (actions : first.actions = second.actions) (bindings : first.bindings = second.bindings) :
    first = second := by
  cases first
  cases second
  simp_all

@[simp] theorem empty_append (document : Document) : ∅ ++ document = document := rfl

@[simp] theorem append_empty (document : Document) : document ++ ∅ = document := by
  apply ext_sections <;> exact List.append_nil _

theorem append_assoc (first second third : Document) :
    first ++ second ++ third = first ++ (second ++ third) := by
  apply ext_sections <;> exact List.append_assoc _ _ _

theorem isEmpty_iff {document : Document} : document.isEmpty = true ↔ document = ∅ := by
  constructor
  · intro h
    simp only [isEmpty, Bool.and_eq_true, List.isEmpty_iff] at h
    obtain ⟨⟨⟨types, unions⟩, actions⟩, bindings⟩ := h
    exact ext_sections types unions actions bindings
  · intro h
    subst h
    rfl

end Document

end PolicyDiagram
