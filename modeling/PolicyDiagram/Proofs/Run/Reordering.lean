import Mathlib.Data.List.Perm.Basic
import PolicyDiagram.Proofs.Index.Canonical
import PolicyDiagram.Proofs.Run.Splitting

/-! What order does not matter. An action is looked up by the type it is bound on, so bindings on different types
may change places, and with them fragments that have nothing else in common. -/

namespace PolicyDiagram

/-- The bindings on one type, in their order. -/
def bindingsOn (typeName : String) (bindings : List ActionBinding) : List ActionBinding :=
  bindings.filter (·.typeName = typeName)

/-- The second list is a reordering of the first one that keeps the order of the bindings on each type. -/
def SameOrder (first second : List ActionBinding) : Prop :=
  ∀ typeName, bindingsOn typeName first = bindingsOn typeName second

theorem SameOrder.perm {first second : List ActionBinding} (order : SameOrder first second) :
    first.Perm second := by
  rw [List.perm_iff_count]
  intro binding
  have counted : ∀ bindings : List ActionBinding,
      (bindingsOn binding.typeName bindings).count binding = bindings.count binding := by
    intro bindings
    apply List.count_filter
    exact decide_eq_true rfl
  calc first.count binding = (bindingsOn binding.typeName first).count binding := (counted first).symm
    _ = (bindingsOn binding.typeName second).count binding := by rw [order]
    _ = second.count binding := counted second

theorem scan_bindingsOn {β : Type} {find : Clause → Option β} {typeName : String}
    (elsewhere : ∀ clause : Clause, clause.typeName ≠ typeName → find clause = none)
    (bindings : List ActionBinding) :
    (clauses (bindingsOn typeName bindings)).filterMap find = (clauses bindings).filterMap find := by
  induction bindings with
  | nil => rfl
  | cons binding rest ih =>
    have front : clauses (binding :: rest) = clauses [binding] ++ clauses rest :=
      clauses_append [binding] rest
    unfold bindingsOn
    by_cases here : binding.typeName = typeName
    · have kept : (binding :: rest).filter (fun b => b.typeName = typeName) =
          [binding] ++ bindingsOn typeName rest := by simp [bindingsOn, here]
      rw [kept, clauses_append, front, List.filterMap_append, List.filterMap_append, ih]
    · have dropped : (binding :: rest).filter (fun b => b.typeName = typeName) =
          bindingsOn typeName rest := by simp [bindingsOn, here]
      -- All clauses of a binding are on the type of the binding.
      have nothing : (clauses [binding]).filterMap find = [] := by
        rw [List.filterMap_eq_nil_iff]
        intro clause member
        apply elsewhere
        have same : clause.typeName = binding.typeName := by
          obtain ⟨_, _, rfl⟩ := List.mem_map.mp (by simpa [clauses] using member)
          rfl
        rwa [same]
      rw [dropped, front, List.filterMap_append, nothing, ih, List.nil_append]

theorem SameOrder.directActions {first second : List ActionBinding} (order : SameOrder first second)
    (typeName : String) : directActions first typeName = PolicyDiagram.directActions second typeName := by
  have elsewhere : ∀ clause : Clause, clause.typeName ≠ typeName → clause.direct? typeName = none := by
    intro clause other
    unfold Clause.direct?
    split <;> simp [other]
  unfold PolicyDiagram.directActions
  rw [← scan_bindingsOn elsewhere, order typeName, scan_bindingsOn elsewhere]

theorem SameOrder.relatedActions {first second : List ActionBinding} (order : SameOrder first second)
    (typeName : String) : relatedActions first typeName = PolicyDiagram.relatedActions second typeName := by
  have elsewhere : ∀ clause : Clause, clause.typeName ≠ typeName → clause.related? typeName = none := by
    intro clause other
    unfold Clause.related?
    split <;> simp [other]
  unfold PolicyDiagram.relatedActions
  rw [← scan_bindingsOn elsewhere, order typeName, scan_bindingsOn elsewhere]

theorem SameOrder.build {first second : List ActionBinding} (order : SameOrder first second) :
    ActionIndex.build first = ActionIndex.build second :=
  ActionIndex.build_eq_of_scans order.directActions order.relatedActions

namespace Document

/-- No run tells the documents apart: they have the same index, the same diagram and the same counts. -/
structure Indistinct (first second : Document) : Prop where
  index : ActionIndex.build first.bindings = ActionIndex.build second.bindings
  diagram : Diagram.ofDocument first = Diagram.ofDocument second
  statistics : ∀ fragmentCount, Statistics.collect fragmentCount first (.build first.bindings) =
    Statistics.collect fragmentCount second (.build second.bindings)

theorem indistinct_of_sameOrder {first second : Document}
    (resourceTypes : first.resourceTypes = second.resourceTypes)
    (unions : first.unions = second.unions) (actions : first.actions.length = second.actions.length)
    (order : SameOrder first.bindings second.bindings) : Indistinct first second := by
  have index := order.build
  constructor
  · exact index
  · unfold Diagram.ofDocument
    rw [index, resourceTypes, unions]
  · intro fragmentCount
    unfold Statistics.collect
    rw [index, resourceTypes, unions, actions, order.perm.length_eq]

/-- Two fragments that declare different things: types in one of them at most, unions in one of them at most,
and bindings on different types. -/
structure Independent (first second : Document) : Prop where
  resourceTypes : first.resourceTypes = [] ∨ second.resourceTypes = []
  unions : first.unions = [] ∨ second.unions = []
  bindings : ∀ binding ∈ first.bindings, ∀ other ∈ second.bindings, binding.typeName ≠ other.typeName

theorem append_comm_of_nil {α : Type} {first second : List α} (one : first = [] ∨ second = []) :
    first ++ second = second ++ first := by
  rcases one with rfl | rfl <;> simp

theorem Independent.sameOrder {first second : Document} (independent : Independent first second) :
    SameOrder (first.bindings ++ second.bindings) (second.bindings ++ first.bindings) := by
  intro typeName
  unfold bindingsOn
  rw [List.filter_append, List.filter_append]
  apply append_comm_of_nil
  by_cases bound : ∃ binding ∈ first.bindings, binding.typeName = typeName
  · obtain ⟨binding, member, rfl⟩ := bound
    right
    rw [List.filter_eq_nil_iff]
    intro other listed same
    exact independent.bindings binding member other listed (of_decide_eq_true same).symm
  · left
    rw [List.filter_eq_nil_iff]
    intro binding member same
    exact bound ⟨binding, member, of_decide_eq_true same⟩

theorem SameOrder.between {first second : List ActionBinding} (order : SameOrder first second)
    (before after : List ActionBinding) :
    SameOrder (before ++ (first ++ after)) (before ++ (second ++ after)) := by
  intro typeName
  have inner := order typeName
  unfold bindingsOn at inner ⊢
  rw [List.filter_append, List.filter_append, inner, ← List.filter_append, ← List.filter_append]

theorem Independent.swap {first second : Document} (independent : Independent first second)
    (before after : List Document) :
    Indistinct (merge (before ++ first :: second :: after)) (merge (before ++ second :: first :: after)) := by
  have merged : ∀ f g : Document, merge (before ++ f :: g :: after) =
      concat before ++ (f ++ g ++ concat after) := by
    intro f g
    rw [merge_of_ne_nil (List.append_ne_nil_of_right_ne_nil _ (List.cons_ne_nil _ _)), concat_append,
      concat_cons, concat_cons, append_assoc]
  rw [merged, merged]
  apply indistinct_of_sameOrder
  · simp [append_comm_of_nil independent.resourceTypes]
  · simp [append_comm_of_nil independent.unions]
  · simp only [actions_append, List.length_append]
    omega
  · exact SameOrder.between independent.sameOrder _ _

/-- Neighbouring fragments that are independent may change places, and so may bindings on different types, and
neither the index nor the diagram nor the counts show it. -/
theorem order_is_immaterial :
    (∀ (before after : List Document) (first second : Document), Independent first second →
      Indistinct (merge (before ++ first :: second :: after))
        (merge (before ++ second :: first :: after))) ∧
    ∀ (document : Document) (bindings : List ActionBinding), SameOrder document.bindings bindings →
      Indistinct document { document with bindings } := by
  constructor
  · intro before after first second independent
    exact independent.swap before after
  · intro document bindings order
    exact indistinct_of_sameOrder rfl rfl rfl order

/-- A resource type with an action on it. -/
def roleFragment : Document :=
  ⟨[⟨"role", "permrol", []⟩], [], [⟨"role_get"⟩],
    [⟨"role", "role_get", [.roleBinding ⟨⟩, .relationshipAction ⟨"owner", "tenant_get"⟩]⟩]⟩

/-- A union with an action on it. -/
def subjectFragment : Document :=
  ⟨[], [⟨"subject", ["role"]⟩], [], [⟨"subject", "subject_get", [.unrecognized, .roleBinding ⟨⟩]⟩]⟩

theorem role_and_subject_swap :
    Independent roleFragment subjectFragment ∧
      Indistinct (merge [builtIn, roleFragment, subjectFragment, ∅])
        (merge [builtIn, subjectFragment, roleFragment, ∅]) ∧
      Indistinct (roleFragment ++ subjectFragment)
        { roleFragment ++ subjectFragment with
          bindings := subjectFragment.bindings ++ roleFragment.bindings } := by
  have independent : Independent roleFragment subjectFragment := ⟨.inr rfl, .inl rfl, by decide⟩
  obtain ⟨swap, reorder⟩ := order_is_immaterial
  exact ⟨independent, swap [builtIn] [∅] _ _ independent, reorder _ _ independent.sameOrder⟩

end Document

end PolicyDiagram
