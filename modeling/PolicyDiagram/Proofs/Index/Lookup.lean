import PolicyDiagram.Proofs.Index.Groups

/-! What an index answers for one type, against a scan of the bindings for that type. A clause is one
condition together with the binding it stands in; recording is one step for each clause, in document
order, so what holds after a prefix of the clauses carries over to all of them. -/

namespace PolicyDiagram

/-- A condition, with the type and the action that it qualifies. -/
structure Clause where
  typeName : String
  action : String
  condition : Condition
deriving DecidableEq, Repr

/-- The clauses of bindings, in document order. -/
def clauses (bindings : List ActionBinding) : List Clause :=
  bindings.flatMap fun binding => binding.conditions.map (⟨binding.typeName, binding.action, ·⟩)

namespace Clause

/-- The action that a clause makes assignable on a type, which is the action of its binding. -/
def direct? (typeName : String) (clause : Clause) : Option String :=
  match clause.condition with
  | .roleBinding _ => if clause.typeName = typeName then some clause.action else none
  | _ => none

/-- The relation and the action that a clause opens on a type, which are those of its condition. -/
def related? (typeName : String) (clause : Clause) : Option (String × String) :=
  match clause.condition with
  | .relationshipAction via =>
    if clause.typeName = typeName then some (via.relation, via.action) else none
  | _ => none

end Clause

/-- The direct actions of a type, by a scan of the bindings. -/
def directActions (bindings : List ActionBinding) (typeName : String) : List String :=
  (clauses bindings).filterMap (Clause.direct? typeName)

/-- The relations and actions of a type, by a scan of the bindings. -/
def relatedActions (bindings : List ActionBinding) (typeName : String) : List (String × String) :=
  (clauses bindings).filterMap (Clause.related? typeName)

theorem clauses_append (first second : List ActionBinding) :
    clauses (first ++ second) = clauses first ++ clauses second := List.flatMap_append

theorem directActions_append (first second : List ActionBinding) (typeName : String) :
    directActions (first ++ second) typeName =
      directActions first typeName ++ directActions second typeName := by
  rw [directActions, clauses_append, List.filterMap_append]
  rfl

theorem relatedActions_append (first second : List ActionBinding) (typeName : String) :
    relatedActions (first ++ second) typeName =
      relatedActions first typeName ++ relatedActions second typeName := by
  rw [relatedActions, clauses_append, List.filterMap_append]
  rfl

/-- The table of a type with so many related actions; a type without any has none. -/
def RelationGroups.ofPairs? (pairs : List (String × String)) : Option RelationGroups :=
  if pairs.isEmpty then none else some (ofPairs pairs)

theorem RelationGroups.ofPairs?_concat (pairs : List (String × String)) (pair : String × String) :
    ofPairs? (pairs ++ [pair]) = some (((ofPairs? pairs).getD empty).push pair.1 pair.2) := by
  cases pairs with
  | nil => rfl
  | cons first rest =>
    simp only [ofPairs?, List.cons_append, List.isEmpty_cons, Bool.false_eq_true, if_false,
      Option.getD_some]
    exact congrArg some (ofPairs_concat (first :: rest) pair.1 pair.2)

theorem RelationGroups.ofPairs?_eq_none {pairs : List (String × String)} :
    ofPairs? pairs = none ↔ pairs = [] := by
  cases pairs <;> simp [ofPairs?]

theorem RelationGroups.groups_of_ofPairs? {pairs : List (String × String)} {table : RelationGroups}
    (found : ofPairs? pairs = some table) : table.groups = gather pairs := by
  unfold ofPairs? at found
  split at found
  · contradiction
  · cases Option.some.inj found
    exact groups_ofPairs pairs

namespace ActionIndex

/-- Records one clause. -/
def recordClause (index : ActionIndex) (clause : Clause) : ActionIndex :=
  index.record clause.typeName clause.action clause.condition

theorem build_eq_foldl_clauses (bindings : List ActionBinding) :
    build bindings = (clauses bindings).foldl recordClause empty := by
  have general : ∀ index : ActionIndex,
      bindings.foldl recordBinding index = (clauses bindings).foldl recordClause index := by
    induction bindings with
    | nil => intro index; rfl
    | cons binding rest ih =>
      intro index
      have split : clauses (binding :: rest) =
          binding.conditions.map (⟨binding.typeName, binding.action, ·⟩) ++ clauses rest :=
        List.flatMap_cons
      rw [List.foldl_cons, ih, split, List.foldl_append, List.foldl_map]
      rfl
  exact general empty

/-- An index answers for clauses if a look-up gives what a scan of the clauses gives, for every type. -/
structure Answers (index : ActionIndex) (seen : List Clause) : Prop where
  direct : ∀ typeName, index.direct.actionsFor typeName = seen.filterMap (Clause.direct? typeName)
  related : ∀ typeName,
    index.related.groupsFor typeName = RelationGroups.ofPairs? (seen.filterMap (Clause.related? typeName))

theorem answers_empty : Answers empty [] := by
  constructor
  · intro typeName
    simp [empty, DirectIndex.actionsFor, DirectIndex.empty]
  · intro typeName
    simp [empty, RelatedIndex.groupsFor, RelatedIndex.empty, RelationGroups.ofPairs?]

/-- One clause on top of others: it shows at its own type alone, and there at the end. -/
theorem Answers.recordClause {index : ActionIndex} {seen : List Clause} (known : index.Answers seen)
    (clause : Clause) : (index.recordClause clause).Answers (seen ++ [clause]) := by
  obtain ⟨name, action, condition⟩ := clause
  have direct := known.direct
  have related := known.related
  cases condition with
  | roleBinding role =>
    constructor
    · intro typeName
      rw [List.filterMap_append, ← direct]
      simp only [ActionIndex.recordClause, record, DirectIndex.actionsFor_push, direct]
      by_cases same : name = typeName
      · subst same
        simp [Clause.direct?]
      · simp [Clause.direct?, same]
    · intro typeName
      rw [List.filterMap_append]
      simpa [ActionIndex.recordClause, record, Clause.related?, List.filterMap_cons] using related typeName
  | relationshipAction via =>
    constructor
    · intro typeName
      rw [List.filterMap_append]
      simpa [ActionIndex.recordClause, record, Clause.direct?, List.filterMap_cons] using direct typeName
    · intro typeName
      rw [List.filterMap_append]
      simp only [ActionIndex.recordClause, record, RelatedIndex.groupsFor_push]
      by_cases same : name = typeName
      · subst same
        have one : [(⟨name, action, .relationshipAction via⟩ : Clause)].filterMap
            (Clause.related? name) = [(via.relation, via.action)] := by
          simp [Clause.related?]
        rw [if_pos rfl, one, RelationGroups.ofPairs?_concat, related]
      · simpa [same, Clause.related?, List.filterMap_cons] using related typeName
  | unrecognized =>
    constructor
    · intro typeName
      rw [List.filterMap_append]
      simpa [ActionIndex.recordClause, record, Clause.direct?, List.filterMap_cons] using direct typeName
    · intro typeName
      rw [List.filterMap_append]
      simpa [ActionIndex.recordClause, record, Clause.related?, List.filterMap_cons] using related typeName

theorem Answers.foldl {index : ActionIndex} {seen : List Clause} (known : index.Answers seen)
    (more : List Clause) : (more.foldl ActionIndex.recordClause index).Answers (seen ++ more) := by
  induction more generalizing index seen with
  | nil => simpa using known
  | cons clause rest ih =>
    have next := ih (known.recordClause clause)
    rwa [List.append_assoc, List.singleton_append] at next

theorem answers_build (bindings : List ActionBinding) :
    (build bindings).Answers (clauses bindings) := by
  rw [build_eq_foldl_clauses]
  exact answers_empty.foldl (clauses bindings)

theorem actionsFor_build (bindings : List ActionBinding) (typeName : String) :
    (build bindings).direct.actionsFor typeName = directActions bindings typeName :=
  (answers_build bindings).direct typeName

theorem groupsFor_build (bindings : List ActionBinding) (typeName : String) :
    (build bindings).related.groupsFor typeName =
      RelationGroups.ofPairs? (relatedActions bindings typeName) :=
  (answers_build bindings).related typeName

end ActionIndex

end PolicyDiagram
