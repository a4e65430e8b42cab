import Mathlib.Logic.Relation
import PolicyDiagram.Diagram.Render
import PolicyDiagram.Proofs.Index.Canonical
import PolicyDiagram.Proofs.Json.Mapping
import PolicyDiagram.Proofs.Policy.RoundTrip
import PolicyDiagram.Proofs.Yaml.Mapping

/-! What the entries of a list of conditions mean. A binding is read with its entries as they are written; its
conditions come out of them in another number and at other places. The index is the one that the entries give
themselves: each counts once for every key that it carries, and not at all if it carries none. -/

namespace PolicyDiagram

open Data (Shape Fields)

/-- A binding as it is written: its conditions are a list of entries, or there is no list at all. -/
structure WrittenBinding where
  typeName : String
  action : String
  entries : Option (List ConditionEntry)
deriving DecidableEq, Repr, Inhabited

structure WrittenDocument where
  resourceTypes : List ResourceType
  unions : List UnionType
  actions : List Action
  bindings : List WrittenBinding
deriving DecidableEq, Repr, Inhabited

namespace WrittenBinding

def shape : Shape WrittenBinding :=
  .record "ActionBinding" ⟨"", "", none⟩
    (.field "type_name" ["typeName"] .defaulted .text WrittenBinding.typeName
        (fun typeName b => { b with typeName }) <|
      .field "action_name" ["actionName"] .defaulted .text WrittenBinding.action
        (fun action b => { b with action }) <|
      .field "conditions" [] .defaulted (.optional (.list ConditionEntry.shape)) WrittenBinding.entries
        (fun entries b => { b with entries }) <|
      .done)

/-- The binding, with the conditions that its entries carry. -/
def binding (b : WrittenBinding) : ActionBinding := ⟨b.typeName, b.action, conditionsOf b.entries⟩

theorem shape_maps : shape.Maps binding ActionBinding.shape :=
  .record <|
    .field (.same _) (fun _ _ => rfl) <|
    .field (.same _) (fun _ _ => rfl) <|
    .field (.via _ _ _) (fun _ _ => rfl) <|
    .done _

theorem recovers (b : WrittenBinding) : shape.Recovers b := by
  simp [shape, Fields.Distinct, Data.isElided, conditionEntry_recovers, Shape.write]

end WrittenBinding

namespace WrittenDocument

def shape : Shape WrittenDocument :=
  .record "PolicyDocument" ⟨[], [], [], []⟩
    (.field "resource_types" ["resourceTypes"] .defaulted (.list ResourceType.shape)
        WrittenDocument.resourceTypes (fun resourceTypes d => { d with resourceTypes }) <|
      .field "unions" [] .defaulted (.list UnionType.shape) WrittenDocument.unions
        (fun unions d => { d with unions }) <|
      .field "actions" [] .defaulted (.list Action.shape) WrittenDocument.actions
        (fun actions d => { d with actions }) <|
      .field "action_bindings" ["actionBindings"] .defaulted (.list WrittenBinding.shape)
        WrittenDocument.bindings (fun bindings d => { d with bindings }) <|
      .done)

def document (d : WrittenDocument) : Document :=
  ⟨d.resourceTypes, d.unions, d.actions, d.bindings.map WrittenBinding.binding⟩

theorem shape_maps : shape.Maps document Document.shape :=
  .record <|
    .field (.same _) (fun _ _ => rfl) <|
    .field (.same _) (fun _ _ => rfl) <|
    .field (.same _) (fun _ _ => rfl) <|
    .field (.list WrittenBinding.shape_maps) (fun _ _ => rfl) <|
    .done _

theorem recovers (d : WrittenDocument) : shape.Recovers d := by
  simp [shape, Fields.Distinct, Data.isElided, resourceType_recovers, unionType_recovers, action_recovers,
    WrittenBinding.recovers]

theorem shape_verbal : shape.Verbal := by
  simp only [shape, ResourceType.shape, Relationship.shape, UnionType.shape, Action.shape,
    WrittenBinding.shape, ConditionEntry.shape, RoleBinding.shape, RelationshipAction.shape, Shape.Verbal,
    Fields.Verbal]
  decide

def encode (writer : Writer) (d : WrittenDocument) : ByteArray := (writer.text (shape.write d)).toUTF8

theorem decode_encode (writer : Writer) (d : WrittenDocument) :
    writer.format.decode shape (encode writer d) = .ok d := by
  apply writer.decode_text shape shape_verbal d.recovers rfl
  rw [Data.Fields.write_field]
  exact List.cons_ne_nil _ _

/-- A text decodes by way of its entries, whatever its format, or fails as it does with them. -/
theorem decode_document (format : FragmentFormat) (bytes : ByteArray) :
    Document.decode format bytes = (format.decode shape bytes).map document := by
  rw [Document.decode_eq]
  cases format with
  | yaml =>
    simp only [FragmentFormat.decode, Yaml.decode_of_maps shape_maps]
    cases Yaml.decode shape bytes <;> rfl
  | json =>
    simp only [FragmentFormat.decode, Json.decode_of_maps .streamed shape_maps]
    cases Json.decode .streamed shape bytes <;> rfl

end WrittenDocument

/-! ## Indexing entries -/

namespace ActionIndex

def recordEntry (index : ActionIndex) (typeName action : String) (entry : ConditionEntry) : ActionIndex where
  direct := if entry.role.isSome then index.direct.push typeName action else index.direct
  related :=
    match entry.via with
    | some via => index.related.push typeName via.relation via.action
    | none => index.related

/-- The index of bindings by their entries. -/
def ofEntries (bindings : List WrittenBinding) : ActionIndex :=
  bindings.foldl (fun index b => (b.entries.getD []).foldl (·.recordEntry b.typeName b.action) index) empty

theorem foldl_record_conditions (index : ActionIndex) (typeName action : String) (entry : ConditionEntry) :
    entry.conditions.foldl (·.record typeName action) index = index.recordEntry typeName action entry := by
  obtain ⟨role, via⟩ := entry
  cases role <;> cases via <;> rfl

theorem recordBinding_binding (index : ActionIndex) (b : WrittenBinding) :
    index.recordBinding b.binding = (b.entries.getD []).foldl (·.recordEntry b.typeName b.action) index := by
  simp only [recordBinding, WrittenBinding.binding, conditionsOf]
  -- Entry by entry: one or two conditions on the left are one step on the right.
  induction b.entries.getD [] generalizing index with
  | nil => rfl
  | cons entry rest ih => rw [List.flatMap_cons, List.foldl_append, foldl_record_conditions, ih, List.foldl_cons]

theorem build_map_binding (bindings : List WrittenBinding) :
    build (bindings.map WrittenBinding.binding) = ofEntries bindings := by
  rw [build, ofEntries, List.foldl_map]
  simp only [recordBinding_binding]

end ActionIndex

def roles (entries : Option (List ConditionEntry)) : List RoleBinding :=
  (entries.getD []).filterMap ConditionEntry.role

def vias (entries : Option (List ConditionEntry)) : List RelationshipAction :=
  (entries.getD []).filterMap ConditionEntry.via

/-- The action of a binding on the type, once for every role binding among its entries. -/
def entryActions (bindings : List WrittenBinding) (typeName : String) : List String :=
  bindings.flatMap fun b => if b.typeName = typeName then (roles b.entries).map fun _ => b.action else []

/-- The relationship actions among the entries of bindings on the type. -/
def entryRelations (bindings : List WrittenBinding) (typeName : String) : List (String × String) :=
  bindings.flatMap fun b =>
    if b.typeName = typeName then (vias b.entries).map fun via => (via.relation, via.action) else []

/-- A scan of bindings for what one part of an entry gives is a scan of the entries for that part. -/
theorem filterMap_clauses_binding {β γ : Type} {find : Clause → Option β} {typeName : String}
    {part : ConditionEntry → Option γ} {give : WrittenBinding → γ → β}
    (one : ∀ (b : WrittenBinding) (entry : ConditionEntry),
      (entry.conditions.filterMap fun condition => find ⟨b.typeName, b.action, condition⟩) =
        if b.typeName = typeName then (part entry).toList.map (give b) else [])
    (bindings : List WrittenBinding) :
    (clauses (bindings.map WrittenBinding.binding)).filterMap find = bindings.flatMap fun b =>
      if b.typeName = typeName then ((b.entries.getD []).filterMap part).map (give b) else [] := by
  unfold clauses
  rw [List.flatMap_map, List.filterMap_flatMap]
  apply List.flatMap_congr
  intro b _
  rw [List.filterMap_map, WrittenBinding.binding, conditionsOf, List.filterMap_flatMap]
  simp only [Function.comp_def, one]
  split
  · rw [List.filterMap_eq_flatMap_toList, List.map_flatMap]
  · exact List.flatMap_eq_nil_iff.mpr fun _ _ => rfl

theorem directActions_map_binding (bindings : List WrittenBinding) (typeName : String) :
    directActions (bindings.map WrittenBinding.binding) typeName = entryActions bindings typeName := by
  apply filterMap_clauses_binding
  rintro b ⟨_ | role, _ | via⟩ <;> by_cases here : b.typeName = typeName <;>
    simp [ConditionEntry.conditions, Clause.direct?, here]

theorem relatedActions_map_binding (bindings : List WrittenBinding) (typeName : String) :
    relatedActions (bindings.map WrittenBinding.binding) typeName = entryRelations bindings typeName := by
  apply filterMap_clauses_binding
  rintro b ⟨_ | role, _ | via⟩ <;> by_cases here : b.typeName = typeName <;>
    simp [ConditionEntry.conditions, Clause.related?, here]

theorem ActionIndex.actionsFor_ofEntries (bindings : List WrittenBinding) (typeName : String) :
    (ofEntries bindings).direct.actionsFor typeName = entryActions bindings typeName := by
  rw [← build_map_binding, actionsFor_build, directActions_map_binding]

theorem ActionIndex.listing_ofEntries (bindings : List WrittenBinding) (typeName : String) :
    (ofEntries bindings).related.listing typeName = gather (entryRelations bindings typeName) := by
  rw [← build_map_binding, RelatedIndex.listing, groupsFor_build, relatedActions_map_binding]
  cases kept : RelationGroups.ofPairs? (entryRelations bindings typeName) with
  | none =>
    rw [RelationGroups.ofPairs?_eq_none.mp kept]
    rfl
  | some table => exact RelationGroups.groups_of_ofPairs? kept

/-! ## Entries that can stand for one another -/

/-- Entries in one place of a list that can give way to others. -/
inductive Interchange : List ConditionEntry → List ConditionEntry → Prop where
  | parted (role : RoleBinding) (via : RelationshipAction) :
      Interchange [⟨some role, some via⟩] [⟨some role, none⟩, ⟨none, some via⟩]
  | reversed (role : RoleBinding) (via : RelationshipAction) :
      Interchange [⟨some role, some via⟩] [⟨none, some via⟩, ⟨some role, none⟩]
  | idle {entry : ConditionEntry} (unrecognized : entry.conditions = [.unrecognized]) :
      Interchange [] [entry]

/-- One change in the wording of the entries of a binding. -/
inductive Rewording : Option (List ConditionEntry) → Option (List ConditionEntry) → Prop where
  | absent : Rewording none (some [])
  | within {old new : List ConditionEntry} (before after : List ConditionEntry) (change : Interchange old new) :
      Rewording (some (before ++ old ++ after)) (some (before ++ new ++ after))

structure WrittenBinding.Reworded (first second : WrittenBinding) : Prop where
  typeName : first.typeName = second.typeName
  action : first.action = second.action
  entries : Relation.EqvGen Rewording first.entries second.entries

structure WrittenDocument.Reworded (first second : WrittenDocument) : Prop where
  resourceTypes : first.resourceTypes = second.resourceTypes
  unions : first.unions = second.unions
  bindings : List.Forall₂ WrittenBinding.Reworded first.bindings second.bindings

theorem ConditionEntry.conditions_eq_unrecognized {entry : ConditionEntry} :
    entry.conditions = [.unrecognized] ↔ entry.role = none ∧ entry.via = none := by
  obtain ⟨_ | role, _ | via⟩ := entry <;> simp [conditions]

theorem Interchange.carries {old new : List ConditionEntry} (change : Interchange old new) :
    old.filterMap ConditionEntry.role = new.filterMap ConditionEntry.role ∧
      old.filterMap ConditionEntry.via = new.filterMap ConditionEntry.via := by
  cases change with
  | parted role via => exact ⟨rfl, rfl⟩
  | reversed role via => exact ⟨rfl, rfl⟩
  | idle unrecognized =>
    obtain ⟨noRole, noVia⟩ := ConditionEntry.conditions_eq_unrecognized.mp unrecognized
    simp [noRole, noVia]

theorem Rewording.carries {first second : Option (List ConditionEntry)} (change : Rewording first second) :
    roles first = roles second ∧ vias first = vias second := by
  cases change with
  | absent => exact ⟨rfl, rfl⟩
  | within before after change => simp [roles, vias, List.filterMap_append, change.carries]

/-- Chains of rewordings carry one and the same. -/
theorem carries_of_eqvGen {first second : Option (List ConditionEntry)}
    (changes : Relation.EqvGen Rewording first second) :
    roles first = roles second ∧ vias first = vias second := by
  induction changes with
  | rel _ _ change => exact change.carries
  | refl _ => exact ⟨rfl, rfl⟩
  | symm _ _ _ ih => exact ⟨ih.1.symm, ih.2.symm⟩
  | trans _ _ _ _ _ ih ih' => exact ⟨ih.1.trans ih'.1, ih.2.trans ih'.2⟩

theorem flatMap_of_forall₂ {α β : Type} {alike : α → α → Prop} {give : α → List β}
    (same : ∀ first second, alike first second → give first = give second) {first second : List α}
    (each : List.Forall₂ alike first second) : first.flatMap give = second.flatMap give := by
  induction each with
  | nil => rfl
  | cons head _ ih => rw [List.flatMap_cons, List.flatMap_cons, same _ _ head, ih]

theorem entryActions_of_reworded {first second : List WrittenBinding}
    (each : List.Forall₂ WrittenBinding.Reworded first second) (typeName : String) :
    entryActions first typeName = entryActions second typeName := by
  apply flatMap_of_forall₂ _ each
  intro b b' reworded
  rw [reworded.typeName, reworded.action, (carries_of_eqvGen reworded.entries).1]

theorem entryRelations_of_reworded {first second : List WrittenBinding}
    (each : List.Forall₂ WrittenBinding.Reworded first second) (typeName : String) :
    entryRelations first typeName = entryRelations second typeName := by
  apply flatMap_of_forall₂ _ each
  intro b b' reworded
  rw [reworded.typeName, (carries_of_eqvGen reworded.entries).2]

namespace WrittenDocument

theorem Reworded.build_eq {first second : WrittenDocument} (reworded : first.Reworded second) :
    ActionIndex.build first.document.bindings = ActionIndex.build second.document.bindings := by
  apply ActionIndex.build_eq_of_scans
  · intro typeName
    simp only [document, directActions_map_binding]
    exact entryActions_of_reworded reworded.bindings typeName
  · intro typeName
    simp only [document, relatedActions_map_binding]
    exact entryRelations_of_reworded reworded.bindings typeName

theorem Reworded.diagram_eq {first second : WrittenDocument} (reworded : first.Reworded second) :
    Diagram.ofDocument first.document = Diagram.ofDocument second.document := by
  unfold Diagram.ofDocument
  rw [reworded.build_eq]
  simp only [document]
  rw [reworded.resourceTypes, reworded.unions]

/-- Condition entries mean what they carry. A text is read entry by entry, in any way that entries can be written;
its index is the index of the entries; and it stays the same, as the diagram does, if an entry with both keys gives
way to two with one key each, in either order, or if entries without a key come or go. -/
theorem entries_mean_what_they_carry :
    (∀ format bytes, Document.decode format bytes = (format.decode shape bytes).map document) ∧
    (∀ (writer : Writer) (written : WrittenDocument),
      writer.format.decode shape (encode writer written) = .ok written) ∧
    (∀ written : WrittenDocument,
      ActionIndex.build written.document.bindings = ActionIndex.ofEntries written.bindings) ∧
    (∀ bindings typeName,
      (ActionIndex.ofEntries bindings).direct.actionsFor typeName = entryActions bindings typeName ∧
        (ActionIndex.ofEntries bindings).related.listing typeName =
          gather (entryRelations bindings typeName)) ∧
    ∀ first second : WrittenDocument, first.Reworded second →
      ActionIndex.build first.document.bindings = ActionIndex.build second.document.bindings ∧
        Diagram.ofDocument first.document = Diagram.ofDocument second.document := by
  refine ⟨decode_document, decode_encode, ?indexed, ?answered, ?reworded⟩
  case indexed =>
    intro written
    exact ActionIndex.build_map_binding written.bindings
  case answered =>
    intro bindings typeName
    exact ⟨ActionIndex.actionsFor_ofEntries bindings typeName, ActionIndex.listing_ofEntries bindings typeName⟩
  case reworded =>
    intro first second reworded
    exact ⟨reworded.build_eq, reworded.diagram_eq⟩

/-- A binding with one entry for both keys and one without any entries, in YAML; and in JSON with an entry for each
key behind an entry that has none, and with an empty list. -/
theorem get_reworded : ∃ first second,
    Document.decode .yaml ("resourceTypes:\n- name: vm\nactionBindings:\n" ++
      "- typeName: vm\n  actionName: get\n  conditions:\n  - roleBinding: \x7b\x7d\n" ++
      "    relationshipAction:\n      relation: owner\n- typeName: vm\n").toUTF8 = .ok first ∧
    Document.decode .json ("\x7b\"resourceTypes\":[\x7b\"name\":\"vm\"\x7d],\"actionBindings\":[" ++
      "\x7b\"typeName\":\"vm\",\"actionName\":\"get\",\"conditions\":[\x7b\x7d," ++
      "\x7b\"relationshipAction\":\x7b\"relation\":\"owner\"\x7d\x7d,\x7b\"roleBinding\":\x7b\x7d\x7d]\x7d," ++
      "\x7b\"typeName\":\"vm\",\"conditions\":[]\x7d]\x7d").toUTF8 = .ok second ∧
    first.bindings ≠ second.bindings ∧
    ActionIndex.build first.bindings = ActionIndex.build second.bindings ∧
    Diagram.ofDocument first = Diagram.ofDocument second := by
  obtain ⟨decoded, _, _, _, unmoved⟩ := entries_mean_what_they_carry
  have entries : Relation.EqvGen Rewording (some [⟨some ⟨⟩, some ⟨"owner", ""⟩⟩])
      (some [⟨none, none⟩, ⟨none, some ⟨"owner", ""⟩⟩, ⟨some ⟨⟩, none⟩]) := by
    apply Relation.EqvGen.trans _ (some [⟨none, some ⟨"owner", ""⟩⟩, ⟨some ⟨⟩, none⟩])
    · exact .rel _ _ (.within [] [] (.reversed ⟨⟩ ⟨"owner", ""⟩))
    · exact .rel _ _ (.within [] _ (.idle rfl))
  have reworded : Reworded
      ⟨[⟨"vm", "", []⟩], [], [], [⟨"vm", "get", some [⟨some ⟨⟩, some ⟨"owner", ""⟩⟩]⟩, ⟨"vm", "", none⟩]⟩
      ⟨[⟨"vm", "", []⟩], [], [], [⟨"vm", "get", some [⟨none, none⟩, ⟨none, some ⟨"owner", ""⟩⟩,
        ⟨some ⟨⟩, none⟩]⟩, ⟨"vm", "", some []⟩]⟩ := by
    refine ⟨rfl, rfl, .cons ⟨rfl, rfl, entries⟩ (.cons ⟨rfl, rfl, ?absent⟩ .nil)⟩
    case absent => exact .rel _ _ .absent
  refine ⟨_, _, ?_, ?_, ?_, unmoved _ _ reworded⟩
  · rw [decoded]
    decide +kernel
  · rw [decoded]
    decide +kernel
  · decide

end WrittenDocument

end PolicyDiagram
