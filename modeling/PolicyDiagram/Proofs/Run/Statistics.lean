import Mathlib.Algebra.GroupWithZero.Nat
import PolicyDiagram.Proofs.Diagram.Blocks
import PolicyDiagram.Proofs.Index.Counts
import PolicyDiagram.Proofs.Run.Splitting

/-! The statistics of a run, against what they are about: the fragments that were decoded, the conditions of the
merged document, and the text of the diagram. -/

namespace PolicyDiagram

open Document (builtIn concat merge)

/-- A document is the built-in one, and not because the fragments declare just that. -/
def Document.Substituted (fragments : List Document) (document : Document) : Prop :=
  document = builtIn ∧ document ≠ concat fragments

theorem Document.substituted_merge (fragments : List Document) :
    Substituted fragments (merge fragments) ↔ fragments = [] := by
  unfold Substituted
  rw [Ne, merge_eq_concat_iff]
  constructor
  · rintro ⟨_, none⟩
    exact Classical.not_not.mp none
  · rintro rfl
    exact ⟨merge_nil, fun filled => filled rfl⟩

theorem Document.length_flatMap_merge {α : Type} {fragments : List Document} (filled : fragments ≠ [])
    (part : Document → List α)
    (joins : part (concat fragments) = fragments.flatMap part) :
    (part (merge fragments)).length = (fragments.map fun fragment => (part fragment).length).sum := by
  rw [merge_of_ne_nil filled, joins, List.length_flatMap]

open Diagram (linesOf closingLine Unbroken)

/-- What the statistics of a run say of its fragments, its document and its diagram is so. A count has sixty-four
bits, and so has the length of every list that memory can hold. -/
structure Truthful (config : Config) (fragments : List Document) (prepared : Prepared) : Prop where
  loaded : prepared.statistics.fragmentCount = config.files.length
  unasked : prepared.statistics.usedDefaultPolicy = config.usesDefaultPolicy
  substituted : prepared.statistics.usedDefaultPolicy = true ↔
    Document.Substituted fragments prepared.document
  resourceTypes : fragments ≠ [] → prepared.statistics.resourceTypeCount =
    (fragments.map fun fragment => fragment.resourceTypes.length).sum
  unions : fragments ≠ [] → prepared.statistics.unionCount =
    (fragments.map fun fragment => fragment.unions.length).sum
  actions : fragments ≠ [] → prepared.statistics.actionCount =
    (fragments.map fun fragment => fragment.actions.length).sum
  bindings : fragments ≠ [] → prepared.statistics.bindingCount =
    (fragments.map fun fragment => fragment.bindings.length).sum
  direct : prepared.statistics.directActionCount =
    (allConditions prepared.document.bindings).countP Condition.isRoleBinding
  related : prepared.statistics.relatedActionCount =
    (allConditions prepared.document.bindings).countP Condition.isRelationshipAction
  conditions : prepared.statistics.directActionCount + prepared.statistics.relatedActionCount +
    (allConditions prepared.document.bindings).count .unrecognized =
      (allConditions prepared.document.bindings).length
  blocks : Unbroken prepared.document → (linesOf prepared.diagram).count closingLine =
    prepared.statistics.resourceTypeCount + prepared.statistics.unionCount
  entities : Unbroken prepared.document → (linesOf prepared.diagram).count closingLine < Data.countRange →
    prepared.statistics.entityCount = (linesOf prepared.diagram).count closingLine

namespace Run

theorem truthful_ofFragments {config : Config} {fragments : List Document}
    (each : fragments.length = config.files.length) :
    Truthful config fragments (.ofFragments fragments) := by
  have blocks : Unbroken (merge fragments) →
      (linesOf (Prepared.ofFragments fragments).diagram).count closingLine =
        (merge fragments).resourceTypes.length + (merge fragments).unions.length :=
    Diagram.count_closingLine
  have none : (fragments.length == 0) = true ↔ fragments = [] := by
    rw [beq_iff_eq, List.length_eq_zero_iff]
  have direct := ActionIndex.direct_entryCount_build (merge fragments).bindings
  have related := ActionIndex.related_entryCount_build (merge fragments).bindings
  have sections := Document.concat_eq_flatMap fragments
  constructor
  case loaded => exact each
  case unasked =>
    rw [Bool.eq_iff_iff]
    refine none.trans ?_
    rw [Config.usesDefaultPolicy, List.isEmpty_iff_length_eq_zero, ← each, List.length_eq_zero_iff]
  case substituted => exact none.trans (Document.substituted_merge fragments).symm
  case resourceTypes =>
    intro filled
    exact Document.length_flatMap_merge filled Document.resourceTypes (by rw [sections])
  case unions =>
    intro filled
    exact Document.length_flatMap_merge filled Document.unions (by rw [sections])
  case actions =>
    intro filled
    exact Document.length_flatMap_merge filled Document.actions (by rw [sections])
  case bindings =>
    intro filled
    exact Document.length_flatMap_merge filled Document.bindings (by rw [sections])
  case direct => exact direct
  case related => exact related
  case conditions =>
    refine Eq.trans ?_ (countP_kinds (allConditions (merge fragments).bindings))
    rw [← direct, ← related]
    rfl
  case blocks => exact blocks
  case entities =>
    intro unbroken few
    rw [blocks unbroken] at few ⊢
    exact Nat.mod_eq_of_lt few

/-- The statistics of a run that gets as far as an index tell the truth about it. -/
theorem statistics_of_prepare {fs : FileSystem} {config : Config} {prepared : Prepared}
    (done : prepare fs config = .ok prepared) :
    ∃ fragments, List.Forall₂ (fun path fragment => Document.load fs path = .ok fragment)
        config.files fragments ∧ Truthful config fragments prepared := by
  obtain ⟨fragments, loaded, rfl⟩ := loadAll_of_prepare done
  have each := Document.loadAll_eq_ok.mp loaded
  exact ⟨fragments, each, truthful_ofFragments each.length_eq.symm⟩

/-- A role in YAML and a union in JSON, with every kind of condition, and a name that is a bracket. -/
def cabinet : FileSystem where
  node := fun
    | [] | ["cabinet"] => some .directory
    | ["role.yaml", "cabinet"] =>
      some (.file ("resource_types:\n- name: role\n" ++
        "action_bindings:\n- type_name: role\n  conditions:\n" ++
        "  - role_binding: \x7b\x7d\n    relationship_action: \x7b\x7d\n  - \x7b\x7d\n").toUTF8)
    | ["union.json", "cabinet"] =>
      some (.file ("\x7b\"unions\": [\x7b\"name\": \"\x7d\"\x7d], \"actionBindings\": " ++
        "[\x7b\"typeName\": \"\x7d\", \"conditions\": [\x7b\"roleBinding\": \x7b\x7d\x7d]\x7d]\x7d").toUTF8)
    | _ => none
  workingDirectory := ["cabinet"]

/-- What the cabinet holds. -/
def cabinetFragments : List Document :=
  [⟨[⟨"role", "", []⟩], [], [],
      [⟨"role", "", [.roleBinding ⟨⟩, .relationshipAction ⟨"", ""⟩, .unrecognized]⟩]⟩,
    ⟨[], [⟨"\x7d", []⟩], [], [⟨"\x7d", "", [.roleBinding ⟨⟩]⟩]⟩]

def cabinetConfig : Config := ⟨[⟨"role.yaml"⟩, ⟨"union.json"⟩], .raw, none⟩

theorem statistics_of_cabinet :
    ∃ prepared, prepare cabinet cabinetConfig = .ok prepared ∧
      prepared.statistics = ⟨2, false, 1, 1, 0, 2, 2, 1⟩ ∧
      prepared.statistics.entityCount = (linesOf prepared.diagram).count closingLine ∧
      prepared.statistics.directActionCount + prepared.statistics.relatedActionCount + 1 =
        (allConditions prepared.document.bindings).length := by
  have loaded : Document.loadAll cabinet cabinetConfig.files = .ok cabinetFragments := by decide +kernel
  have done := prepare_of_loadAll loaded
  have unbroken : Unbroken (Prepared.ofFragments cabinetFragments).document := by decide +kernel
  obtain ⟨_, _, truthful⟩ := statistics_of_prepare done
  refine ⟨_, done, by decide +kernel, ?_, ?_⟩
  · exact truthful.entities unbroken (by decide +kernel)
  · exact truthful.conditions

end Run

end PolicyDiagram
