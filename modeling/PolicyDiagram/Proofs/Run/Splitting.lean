import PolicyDiagram.Proofs.Run.Stages

/-! A policy may be split over fragments in any way. What counts is what the fragments declare one after the
other, section by section; only a run without any fragment is given another document than that. -/

namespace PolicyDiagram

namespace Document

/-- Two lists of fragments declare the same, in each section and in the same order. -/
structure SameSections (first second : List Document) : Prop where
  resourceTypes : first.flatMap (·.resourceTypes) = second.flatMap (·.resourceTypes)
  unions : first.flatMap (·.unions) = second.flatMap (·.unions)
  actions : first.flatMap (·.actions) = second.flatMap (·.actions)
  bindings : first.flatMap (·.bindings) = second.flatMap (·.bindings)

/-- The second list is the first one with empty fragments put in anywhere. -/
inductive Padded : List Document → List Document → Prop where
  | nil : Padded [] []
  | keep (fragment : Document) {rest padded : List Document} (more : Padded rest padded) :
      Padded (fragment :: rest) (fragment :: padded)
  | pad {rest padded : List Document} (more : Padded rest padded) : Padded rest (∅ :: padded)

theorem concat_eq_flatMap (fragments : List Document) :
    concat fragments =
      ⟨fragments.flatMap (·.resourceTypes), fragments.flatMap (·.unions),
        fragments.flatMap (·.actions), fragments.flatMap (·.bindings)⟩ := by
  induction fragments with
  | nil => rfl
  | cons fragment rest ih =>
    rw [concat_cons, ih]
    rfl

theorem concat_eq_of_sameSections {first second : List Document} (same : SameSections first second) :
    concat first = concat second := by
  rw [concat_eq_flatMap, concat_eq_flatMap, same.resourceTypes, same.unions, same.actions,
    same.bindings]

theorem merge_of_ne_nil {fragments : List Document} (filled : fragments ≠ []) :
    merge fragments = concat fragments := by
  cases fragments with
  | nil => contradiction
  | cons fragment rest => exact merge_cons fragment rest

theorem merge_append {first second : List Document} (left : first ≠ []) (right : second ≠ []) :
    merge (first ++ second) = merge [merge first, merge second] := by
  rw [merge_of_ne_nil (List.append_ne_nil_of_left_ne_nil left second), merge_cons,
    merge_of_ne_nil left, merge_of_ne_nil right, concat_append, concat_cons, concat_cons, concat_nil,
    append_empty]

theorem concat_padded {fragments padded : List Document} (more : Padded fragments padded) :
    concat padded = concat fragments := by
  induction more with
  | nil => rfl
  | keep fragment _ ih => rw [concat_cons, concat_cons, ih]
  | pad _ ih => rw [concat_cons, ih, empty_append]

theorem merge_padded {fragments padded : List Document} (more : Padded fragments padded)
    (filled : fragments ≠ []) : merge padded = merge fragments := by
  -- Padding keeps fragments, so neither list falls back on the built-in document.
  have still_filled : padded ≠ [] := by
    cases more with
    | nil => contradiction
    | keep => exact List.cons_ne_nil _ _
    | pad => exact List.cons_ne_nil _ _
  rw [merge_of_ne_nil still_filled, merge_of_ne_nil filled, concat_padded more]

theorem concat_eq_empty {fragments : List Document} :
    concat fragments = ∅ ↔ ∀ fragment ∈ fragments, fragment = ∅ := by
  rw [concat_eq_flatMap, ← isEmpty_iff]
  simp only [isEmpty, Bool.and_eq_true, List.isEmpty_iff, List.flatMap_eq_nil_iff]
  constructor
  · rintro ⟨⟨⟨types, unions⟩, actions⟩, bindings⟩ fragment listed
    exact ext_sections (types fragment listed) (unions fragment listed) (actions fragment listed)
      (bindings fragment listed)
  · intro empty
    refine ⟨⟨⟨?_, ?_⟩, ?_⟩, ?_⟩ <;> intro fragment listed <;> rw [empty fragment listed] <;> rfl

theorem builtIn_ne_empty : builtIn ≠ ∅ := by
  intro same
  cases congrArg Document.resourceTypes same

/-- Empty fragments merge to the empty document; the built-in one takes the place of no fragment only. -/
theorem merge_eq_empty {fragments : List Document} :
    merge fragments = ∅ ↔ fragments ≠ [] ∧ ∀ fragment ∈ fragments, fragment = ∅ := by
  by_cases filled : fragments = []
  · subst filled
    simp [merge_nil, builtIn_ne_empty]
  · rw [merge_of_ne_nil filled, concat_eq_empty]
    simp [filled]

theorem merge_eq_concat_iff {fragments : List Document} :
    merge fragments = concat fragments ↔ fragments ≠ [] := by
  constructor
  · rintro same rfl
    exact builtIn_ne_empty same
  · exact merge_of_ne_nil

end Document

namespace Run

open Document (SameSections Padded loadAll merge concat builtIn)

theorem ne_nil_of_loadAll {fs : FileSystem} {paths : List Path} {fragments : List Document}
    (loaded : loadAll fs paths = .ok fragments) (filled : paths ≠ []) : fragments ≠ [] := by
  rintro rfl
  exact filled (List.forall₂_nil_right_iff.mp (Document.loadAll_eq_ok.mp loaded))

theorem textOf_eq (config : Config) (fragments : List Document) :
    textOf config fragments = config.outputFormat.wrap (Diagram.ofDocument (merge fragments)) := rfl

/-- Runs on fragments that declare the same give the same text. Behind that stand the laws of merging: it may
be done in parts, it is the extension of the empty document by one fragment after the other, empty fragments
change nothing, and only the empty list has the built-in document. -/
theorem splitting_is_immaterial :
    (∀ (fs other : FileSystem) (first second : Config) (fragments parts : List Document),
      first.files ≠ [] → second.files ≠ [] → first.outputFormat = second.outputFormat →
      loadAll fs first.files = .ok fragments → loadAll other second.files = .ok parts →
      SameSections fragments parts →
      ∃ diagram, text fs first = .ok diagram ∧ text other second = .ok diagram) ∧
    (∀ first second : List Document, first ≠ [] → second ≠ [] →
      merge (first ++ second) = merge [merge first, merge second]) ∧
    (∀ fragments : List Document, fragments ≠ [] → merge fragments = fragments.foldl (· ++ ·) ∅) ∧
    (∀ fragments padded : List Document, Padded fragments padded → fragments ≠ [] →
      merge padded = merge fragments) ∧
    merge [] = builtIn ∧
    (∀ fragments : List Document, merge fragments = concat fragments ↔ fragments ≠ []) ∧
    (∀ fragments : List Document,
      merge fragments = ∅ ↔ fragments ≠ [] ∧ ∀ fragment ∈ fragments, fragment = ∅) := by
  refine ⟨?_, fun _ _ => Document.merge_append, fun _ => Document.merge_of_ne_nil,
    fun _ _ => Document.merge_padded, Document.merge_nil, fun _ => Document.merge_eq_concat_iff,
    fun _ => Document.merge_eq_empty⟩
  intro fs other first second fragments parts filled split wrapped loaded divided same
  refine ⟨_, text_of_loadAll loaded, ?_⟩
  rw [text_of_loadAll divided, textOf_eq, textOf_eq,
    Document.merge_of_ne_nil (ne_nil_of_loadAll loaded filled),
    Document.merge_of_ne_nil (ne_nil_of_loadAll divided split),
    Document.concat_eq_of_sameSections same, wrapped]

/-- A policy in one file, and the same policy over three files, one of them empty. -/
def shelf : FileSystem where
  node := fun
    | [] | ["shelf"] => some .directory
    | ["whole.yaml", "shelf"] =>
      some (.file "unions:\n- name: subject\nresource_types:\n- name: role\n".toUTF8)
    | ["types.json", "shelf"] =>
      some (.file "\x7b\"resourceTypes\": [\x7b\"name\": \"role\"\x7d]\x7d".toUTF8)
    | ["empty.yaml", "shelf"] => some (.file "".toUTF8)
    | ["unions.yaml", "shelf"] => some (.file "unions:\n- name: subject\n".toUTF8)
    | _ => none
  workingDirectory := ["shelf"]

theorem splitting_shelf :
    (∃ diagram,
      text shelf ⟨[⟨"whole.yaml"⟩], .raw, none⟩ = .ok diagram ∧
      text shelf ⟨[⟨"unions.yaml"⟩, ⟨"empty.yaml"⟩, ⟨"types.json"⟩], .raw, none⟩ = .ok diagram) ∧
    merge ([∅] ++ [builtIn]) = merge [merge [∅], merge [builtIn]] ∧
    merge [∅, builtIn] = [∅, builtIn].foldl (· ++ ·) ∅ ∧
    merge [∅, builtIn, ∅] = merge [builtIn] := by
  obtain ⟨runs, joined, extended, padded, _⟩ := splitting_is_immaterial
  refine ⟨?_, ?_, ?_, ?_⟩
  · have whole : loadAll shelf [⟨"whole.yaml"⟩] =
        .ok [⟨[⟨"role", "", []⟩], [⟨"subject", []⟩], [], []⟩] := by decide +kernel
    have parts : loadAll shelf [⟨"unions.yaml"⟩, ⟨"empty.yaml"⟩, ⟨"types.json"⟩] =
        .ok [⟨[], [⟨"subject", []⟩], [], []⟩, ∅, ⟨[⟨"role", "", []⟩], [], [], []⟩] := by
      decide +kernel
    exact runs shelf shelf _ _ _ _ (List.cons_ne_nil _ _) (List.cons_ne_nil _ _) rfl whole parts
      ⟨rfl, rfl, rfl, rfl⟩
  · exact joined [∅] [builtIn] (List.cons_ne_nil _ _) (List.cons_ne_nil _ _)
  · exact extended [∅, builtIn] (List.cons_ne_nil _ _)
  · exact padded [builtIn] _ (.pad (.keep builtIn (.pad .nil))) (List.cons_ne_nil _ _)

end Run

end PolicyDiagram
