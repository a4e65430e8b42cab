import PolicyDiagram.Policy.Fragment
import PolicyDiagram.Proofs.Data.Spelling
import PolicyDiagram.Proofs.Json.Datum
import PolicyDiagram.Proofs.Yaml.Datum

/-! Policy documents do not depend on how they are spelled: the order of the keys, the spelling of the fields,
keys that no field has and fields that hold nothing make no difference, in either format. -/

namespace PolicyDiagram

open Data (Datum Shape Fields RecordField)

theorem relationship_regular : Relationship.shape.Regular := by
  refine ⟨⟨?_, ?_, ?_, ?_⟩, ?_⟩ <;>
    simp [Fields.toList, RecordField.keys, Shape.empties, Fields.Regular, Shape.Regular]

theorem resourceType_regular : ResourceType.shape.Regular := by
  refine ⟨⟨?_, ?_, ?_, ?_⟩, ?_⟩ <;>
    simp [Fields.toList, RecordField.keys, Shape.empties, Fields.Regular, Shape.Regular, relationship_regular]

theorem unionType_regular : UnionType.shape.Regular := by
  refine ⟨⟨?_, ?_, ?_, ?_⟩, ?_⟩ <;>
    simp [Fields.toList, RecordField.keys, Shape.empties, Fields.Regular, Shape.Regular]

theorem action_regular : Action.shape.Regular := by
  refine ⟨⟨?_, ?_, ?_, ?_⟩, ?_⟩ <;>
    simp [Fields.toList, RecordField.keys, Shape.empties, Fields.Regular, Shape.Regular]

theorem roleBinding_regular : RoleBinding.shape.Regular := by
  refine ⟨⟨?_, ?_, ?_, ?_⟩, ?_⟩ <;> simp [Fields.toList, Fields.Regular]

theorem relationshipAction_regular : RelationshipAction.shape.Regular := by
  refine ⟨⟨?_, ?_, ?_, ?_⟩, ?_⟩ <;>
    simp [Fields.toList, RecordField.keys, Shape.empties, Fields.Regular, Shape.Regular]

theorem conditionEntry_regular : ConditionEntry.shape.Regular := by
  refine ⟨⟨?_, ?_, ?_, ?_⟩, roleBinding_regular, relationshipAction_regular, trivial⟩ <;>
    simp [Fields.toList, RecordField.keys, Shape.empties, RoleBinding.shape, RelationshipAction.shape]

theorem actionBinding_regular : ActionBinding.shape.Regular := by
  refine ⟨⟨?_, ?_, ?_, ?_⟩, ?_⟩ <;>
    simp [Fields.toList, RecordField.keys, Shape.empties, Fields.Regular, Shape.Regular,
      conditionEntry_regular, conditionsShape, conditionsOf]

theorem Document.shape_regular : Document.shape.Regular := by
  refine ⟨⟨?_, ?_, ?_, ?_⟩, ?_⟩ <;>
    simp [Fields.toList, RecordField.keys, Shape.empties, Fields.Regular, Shape.Regular, resourceType_regular,
      unionType_regular, action_regular, actionBinding_regular, Document.empty]

/-- The data of a text in a format, if it is sound and holds one value. -/
def FragmentFormat.datum? : FragmentFormat → ByteArray → Option Datum
  | yaml, bytes => Yaml.datum? bytes
  | json, bytes => Json.Bytes.datum? bytes

theorem Document.toOption_decode {format : FragmentFormat} {bytes : ByteArray} {datum : Datum}
    (holds : format.datum? bytes = some datum) (mapForm : Document.shape.mapForm datum = true) :
    (Document.decode format bytes).toOption = Document.shape.value? false datum := by
  cases format with
  | yaml =>
    simp only [Document.decode, toOption_mapError]
    exact Yaml.toOption_decode Document.shape_regular holds
  | json =>
    simp only [Document.decode, toOption_mapError]
    exact Json.toOption_decode Document.shape_regular .streamed holds mapForm

/-- Texts whose data differ in their spelling decode alike, in any two formats, unless one of them names a
field twice; such a text is no document. -/
theorem Document.spelling_is_immaterial {format : FragmentFormat} {bytes : ByteArray} {datum : Datum}
    (holds : format.datum? bytes = some datum) (mapForm : Document.shape.mapForm datum = true) :
    (∀ format' bytes' respelled, FragmentFormat.datum? format' bytes' = some respelled →
      Document.shape.Respelled datum respelled → Document.shape.namesOnce datum = true →
      Document.shape.namesOnce respelled = true →
      ∀ document, Document.decode format bytes = .ok document →
        Document.decode format' bytes' = .ok document) ∧
    (Document.shape.namesOnce datum = false → ∀ document, Document.decode format bytes ≠ .ok document) := by
  have reads := Document.toOption_decode holds mapForm
  constructor
  · intro format' bytes' respelled holds' edits once once' document decoded
    rw [← toOption_eq_some, reads] at decoded
    have same := edits.value?_eq_of_namesOnce Document.shape_regular once once'
    have mapForm' := Shape.mapForm_of_value? Document.shape_regular (same ▸ decoded)
    rw [← toOption_eq_some, Document.toOption_decode holds' mapForm', ← same, decoded]
  · intro twice document decoded
    rw [← toOption_eq_some, reads] at decoded
    have once := Shape.namesOnce_of_value? Document.shape_regular decoded
    rw [once] at twice
    cases twice

/-- A scalar that is a text and nothing else. -/
def word (text : String) : Datum := .scalar ⟨some text, some false, false⟩

/-- A resource type in JSON, and in YAML behind an unknown key and under the other spelling of its section;
and a text that spells a section in both ways. -/
theorem Document.role_respelled :
    Document.decode .yaml "note: 1\nresourceTypes:\n- name: role\n".toUTF8 =
        .ok ⟨[⟨"role", "", []⟩], [], [], []⟩ ∧
      ∀ document, Document.decode .json
        "\x7b\"resource_types\":[],\"unions\":[],\"resourceTypes\":[]\x7d".toUTF8 ≠ .ok document := by
  have plain : FragmentFormat.json.datum? "\x7b\"resource_types\":[\x7b\"name\":\"role\"\x7d]\x7d".toUTF8 =
      some (.map [("resource_types", .list [.map [("name", word "role")]])]) := by decide +kernel
  have camel : FragmentFormat.yaml.datum? "note: 1\nresourceTypes:\n- name: role\n".toUTF8 =
      some (.map [("note", word "1"), ("resourceTypes", .list [.map [("name", word "role")]])]) := by
    decide +kernel
  have both : FragmentFormat.json.datum?
      "\x7b\"resource_types\":[],\"unions\":[],\"resourceTypes\":[]\x7d".toUTF8 =
        some (.map [("resource_types", .list []), ("unions", .list []), ("resourceTypes", .list [])]) := by
    decide +kernel
  have respell : ∀ types, Document.shape.Edit (.map ([] ++ ("resource_types", types) :: []))
      (.map ([] ++ ("resourceTypes", types) :: [])) := by
    intro types
    exact .respell List.mem_cons_self List.mem_cons_self (by simp [RecordField.keys])
  have note : ∀ entries, Document.shape.Edit (.map entries) (.map (("note", word "1") :: entries)) := by
    intro entries
    exact .addUnknown (by simp [Fields.toList, RecordField.keys])
  constructor
  · apply (Document.spelling_is_immaterial plain (by decide +kernel)).1 .yaml _ _ camel
    · exact .trans _ _ _ (.rel _ _ (respell _)) (.rel _ _ (note _))
    · decide +kernel
    · decide +kernel
    · decide +kernel
  · exact (Document.spelling_is_immaterial both (by decide +kernel)).2 (by decide +kernel)

end PolicyDiagram
