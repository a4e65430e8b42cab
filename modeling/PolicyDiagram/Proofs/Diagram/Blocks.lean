import PolicyDiagram.Proofs.Diagram.Fence

/-! The ends of the blocks of a diagram. Every entity has one block and every block one closing line, and no other
line looks like that one, whatever the strings in it are. So the closing lines of the text tell how many entities
there are, unless a string brings in lines of its own. -/

namespace PolicyDiagram.Diagram

/-- The line that ends a block, as it stands in the text. -/
def closingLine : List Char := "\t\x7d".toList

theorem two_lt_length_text {line : Line} (other : line ≠ .closing) : 2 < line.text.toList.length := by
  cases line with
  | closing => contradiction
  | _ =>
    simp only [Line.text, String.toList_append, List.length_append, String.reduceToList, List.length_cons,
      List.length_nil]
    omega

theorem toList_text_eq_closingLine {line : Line} : line.text.toList = closingLine ↔ line = .closing := by
  constructor
  · intro same
    apply Classical.byContradiction
    intro other
    have longer := two_lt_length_text other
    rw [same] at longer
    contradiction
  · rintro rfl
    decide

theorem count_closing_attributeLines (direct : List String) (groups : List (String × List String)) :
    (attributeLines direct groups).count .closing = 0 := by
  rw [List.count_eq_zero]
  simp [attributeLines]

theorem ResourcePicture.count_closing (resource : ResourcePicture) : resource.lines.count .closing = 1 := by
  have edges : (resource.edges.map fun edge => Line.relationship resource.name edge.2 edge.1).count
      .closing = 0 := by
    rw [List.count_eq_zero]
    simp
  simp [ResourcePicture.lines, count_closing_attributeLines, edges]

theorem UnionPicture.count_closing (union : UnionPicture) : union.lines.count .closing = 1 := by
  have edges : (union.members.map (Line.membership union.name)).count .closing = 0 := by
    rw [List.count_eq_zero]
    simp
  simp [UnionPicture.lines, count_closing_attributeLines, edges]

theorem count_closing_flatMap {α : Type} {lines : α → List Line}
    (one : ∀ a, (lines a).count .closing = 1) (parts : List α) :
    (parts.flatMap lines).count .closing = parts.length := by
  induction parts with
  | nil => rfl
  | cons a rest ih =>
    rw [List.flatMap_cons, List.count_append, one, ih, List.length_cons]
    omega

theorem Picture.count_closing (picture : Picture) :
    picture.lines.count .closing = picture.resources.length + picture.unions.length := by
  rw [Picture.lines, List.count_append, count_closing_flatMap ResourcePicture.count_closing,
    count_closing_flatMap UnionPicture.count_closing]

/-- No string that a diagram shows has a newline in it. -/
def Unbroken (document : Document) : Prop :=
  ∀ shown ∈ (picture document).lines, ∀ text ∈ shown.strings, '\n' ∉ text.toList

instance (document : Document) : Decidable (Unbroken document) :=
  inferInstanceAs (Decidable (∀ _ ∈ _, ∀ _ ∈ _, _))

theorem linesOf_of_unbroken {document : Document} (unbroken : Unbroken document) :
    linesOf (ofDocument document) =
      "erDiagram".toList :: (picture document).lines.map fun line => line.text.toList := by
  have single : (picture document).lines.map (fun line => linesOf line.text) =
      (picture document).lines.map fun line => [line.text.toList] :=
    List.map_congr_left fun line shown => linesOf_text_of_legible (unbroken line shown)
  rw [linesOf_ofDocument, List.map_eq_flatMap, List.flatMap_def, single, List.flatMap_def]

theorem count_closingLine {document : Document} (unbroken : Unbroken document) :
    (linesOf (ofDocument document)).count closingLine =
      document.resourceTypes.length + document.unions.length := by
  have header : ("erDiagram".toList == closingLine) = false := by decide
  have lines : ((picture document).lines.map fun line => line.text.toList).count closingLine =
      (picture document).lines.count .closing := by
    rw [List.count, List.countP_map, List.count]
    apply List.countP_congr
    intro line _
    simp only [Function.comp, beq_iff_eq]
    exact toList_text_eq_closingLine
  rw [linesOf_of_unbroken unbroken, List.count_cons, header, lines, Picture.count_closing]
  simp [picture]

end PolicyDiagram.Diagram
