import PolicyDiagram.Proofs.Diagram.Picture

/-! The lines of the text of a diagram. Strings are shown as they are, so one that holds newlines makes a line
of the picture take up several lines of the text. -/

namespace PolicyDiagram.Diagram

/-- The lines of a text, which newlines separate. -/
def linesOf (text : String) : List (List Char) := text.toList.splitOn '\n'

theorem linesOf_between (first second : String) :
    linesOf (first ++ "\n" ++ second) = linesOf first ++ linesOf second := by
  unfold linesOf
  have joined : (first ++ "\n" ++ second).toList = first.toList ++ '\n' :: second.toList := by simp
  rw [joined]
  apply List.splitOnP_append_cons
  rfl

theorem linesOf_below (first : String) (lines : List Line) :
    linesOf (first ++ below lines) = linesOf first ++ lines.flatMap fun line => linesOf line.text := by
  induction lines generalizing first with
  | nil => simp [below]
  | cons line rest ih =>
    have head : first ++ below (line :: rest) = (first ++ "\n" ++ line.text) ++ below rest := by
      simp only [below, List.map_cons, String.join_cons, String.append_assoc]
    rw [head, ih, linesOf_between, List.flatMap_cons, List.append_assoc]

/-- The header stands alone on the first line; the other lines are those of the lines of the picture. -/
theorem linesOf_ofDocument (document : Document) :
    linesOf (ofDocument document) =
      "erDiagram".toList :: (picture document).lines.flatMap fun line => linesOf line.text := by
  have drawn : ofDocument document = header ++ below (picture document).lines := by
    rw [← Picture.text_eq]
    exact render_of_answers (ActionIndex.answers_build document.bindings)
  have alone : linesOf header = ["erDiagram".toList] := by decide
  rw [drawn, linesOf_below, alone]
  rfl

end PolicyDiagram.Diagram
