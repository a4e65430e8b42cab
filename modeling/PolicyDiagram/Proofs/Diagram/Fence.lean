import PolicyDiagram.Diagram.Buffer
import PolicyDiagram.Policy.Fragment
import PolicyDiagram.Proofs.Diagram.Legible
import PolicyDiagram.Proofs.Diagram.Lines
import PolicyDiagram.Proofs.Outcome

/-! A diagram inside a fenced block. A line that the diagram starts itself begins with a tab, or is the header,
and cannot close the fence. Strings are shown as they are, so a string with a newline in it starts lines of its
own, and these can. -/

namespace PolicyDiagram.Diagram

/-- Whether a line ends a block that three backticks opened: at most three spaces, three or more backticks, and
blanks. -/
def closesFence (line : List Char) : Bool :=
  let body := line.dropWhile (· = ' ')
  (line.takeWhile (· = ' ')).length ≤ 3 && 3 ≤ (body.takeWhile (· = '\x60')).length &&
    (body.dropWhile (· = '\x60')).all Char.isWhitespace

/-- A text that is one fenced block: no line but the last one ends it. -/
def Fenced (text : String) : Prop :=
  ∃ inner, linesOf text = "```mermaid".toList :: (inner ++ ["```".toList, []]) ∧
    ∀ line ∈ inner, closesFence line = false

theorem linesOf_wrap (diagram : String) :
    linesOf (OutputFormat.markdown.wrap diagram) =
      "```mermaid".toList :: (linesOf diagram ++ ["```".toList, []]) := by
  have parts : OutputFormat.markdown.wrap diagram =
      "```mermaid" ++ "\n" ++ (diagram ++ "\n" ++ ("```" ++ "\n" ++ "")) := by
    simp [OutputFormat.wrap, OutputFormat.fenceTag, String.append_assoc]
  have opening : linesOf "```mermaid" = ["```mermaid".toList] := by decide
  have closing : linesOf "```" = ["```".toList] := by decide
  have last : linesOf "" = [[]] := by decide
  rw [parts, linesOf_between, linesOf_between, linesOf_between, opening, closing, last]
  rfl

theorem fenced_wrap_iff (diagram : String) : Fenced (OutputFormat.markdown.wrap diagram) ↔
    ∀ line ∈ linesOf diagram, closesFence line = false := by
  unfold Fenced
  rw [linesOf_wrap]
  constructor
  · rintro ⟨inner, same, open_⟩
    obtain rfl : linesOf diagram = inner := List.append_cancel_right (List.cons.inj same).2
    exact open_
  · intro open_
    exact ⟨_, rfl, open_⟩

theorem toList_text_head (line : Line) : ∃ rest, line.text.toList = '\t' :: rest := by
  cases line <;> exact ⟨_, by simp only [Line.text, String.toList_append]; rfl⟩

/-- The first of the lines that a line of the picture takes up begins with a tab. -/
theorem linesOf_text_head (line : Line) : ∃ head tail, linesOf line.text = ('\t' :: head) :: tail := by
  obtain ⟨rest, starts⟩ := toList_text_head line
  obtain ⟨head, tail, parts⟩ := List.exists_cons_of_ne_nil (List.splitOnP_ne_nil (· == '\n') rest)
  refine ⟨head, tail, ?_⟩
  have other : ('\t' == '\n') = false := by decide
  rw [linesOf, starts, List.splitOn, List.splitOnP_cons_eq_if_modifyHead, other, parts]
  rfl

theorem closesFence_tab (rest : List Char) : closesFence ('\t' :: rest) = false := by
  simp [closesFence]

example : closesFence "  ```` ".toList = true ∧ closesFence "\t```".toList = false ∧
    closesFence "```mermaid".toList = false := by decide

/-- A line can close the fence only if a string of the document starts it. -/
theorem closes_iff (document : Document) :
    (∃ line ∈ linesOf (ofDocument document), closesFence line = true) ↔
      ∃ shown ∈ (picture document).lines, ∃ line ∈ (linesOf shown.text).tail, closesFence line = true := by
  have header : closesFence "erDiagram".toList = false := by decide
  rw [linesOf_ofDocument]
  constructor
  · rintro ⟨line, member, closes⟩
    rcases List.mem_cons.mp member with rfl | below
    · rw [header] at closes
      contradiction
    · obtain ⟨shown, listed, inside⟩ := List.mem_flatMap.mp below
      obtain ⟨head, tail, parts⟩ := linesOf_text_head shown
      rw [parts] at inside
      rcases List.mem_cons.mp inside with rfl | behind
      · rw [closesFence_tab] at closes
        contradiction
      · exact ⟨shown, listed, line, by rwa [parts], closes⟩
  · rintro ⟨shown, listed, line, behind, closes⟩
    have inside : line ∈ linesOf shown.text := List.mem_of_mem_tail behind
    exact ⟨line, List.mem_cons_of_mem _ (List.mem_flatMap.mpr ⟨shown, listed, inside⟩), closes⟩

theorem linesOf_text_of_legible {line : Line} (whole : ∀ text ∈ line.strings, '\n' ∉ text.toList) :
    linesOf line.text = [line.text.toList] := by
  apply List.splitOn_eq_singleton
  cases line <;> simp_all [Line.strings, Line.text]

/-- The diagram stands unchanged between the two fence lines. It is fenced in unless a string that it shows brings
in a line that closes the fence, behind a newline of its own. -/
theorem fenced_unless_string_closes (document : Document) :
    linesOf (OutputFormat.markdown.wrap (ofDocument document)) =
        "```mermaid".toList :: (linesOf (ofDocument document) ++ ["```".toList, []]) ∧
      (¬Fenced (OutputFormat.markdown.wrap (ofDocument document)) ↔
        ∃ shown ∈ (picture document).lines,
          ∃ line ∈ (linesOf shown.text).tail, closesFence line = true) ∧
      ((∀ shown ∈ (picture document).lines, ∀ text ∈ shown.strings, '\n' ∉ text.toList) →
        Fenced (OutputFormat.markdown.wrap (ofDocument document))) := by
  have leak : ¬Fenced (OutputFormat.markdown.wrap (ofDocument document)) ↔
      ∃ shown ∈ (picture document).lines,
        ∃ line ∈ (linesOf shown.text).tail, closesFence line = true := by
    rw [fenced_wrap_iff, ← closes_iff]
    simp
  refine ⟨linesOf_wrap _, leak, ?_⟩
  intro whole
  apply Classical.byContradiction
  intro broken
  obtain ⟨shown, listed, line, behind, _⟩ := leak.mp broken
  rw [linesOf_text_of_legible (whole shown listed)] at behind
  contradiction

/-- A name that looks like a fence is fenced in all the same. -/
theorem fenced_name_of_backticks :
    (∀ shown ∈ (picture ⟨[⟨"```", "```", []⟩], [], [], []⟩).lines,
      ∀ text ∈ shown.strings, '\n' ∉ text.toList) ∧
      Fenced (OutputFormat.markdown.wrap (ofDocument ⟨[⟨"```", "```", []⟩], [], [], []⟩)) := by
  have whole : ∀ shown ∈ (picture ⟨[⟨"```", "```", []⟩], [], [], []⟩).lines,
      ∀ text ∈ shown.strings, '\n' ∉ text.toList := by decide +kernel
  exact ⟨whole, (fenced_unless_string_closes _).2.2 whole⟩

/-- A fragment can name a union so that the rest of its diagram is outside the block. -/
theorem leaking_name :
    Document.decode .json "\x7b\"unions\": [\x7b\"name\": \"a\\n```\\nb\"\x7d]\x7d".toUTF8 =
        .ok ⟨[], [⟨"a\n```\nb", []⟩], [], []⟩ ∧
      ¬Fenced (OutputFormat.markdown.wrap (ofDocument ⟨[], [⟨"a\n```\nb", []⟩], [], []⟩)) := by
  constructor
  · decide +kernel
  · rw [fenced_wrap_iff]
    decide +kernel

end PolicyDiagram.Diagram
