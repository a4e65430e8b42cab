import PolicyDiagram.Proofs.Yaml.Literal
import PolicyDiagram.Proofs.Yaml.Quoted

/-! The text of printed lines at a column, where the first line continues what stands before it. -/

namespace PolicyDiagram.Yaml

open Data (Tree)

/-- Lines at a column. Empty lines are not indented. -/
def below (column : Nat) (lines : List (List Char)) : List Char :=
  lines.flatMap fun line => if line.head?.any isBreak then line else spaces column ++ line

/-- Lines at a column, the first of which is already there. -/
def onward (column : Nat) : List (List Char) → List Char
  | [] => []
  | first :: rest => first ++ below column rest

theorem below_append (column : Nat) (lines more : List (List Char)) :
    below column (lines ++ more) = below column lines ++ below column more := by
  simp [below]

theorem below_indent (column : Nat) (lines : List (List Char)) :
    below column (indent lines) = below (column + 2) lines := by
  induction lines with
  | nil => rfl
  | cons line lines ih =>
    simp only [below, indent, List.map_cons, List.flatMap_cons] at ih ⊢
    rw [ih]
    cases empty : line.head?.any isBreak with
    | true => simp [empty]
    | false =>
      have wider : spaces (column + 2) = spaces column ++ [' ', ' '] := by
        simp [spaces, List.replicate_succ']
      simp [wider, show isBreak ' ' = false from rfl]

theorem below_of_start {line : List Char} (start : line.head?.any isBreak = false) (column : Nat)
    (rest : List (List Char)) : below column (line :: rest) = spaces column ++ onward column (line :: rest) := by
  simp [below, onward, start]

theorem below_zero (lines : List (List Char)) : below 0 lines = lines.flatten := by
  simp [below, List.flatMap_id']

theorem onward_zero (lines : List (List Char)) : onward 0 lines = lines.flatten := by
  cases lines with
  | nil => rfl
  | cons first rest => rw [onward, below_zero, List.flatten_cons]

theorem onward_hang (column : Nat) (lines : List (List Char)) :
    onward column (hang lines) = onward (column + 2) lines := by
  cases lines with
  | nil => rfl
  | cons first rest => rw [hang, onward, onward, below_indent]

theorem onward_lead {lines : List (List Char)} (filled : lines ≠ []) (column : Nat) (text : List Char)
    (more : List (List Char)) :
    onward column (lead text lines ++ more) = text ++ (onward column lines ++ below column more) := by
  obtain ⟨first, rest, rfl⟩ := List.exists_cons_of_ne_nil filled
  rw [lead, List.cons_append, onward, onward, below_append, List.append_assoc, List.append_assoc]

/-! ## Lines of a text -/

theorem flatten_linesWithBreaks (text : List Char) : (linesWithBreaks text).flatten = text := by
  induction text with
  | nil => rfl
  | cons x text ih =>
    rw [linesWithBreaks]
    split
    · simp [ih]
    · split <;> simp_all

theorem linesWithBreaks_cons {x : Char} (unbroken : isBreak x = false) (rest : List Char) :
    (rest = [] ∧ linesWithBreaks (x :: rest) = [[x]]) ∨
      ∃ line more, linesWithBreaks rest = line :: more ∧ linesWithBreaks (x :: rest) = (x :: line) :: more := by
  cases lines : linesWithBreaks rest with
  | nil =>
    left
    refine ⟨?_, by simp [linesWithBreaks, unbroken, lines]⟩
    cases rest with
    | nil => rfl
    | cons y rest =>
      rw [linesWithBreaks] at lines
      split at lines
      · contradiction
      · split at lines <;> contradiction
  | cons line more => exact .inr ⟨line, more, rfl, by simp [linesWithBreaks, unbroken, lines]⟩

theorem head?_linesWithBreaks {text line : List Char} {more : List (List Char)}
    (lines : linesWithBreaks text = line :: more) : ∃ x rest, text = x :: rest ∧ line.head? = some x := by
  cases text with
  | nil => simp [linesWithBreaks] at lines
  | cons x rest =>
    refine ⟨x, rest, rfl, ?_⟩
    by_cases broken : isBreak x = true
    · rw [linesWithBreaks, if_pos broken] at lines
      obtain ⟨rfl, -⟩ := List.cons.inj lines
      rfl
    · rcases linesWithBreaks_cons (by simpa using broken) rest with ⟨-, whole⟩ | ⟨first, others, -, whole⟩
      · rw [whole] at lines
        obtain ⟨rfl, -⟩ := List.cons.inj lines
        rfl
      · rw [whole] at lines
        obtain ⟨rfl, -⟩ := List.cons.inj lines
        rfl

theorem ended_cons {x y : Char} {line : List Char} (head : line.head? = some y) :
    ended (x :: line) = x :: ended line := by
  obtain ⟨rest, rfl⟩ : ∃ rest, line = y :: rest := by
    cases line with
    | nil => simp at head
    | cons z rest => simp at head; exact ⟨rest, by rw [head]⟩
  simp only [ended, List.getLast?_cons_cons]
  split <;> rfl

theorem head?_ended {x : Char} {line : List Char} (head : line.head? = some x) :
    (ended line).head? = some x := by
  rw [ended]
  split <;> simp [head]

theorem below_linesWithBreaks {text : List Char} {column : Nat} (filled : text ≠ [])
    (first : onward column ((linesWithBreaks text).map ended) = inserted column text ++ closing text) :
    below column ((linesWithBreaks text).map ended) = opened column text ++ closing text := by
  cases lines : linesWithBreaks text with
  | nil =>
    obtain ⟨x, rest, rfl⟩ := List.exists_cons_of_ne_nil filled
    by_cases broken : isBreak x = true
    · simp [linesWithBreaks, broken] at lines
    · rcases linesWithBreaks_cons (by simpa using broken) rest with ⟨-, whole⟩ | ⟨first, others, -, whole⟩ <;>
        simp [whole] at lines
  | cons line more =>
    obtain ⟨x, rest, rfl, head⟩ := head?_linesWithBreaks lines
    rw [lines, List.map_cons] at first
    have start := head?_ended head
    by_cases broken : isBreak x = true
    · have same : below column ((line :: more).map ended) = onward column ((line :: more).map ended) := by
        simp [below, onward, start, broken]
      rw [same, List.map_cons, first]
      simp [opened, broken]
    · rw [List.map_cons, below_of_start (by simp [start, broken]), first]
      simp [opened, broken]

theorem onward_linesWithBreaks {text : List Char} (filled : text ≠ []) (column : Nat) :
    onward column ((linesWithBreaks text).map ended) = inserted column text ++ closing text := by
  induction text with
  | nil => contradiction
  | cons x rest ih =>
    -- A line end is a line by itself; any other character belongs to the first line of what follows it.
    by_cases broken : isBreak x = true
    · rw [linesWithBreaks, if_pos broken, List.map_cons, onward]
      have itself : ended [x] = [x] := by simp [ended, broken]
      cases rest with
      | nil => simp [itself, linesWithBreaks, below, inserted, closing, broken]
      | cons y rest =>
        have others := below_linesWithBreaks (List.cons_ne_nil y rest) (ih (List.cons_ne_nil y rest))
        have same : closing (x :: y :: rest) = closing (y :: rest) :=
          closing_append (List.cons_ne_nil y rest) [x]
        rw [others, itself, same, inserted, broken]
        simp [opened]
    · have unbroken : isBreak x = false := by simpa using broken
      rcases linesWithBreaks_cons unbroken rest with ⟨rfl, whole⟩ | ⟨line, more, lines, whole⟩
      · rw [whole]
        simp [onward, below, ended, inserted, closing, unbroken]
      · obtain ⟨y, rest, rfl, head⟩ := head?_linesWithBreaks lines
        have others := ih (List.cons_ne_nil y rest)
        have same : closing (x :: y :: rest) = closing (y :: rest) :=
          closing_append (List.cons_ne_nil y rest) [x]
        have step : inserted column (x :: y :: rest) = x :: inserted column (y :: rest) :=
          inserted_line (show ∀ y ∈ [x], isBreak y = false by simpa using unbroken) column (y :: rest)
        rw [lines, List.map_cons, onward] at others
        rw [whole, List.map_cons, onward, ended_cons head, List.cons_append, others, same, step]
        rfl

/-! ## Lines of a tree -/

theorem entryLines_inline {value : Tree} (inline : isInline value = true) (name : String)
    (rest : List (String × Tree)) :
    entryLines ((name, value) :: rest) =
      lead (name.toList ++ [':', ' ']) (treeLines value) ++ entryLines rest := by
  cases value <;> simp_all [entryLines]

theorem entryLines_list {items : List Tree} (filled : items ≠ []) (name : String)
    (rest : List (String × Tree)) :
    entryLines ((name, .list items) :: rest) =
      (ended (name.toList ++ [':']) :: itemLines items) ++ entryLines rest := by
  simp [entryLines, isInline, treeLines, filled]

theorem entryLines_record {entries : List (String × Tree)} (filled : entries ≠ []) (name : String)
    (rest : List (String × Tree)) :
    entryLines ((name, .record entries) :: rest) =
      (ended (name.toList ++ [':']) :: indent (entryLines entries)) ++ entryLines rest := by
  simp [entryLines, isInline, treeLines, filled]

theorem onward_key (column : Nat) (name : List Char) (lines more : List (List Char)) :
    onward column ((ended (name ++ [':']) :: lines) ++ more) =
      name ++ ':' :: '\n' :: (below column lines ++ below column more) := by
  have key : ended (name ++ [':']) = name ++ [':', '\n'] := by
    simp [ended, show isBreak ':' = false from rfl]
  rw [List.cons_append, onward, key, below_append]
  simp

end PolicyDiagram.Yaml
