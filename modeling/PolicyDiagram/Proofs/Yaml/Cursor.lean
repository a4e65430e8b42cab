import Mathlib.Data.Bool.AllAny
import PolicyDiagram.Yaml.Lexeme
import PolicyDiagram.Yaml.Print

/-! Moves of a cursor in a sound stream: what it leaves and where it then stands. -/

namespace PolicyDiagram.Yaml

theorem short_of_append {α : Type} {whole front rest : List α} (here : whole = front ++ rest) :
    front.length < whole.length + 1 := by
  rw [here, List.length_append]
  omega

/-- A character that is neither blank nor a line end. -/
def IsSolid (x : Char) : Prop := isBlank x = false ∧ isBreak x = false

instance (x : Char) : Decidable (IsSolid x) := by unfold IsSolid; infer_instance

/-- Characters in front of which the search for a token ends: none at all, or one that starts a token. -/
def Lands (rest : List Char) : Prop :=
  ∀ x ∈ rest.head?, IsSolid x ∧ x ≠ '#' ∧ x ≠ '\uFEFF'

/-- So many blanks. -/
abbrev spaces (count : Nat) : List Char := List.replicate count ' '

theorem lands_nil : Lands [] := by simp [Lands]

theorem lands_cons {x : Char} {rest : List Char} :
    Lands (x :: rest) ↔ IsSolid x ∧ x ≠ '#' ∧ x ≠ '\uFEFF' := by
  simp [Lands]

/-! ## Words and pairs -/

theorem leading_run (p : Char → Bool) (text : List Char) :
    ∃ run rest, text = run ++ rest ∧ (∀ x ∈ run, p x = true) ∧ ∀ x ∈ rest.head?, p x = false := by
  induction text with
  | nil => exact ⟨[], [], rfl, by simp, by simp⟩
  | cons x text ih =>
    by_cases inside : p x = true
    · obtain ⟨run, rest, rfl, each, ends⟩ := ih
      exact ⟨x :: run, rest, rfl, by simpa [inside] using each, ends⟩
    · exact ⟨[], x :: text, rfl, by simp, by simpa using inside⟩

theorem leading_spaces (text : List Char) :
    ∃ count rest, text = spaces count ++ rest ∧ ∀ x ∈ rest.head?, x ≠ ' ' := by
  obtain ⟨run, rest, rfl, each, ends⟩ := leading_run (· == ' ') text
  have blank : run = spaces run.length := List.eq_replicate_of_mem (by simpa using each)
  exact ⟨run.length, rest, by rw [← blank], by simpa using ends⟩

theorem hasPair_cons (first second : Char → Bool) (x : Char) (rest : List Char) :
    hasPair first second (x :: rest) =
      ((rest.head?.any fun y => first x && second y) || hasPair first second rest) := by
  cases rest <;> simp [hasPair]

theorem hasPair_right {first second : Char → Bool} {before after : List Char}
    (none : hasPair first second (before ++ after) = false) : hasPair first second after = false := by
  induction before with
  | nil => exact none
  | cons x before ih =>
    rw [List.cons_append, hasPair_cons, Bool.or_eq_false_iff] at none
    exact ih none.2

theorem hasPair_left {first second : Char → Bool} {before after : List Char}
    (none : hasPair first second (before ++ after) = false) : hasPair first second before = false := by
  induction before with
  | nil => rfl
  | cons x before ih =>
    rw [List.cons_append, hasPair_cons, Bool.or_eq_false_iff] at none
    rw [hasPair_cons, ih none.2, Bool.or_false]
    cases before with
    | nil => rfl
    | cons y before => exact none.1

theorem hasPair_between {first second : Char → Bool} {before after : List Char} {x y : Char}
    (none : hasPair first second (before ++ x :: y :: after) = false) :
    (first x && second y) = false := by
  have behind := hasPair_right none
  rw [hasPair_cons, Bool.or_eq_false_iff] at behind
  exact behind.1

theorem hasPair_concat (first second : Char → Bool) (text : List Char) (y : Char) :
    hasPair first second (text ++ [y]) =
      (hasPair first second text || (text.getLast?.any first && second y)) := by
  induction text with
  | nil => rfl
  | cons x text ih =>
    rw [List.cons_append, hasPair_cons, ih, hasPair_cons]
    cases text with
    | nil => simp [hasPair]
    | cons z text => simp [Bool.or_assoc]

theorem partsWords_eq_false {x : Char} : partsWords x = false ↔ IsSolid x := by
  simp [partsWords, IsSolid]

namespace Cursor

theorem ask?_of_sound {c : Cursor} (sound : c.sound = true) (count : Nat) : c.ask? count = some c := by
  simp [ask?, holds, sound]

@[simp] theorem rest_skip (c : Cursor) (count : Nat) : (c.skip count).rest = c.rest.drop count := rfl

@[simp] theorem sound_skip (c : Cursor) (count : Nat) : (c.skip count).sound = c.sound := rfl

@[simp] theorem column_skip (c : Cursor) (count : Nat) :
    (c.skip count).mark.column = c.mark.column + count := rfl

@[simp] theorem line_skip (c : Cursor) (count : Nat) : (c.skip count).mark.line = c.mark.line := rfl

@[simp] theorem skip_zero (c : Cursor) : c.skip 0 = c := by
  simp [skip, Text.byteCount]

theorem skip_skip (c : Cursor) (m n : Nat) : (c.skip m).skip n = c.skip (m + n) := by
  have split : c.rest.take (m + n) = c.rest.take m ++ (c.rest.drop m).take n := List.take_add
  simp [skip, split, Text.byteCount_append, Nat.add_assoc]

theorem atSpace_eq {c : Cursor} : c.atSpace = c.rest.head?.all partsWords := by
  simp [atSpace, spacedAfter]
  rfl

theorem atSpace_of_solid {c : Cursor} {x : Char} {more : List Char} (here : c.rest = x :: more)
    (solid : IsSolid x) : c.atSpace = false := by
  simp [atSpace_eq, here, partsWords_eq_false.mpr solid]

theorem not_atDocumentIndicator {c : Cursor} (inside : 0 < c.mark.column) :
    c.atDocumentIndicator = false := by
  have : c.mark.column ≠ 0 := by omega
  simp [atDocumentIndicator, atTriple, this]

theorem lineEnd?_of_solid {c : Cursor} {x : Char} {more : List Char} (here : c.rest = x :: more)
    (solid : isBreak x = false) : c.lineEnd? = none := by
  have notReturn : x ≠ '\r' := by rintro rfl; simp [isBreak] at solid
  have notSeparator : (x == lineSeparator || x == paragraphSeparator) = false := by
    simp only [isBreak, Bool.or_eq_false_iff] at solid
    simp [solid]
  simp [lineEnd?, here, notReturn, notSeparator, solid]

theorem lineEnd?_of_unbroken {c : Cursor} {rest : List Char} (here : c.rest = rest)
    (unbroken : ∀ x ∈ rest.head?, isBreak x = false) : c.lineEnd? = none := by
  cases rest with
  | nil => simp [lineEnd?, here]
  | cons x rest => exact lineEnd?_of_solid here (unbroken x rfl)

/-- The line ends that are kept as they are. -/
def IsKept (x : Char) : Prop := x = '\n' ∨ x = lineSeparator ∨ x = paragraphSeparator

theorem IsKept.isBreak {x : Char} (kept : IsKept x) : isBreak x = true := by
  rcases kept with rfl | rfl | rfl <;> rfl

theorem lineEnd?_of_kept {c : Cursor} {x : Char} {more : List Char} (here : c.rest = x :: more)
    (kept : IsKept x) : c.lineEnd? = some (x, c.nextLineAfter 1) := by
  rcases kept with rfl | rfl | rfl <;> simp [lineEnd?, here, lineSeparator, paragraphSeparator, isBreak]

@[simp] theorem rest_nextLineAfter (c : Cursor) (count : Nat) :
    (c.nextLineAfter count).rest = c.rest.drop count := rfl

@[simp] theorem sound_nextLineAfter (c : Cursor) (count : Nat) :
    (c.nextLineAfter count).sound = c.sound := rfl

@[simp] theorem column_nextLineAfter (c : Cursor) (count : Nat) :
    (c.nextLineAfter count).mark.column = 0 := rfl

@[simp] theorem line_nextLineAfter (c : Cursor) (count : Nat) :
    (c.nextLineAfter count).mark.line = c.mark.line + 1 := rfl

/-! ## Places in a sound stream -/

/-- A cursor in a sound stream, in front of the characters that are left. -/
structure Before (c : Cursor) (rest : List Char) : Prop where
  rest : c.rest = rest
  sound : c.sound = true

namespace Before

variable {c : Cursor} {x : Char} {run rest : List Char}

theorem skip (here : c.Before (run ++ rest)) : (c.skip run.length).Before rest :=
  ⟨by simp [here.rest], here.sound⟩

theorem skip_one (here : c.Before (x :: rest)) : (c.skip 1).Before rest :=
  ⟨by simp [here.rest], here.sound⟩

theorem skip_spaces {count : Nat} (here : c.Before (spaces count ++ rest)) : (c.skip count).Before rest :=
  ⟨by simp [here.rest], here.sound⟩

theorem nextLine (here : c.Before (x :: rest)) : (c.nextLineAfter 1).Before rest :=
  ⟨by simp [here.rest], here.sound⟩

theorem ask? (here : c.Before rest) (count : Nat) : c.ask? count = some c := ask?_of_sound here.sound count

end Before

end Cursor

end PolicyDiagram.Yaml
