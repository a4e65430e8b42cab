import PolicyDiagram.Policy.Default

/-!
Merging fragments: section-wise concatenation in the order given. Only an empty list of fragments selects the
built-in document; fragments that are themselves empty do not.
-/

namespace PolicyDiagram.Document

def concat (fragments : List Document) : Document :=
  fragments.foldl (· ++ ·) ∅

def merge (fragments : List Document) : Document :=
  if fragments.isEmpty then builtIn else concat fragments

/-! ## Laws -/

theorem foldl_append (before : Document) (fragments : List Document) :
    fragments.foldl (· ++ ·) before = before ++ concat fragments := by
  induction fragments generalizing before with
  | nil => exact (append_empty before).symm
  | cons fragment rest ih =>
    rw [concat, List.foldl_cons, List.foldl_cons, ih, ih, empty_append, append_assoc]

@[simp] theorem concat_nil : concat [] = ∅ := rfl

@[simp] theorem concat_cons (fragment : Document) (rest : List Document) :
    concat (fragment :: rest) = fragment ++ concat rest := by
  rw [concat, List.foldl_cons, foldl_append, empty_append]

@[simp] theorem concat_append (first second : List Document) :
    concat (first ++ second) = concat first ++ concat second := by
  rw [concat, List.foldl_append, foldl_append]
  rfl

theorem merge_nil : merge [] = builtIn := rfl

theorem merge_cons (fragment : Document) (rest : List Document) :
    merge (fragment :: rest) = concat (fragment :: rest) := rfl

end PolicyDiagram.Document
