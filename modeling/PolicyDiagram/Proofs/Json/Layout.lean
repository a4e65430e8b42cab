import PolicyDiagram.Json.Print
import PolicyDiagram.Proofs.Data.Verbal

/-! The texts of a tree of records, lists and texts, whatever blanks stand between their tokens. Both printers
write such texts. -/

namespace PolicyDiagram.Json

open Data (Tree VerbalItems VerbalEntries)

/-- Blanks and line ends. -/
def IsSpace (chars : List Char) : Prop := ∀ c ∈ chars, c = ' ' ∨ c = '\n'

mutual

/-- A text of a tree. -/
def Lays : Tree → List Char → Prop
  | .null, chars => chars = ['n', 'u', 'l', 'l']
  | .boolean _, _ | .natural _, _ => False
  | .text value, chars => chars = '"' :: (value.toList.flatMap escape ++ ['"'])
  | .list [], chars => ∃ space, IsSpace space ∧ chars = '[' :: (space ++ [']'])
  | .list (item :: items), chars => ∃ space first rest,
    IsSpace space ∧ Lays item first ∧ LaysItems items rest ∧ chars = '[' :: (space ++ (first ++ rest))
  | .record [], chars => ∃ space, IsSpace space ∧ chars = '\x7b' :: (space ++ ['\x7d'])
  | .record ((name, value) :: entries), chars => ∃ space gap first rest,
    IsSpace space ∧ IsSpace gap ∧ Lays value first ∧ LaysEntries entries rest ∧
      chars = '\x7b' :: (space ++ '"' :: (name.toList.flatMap escape ++ '"' :: ':' :: (gap ++ (first ++ rest))))

/-- What follows an item of a list, up to the bracket. -/
def LaysItems : List Tree → List Char → Prop
  | [], chars => ∃ space, IsSpace space ∧ chars = space ++ [']']
  | item :: items, chars => ∃ before space first rest,
    IsSpace before ∧ IsSpace space ∧ Lays item first ∧ LaysItems items rest ∧
      chars = before ++ ',' :: (space ++ (first ++ rest))

/-- What follows an entry of a record, up to the brace. -/
def LaysEntries : List (String × Tree) → List Char → Prop
  | [], chars => ∃ space, IsSpace space ∧ chars = space ++ ['\x7d']
  | (name, value) :: entries, chars => ∃ before space gap first rest,
    IsSpace before ∧ IsSpace space ∧ IsSpace gap ∧ Lays value first ∧ LaysEntries entries rest ∧
      chars = before ++ ',' :: (space ++ '"' ::
        (name.toList.flatMap escape ++ '"' :: ':' :: (gap ++ (first ++ rest))))

end

theorem isSpace_nil : IsSpace [] := by simp [IsSpace]

theorem intercalate_cons (separator first : List Char) (rest : List (List Char)) :
    separator.intercalate (first :: rest) = first ++ rest.flatMap (separator ++ ·) := by
  induction rest generalizing first with
  | nil => simp
  | cons second rest ih =>
    rw [List.intercalate_cons_cons, ih]
    simp

theorem toList_quoted (text : String) :
    (quoted text).toList = '"' :: (text.toList.flatMap escape ++ ['"']) := by
  simp [quoted]

mutual

theorem compact_lays : (tree : Tree) → tree.Verbal → Lays tree (compact tree).toList
  | .null, _ => rfl
  | .text value, _ => by
    simp only [Lays, compact, toList_quoted]
  | .list [], _ => ⟨[], isSpace_nil, rfl⟩
  | .list (item :: items), verbal => by
    obtain ⟨first, rest⟩ : item.Verbal ∧ VerbalItems items := verbal
    refine ⟨[], _, _, isSpace_nil, compact_lays item first, compactItems_lay items rest, ?_⟩
    simp [compact, compactItems, intercalate_cons, List.flatMap_map]
  | .record [], _ => ⟨[], isSpace_nil, rfl⟩
  | .record ((name, value) :: entries), verbal => by
    obtain ⟨-, first, rest⟩ : _ ∧ value.Verbal ∧ VerbalEntries entries := verbal
    refine ⟨[], [], _, _, isSpace_nil, isSpace_nil, compact_lays value first,
      compactEntries_lay entries rest, ?_⟩
    simp [compact, compactEntries, intercalate_cons, List.flatMap_map, toList_quoted]

theorem compactItems_lay : (items : List Tree) → VerbalItems items →
    LaysItems items ((compactItems items).flatMap (fun text => ",".toList ++ text.toList) ++ [']'])
  | [], _ => ⟨[], isSpace_nil, rfl⟩
  | item :: items, verbal =>
    ⟨[], [], _, _, isSpace_nil, isSpace_nil, compact_lays item verbal.1,
      compactItems_lay items verbal.2, by simp [compactItems]⟩

theorem compactEntries_lay : (entries : List (String × Tree)) → VerbalEntries entries →
    LaysEntries entries
      ((compactEntries entries).flatMap (fun text => ",".toList ++ text.toList) ++ ['\x7d'])
  | [], _ => ⟨[], isSpace_nil, rfl⟩
  | (_, value) :: entries, verbal =>
    ⟨[], [], [], _, _, isSpace_nil, isSpace_nil, isSpace_nil, compact_lays value verbal.2.1,
      compactEntries_lay entries verbal.2.2, by simp [compactEntries, toList_quoted]⟩

end

theorem isSpace_newline (depth : Nat) : IsSpace (newline depth).toList := by
  intro c member
  simp [newline, List.mem_replicate] at member
  rcases member with rfl | ⟨-, rfl⟩ <;> simp

mutual

theorem indented_lays (depth : Nat) : (tree : Tree) → tree.Verbal → Lays tree (indentedAt depth tree).toList
  | .null, _ => by simp [Lays, indentedAt]
  | .text value, _ => by
    simp only [Lays, indentedAt, toList_quoted]
  | .list [], _ => ⟨[], isSpace_nil, by simp [indentedAt, indentedItems, enclose]⟩
  | .list (item :: items), verbal => by
    obtain ⟨first, rest⟩ : item.Verbal ∧ VerbalItems items := verbal
    refine ⟨_, _, _, isSpace_newline (depth + 1), indented_lays (depth + 1) item first,
      indentedItems_lay depth items rest, ?_⟩
    simp [indentedAt, indentedItems, enclose, intercalate_cons, List.flatMap_map]
  | .record [], _ => ⟨[], isSpace_nil, by simp [indentedAt, indentedEntries, enclose]⟩
  | .record ((name, value) :: entries), verbal => by
    obtain ⟨-, first, rest⟩ : _ ∧ value.Verbal ∧ VerbalEntries entries := verbal
    refine ⟨_, [' '], _, _, isSpace_newline (depth + 1), by simp [IsSpace],
      indented_lays (depth + 1) value first, indentedEntries_lay depth entries rest, ?_⟩
    simp [indentedAt, indentedEntries, enclose, intercalate_cons, List.flatMap_map, toList_quoted]

theorem indentedItems_lay (depth : Nat) : (items : List Tree) → VerbalItems items →
    LaysItems items ((indentedItems (depth + 1) items).flatMap
      (fun text => ("," ++ newline (depth + 1)).toList ++ text.toList) ++ ((newline depth).toList ++ [']']))
  | [], _ => ⟨_, isSpace_newline depth, rfl⟩
  | item :: items, verbal =>
    ⟨[], _, _, _, isSpace_nil, isSpace_newline (depth + 1), indented_lays (depth + 1) item verbal.1,
      indentedItems_lay depth items verbal.2, by simp [indentedItems]⟩

theorem indentedEntries_lay (depth : Nat) : (entries : List (String × Tree)) → VerbalEntries entries →
    LaysEntries entries ((indentedEntries (depth + 1) entries).flatMap
      (fun text => ("," ++ newline (depth + 1)).toList ++ text.toList) ++ ((newline depth).toList ++ ['\x7d']))
  | [], _ => ⟨_, isSpace_newline depth, rfl⟩
  | (_, value) :: entries, verbal =>
    ⟨[], _, [' '], _, _, isSpace_nil, isSpace_newline (depth + 1), by simp [IsSpace],
      indented_lays (depth + 1) value verbal.2.1, indentedEntries_lay depth entries verbal.2.2,
      by simp [indentedEntries, toList_quoted]⟩

end

end PolicyDiagram.Json
