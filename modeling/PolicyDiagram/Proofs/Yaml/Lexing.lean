import PolicyDiagram.Proofs.Data.Verbal
import PolicyDiagram.Proofs.Yaml.Values

/-! The tokens of a printed tree. The induction is on the tree, from the place where its lines start to the
next token behind them, which stands no further to the right than the block around it. -/

namespace PolicyDiagram.Yaml

open Data (Tree VerbalItems VerbalEntries)

mutual

/-- The tokens of a tree. A list that is the value of a key opens no block of its own. -/
def treeKinds (valued : Bool) : Tree → List TokenKind
  | .null => [.scalar "null" .plain]
  | .boolean value => [.scalar (if value then "true" else "false") .plain]
  | .natural value => [.scalar (toString value) .plain]
  | .text value => [.scalar value (styleFor value.toList)]
  | .list items =>
    if items.isEmpty then [.flowSequenceStart, .flowSequenceEnd]
    else if valued then itemKinds items
    else .blockSequenceStart :: itemKinds items ++ [.blockEnd]
  | .record entries =>
    if entries.isEmpty then [.flowMappingStart, .flowMappingEnd]
    else .blockMappingStart :: entryKinds entries ++ [.blockEnd]

def itemKinds : List Tree → List TokenKind
  | [] => []
  | item :: rest => .blockEntry :: treeKinds false item ++ itemKinds rest

def entryKinds : List (String × Tree) → List TokenKind
  | [] => []
  | (name, value) :: rest =>
    [.key, .scalar name .plain, .value] ++ treeKinds true value ++ entryKinds rest

end

/-! ## Values on a line -/

theorem reads_of_arrives {v w : View} {tail : List Char} {k : Nat} {kinds : List TokenKind} {count : Nat}
    (goal : w = v.goto tail k kinds) (paid : count + kinds.length + 4 * tail.length ≤ 4 * v.rest.length)
    (each : ∀ l, Arrives l v → ∃ last, Fetches count l last ∧ Arrives last (v.goto tail k kinds)) :
    Reads v w := by
  subst goal
  intro l arrives
  obtain ⟨last, fetched, arrives⟩ := each l arrives
  refine ⟨count, last, fetched, arrives, ?_⟩
  simp [View.weight, View.goto]
  omega

theorem reads_scalar {v : View} {text tail : List Char} {column k : Nat}
    (here : v.rest = onward column (scalarLines text) ++ (spaces k ++ tail)) (indent : v.indent = column)
    (inside : column < v.column) (behind : k ≤ column) (lands : Lands tail) :
    Reads v (v.goto tail k [.scalar (String.ofList text) (styleFor text)]) := by
  cases style : styleFor text with
  | plain =>
    obtain ⟨line, filled, starts, -, -⟩ := plain_of_style style
    rw [onward_plain style, List.append_assoc] at here
    exact reads_of_arrives rfl (by simp [here]; omega) fun l arrives =>
      Lexer.fetches_plain arrives line filled starts here indent inside behind lands
  | doubleQuoted =>
    rw [onward_double style column 1] at here
    have here : v.rest = quoteOf false :: (between false 1 text ++ '\n' :: (spaces k ++ tail)) := by
      simp [here, quoteOf]
    exact reads_of_arrives rfl (by simp [here]; omega) fun l arrives =>
      Lexer.fetches_quoted arrives ⟨by simp, by simp, by simp⟩ (by omega) here (by omega) (by omega) lands
  | singleQuoted =>
    rw [onward_single style] at here
    have here : v.rest = quoteOf true :: (between true (column + 2) text ++ '\n' :: (spaces k ++ tail)) := by
      simp [here, quoteOf]
    exact reads_of_arrives rfl (by simp [here]; omega) fun l arrives =>
      Lexer.fetches_quoted arrives (quotable_of_style style).1 (by omega) here (by omega) (by omega) lands
  | literal =>
    obtain ⟨literal, filled, -⟩ := literal_of_style style
    rw [onward_literal style, List.append_assoc, List.cons_append, List.append_assoc] at here
    exact reads_of_arrives rfl (by simp [here]; omega) fun l arrives =>
      Lexer.fetches_literal arrives literal filled here indent inside behind lands
  | folded => exact absurd style (styleFor_ne_folded text)

theorem reads_inline {tree : Tree} (verbal : tree.Verbal) (inline : isInline tree = true) {v : View}
    {tail : List Char} {column k : Nat} (here : v.rest = onward column (treeLines tree) ++ (spaces k ++ tail))
    (indent : v.indent = column) (inside : column < v.column) (behind : k ≤ column) (lands : Lands tail)
    (valued : Bool) : Reads v (v.goto tail k (treeKinds valued tree)) := by
  cases tree with
  | null =>
    have here : v.rest = "null".toList ++ '\n' :: (spaces k ++ tail) := here
    have line : Cursor.PlainLine "null".toList :=
      { chars := List.all_iff_forall_prop.mp (by decide)
        colons := by decide
        hashes := by decide
        first := by rintro _ ⟨⟩; decide
        last := by rintro _ ⟨⟩; decide }
    exact reads_of_arrives rfl (by simp [here, treeKinds]; omega) fun l arrives =>
      Lexer.fetches_plain arrives line (by decide) (by decide) here indent inside behind lands
  | boolean value => exact absurd verbal id
  | natural value => exact absurd verbal id
  | text value =>
    have here : v.rest = onward column (scalarLines value.toList) ++ (spaces k ++ tail) := here
    simpa [treeKinds] using reads_scalar here indent inside behind lands
  | list items =>
    have empty : items = [] := by simpa [isInline] using inline
    subst empty
    have here : v.rest = '[' :: ']' :: '\n' :: (spaces k ++ tail) := here
    exact reads_of_arrives rfl (by simp [here, treeKinds]; omega) fun l arrives =>
      Lexer.fetches_brackets arrives .list here (by omega) lands
  | record entries =>
    have empty : entries = [] := by simpa [isInline] using inline
    subst empty
    have here : v.rest = '\x7b' :: '\x7d' :: '\n' :: (spaces k ++ tail) := here
    exact reads_of_arrives rfl (by simp [here, treeKinds]; omega) fun l arrives =>
      Lexer.fetches_brackets arrives .record here (by omega) lands

/-! ## Keys and dashes -/

theorem reads_key_line {v : View} {name : String} {rest : List Char} (word : Data.IsKeyName name)
    (here : v.rest = name.toList ++ ':' :: ' ' :: rest) (allowed : v.allowed = true)
    (inside : v.indent ≤ v.column) (lands : Lands rest) :
    Reads v { v.enter .blockMappingStart with
      rest, column := v.column + name.toList.length + 2, allowed := false
      kinds := (v.enter .blockMappingStart).kinds ++ [.key, .scalar name .plain, .value] } := by
  intro l arrives
  obtain ⟨last, fetched, ready⟩ := Lexer.fetches_key arrives word here rfl allowed inside
  refine ⟨2, last, fetched, Lexer.arrives_of_spaces { ready with sound := ready.sound } (.inl ready.keys)
    (show last.cursor.rest = spaces 1 ++ rest from ready.rest) lands (by simp [ready.column])
    (by simp [ready.allowed]), ?_⟩
  have filled := List.length_pos_iff.mpr word.1
  have entered := View.weight_enter v .blockMappingStart
  simp [View.weight, here] at entered ⊢
  omega

theorem reads_key_below {v : View} {name : String} {rest : List Char} {column : Nat}
    (word : Data.IsKeyName name) (here : v.rest = name.toList ++ ':' :: '\n' :: (spaces column ++ rest))
    (allowed : v.allowed = true) (inside : v.indent ≤ v.column) (lands : Lands rest) :
    Reads v ((v.enter .blockMappingStart).goto rest column [.key, .scalar name .plain, .value]) := by
  intro l arrives
  obtain ⟨last, fetched, ready⟩ := Lexer.fetches_key arrives word here rfl allowed inside
  refine ⟨2, last, fetched, Lexer.arrives_of_lineEnd { ready with sound := ready.sound } (.inl ready.keys)
    (by simp [ready.rest, View.goto]) lands rfl, ?_⟩
  have filled := List.length_pos_iff.mpr word.1
  have entered := View.weight_enter v .blockMappingStart
  simp [View.weight, View.goto, here] at entered ⊢
  omega

theorem reads_dash {v : View} {rest : List Char} (here : v.rest = '-' :: ' ' :: rest)
    (allowed : v.allowed = true) (inside : v.indent ≤ v.column) (lands : Lands rest) :
    Reads v ((v.enter .blockSequenceStart).goto rest (v.column + 2) [.blockEntry]) := by
  intro l arrives
  obtain ⟨last, fetched, ready⟩ := Lexer.fetches_dash arrives here allowed inside
  refine ⟨1, last, fetched, Lexer.arrives_of_spaces { ready with sound := ready.sound } (.inl ready.keys)
    (show last.cursor.rest = spaces 1 ++ rest from ready.rest) lands (by simp [ready.column, View.goto])
    (by simp [ready.allowed, View.goto]), ?_⟩
  have entered := View.weight_enter v .blockSequenceStart
  simp [View.weight, View.goto, here] at entered ⊢
  omega

/-! ## Lines behind one another -/

/-- Lines whose first one starts with a token. -/
def Starts (lines : List (List Char)) : Prop :=
  ∃ x first rest, lines = (x :: first) :: rest ∧ IsSolid x ∧ x ≠ '#' ∧ x ≠ '\uFEFF'

theorem Starts.below {lines : List (List Char)} (starts : Starts lines) (column : Nat) :
    below column lines = spaces column ++ onward column lines := by
  obtain ⟨x, first, rest, rfl, solid, -⟩ := starts
  exact below_of_start (by simp [solid.2]) column rest

theorem Starts.lands {lines : List (List Char)} (starts : Starts lines) (column : Nat) (more : List Char) :
    Lands (onward column lines ++ more) := by
  obtain ⟨x, first, rest, rfl, start⟩ := starts
  exact lands_cons.mpr start

/-- Tokens that are read from a text on, at a column of a block with an indentation, up to a place. -/
def ReadsFrom (text : List Char) (column indent : Nat) (tail : List Char) (k : Nat) (kinds : List TokenKind) :
    Prop :=
  ∀ v : View, v.rest = text → v.column = column → v.allowed = true → v.indent = indent →
    Reads v (v.goto tail k kinds)

/-- What stands behind a part of some lines: the rest of the lines, or what follows them. -/
theorem rest_of_lines {lines : List (List Char)} {kinds : List TokenKind} {column k : Nat}
    {tail : List Char} (behind : k ≤ column) (lands : Lands tail)
    (others : lines = [] ∧ kinds = [] ∨
      Starts lines ∧ ReadsFrom (onward column lines ++ (spaces k ++ tail)) column column tail k kinds) :
    ∃ k' tail', below column lines ++ (spaces k ++ tail) = spaces k' ++ tail' ∧ k' ≤ column ∧ Lands tail' ∧
      ReadsFrom tail' k' column tail k kinds := by
  rcases others with ⟨rfl, rfl⟩ | ⟨starts, reads⟩
  · refine ⟨k, tail, rfl, behind, lands, ?_⟩
    intro v here column allowed _
    have same : v.goto tail k [] = v := by simp [View.goto, ← here, ← column, ← allowed]
    rw [same]
    exact .refl v
  · refine ⟨column, onward column lines ++ (spaces k ++ tail), ?_, Nat.le_refl _, starts.lands column _, reads⟩
    rw [starts.below, List.append_assoc]

/-! ## Starts of lines -/

theorem starts_of_head {line : List Char} {rest : List (List Char)} {x : Char} (head : line.head? = some x)
    (start : IsSolid x ∧ x ≠ '#' ∧ x ≠ '\uFEFF') : Starts (line :: rest) := by
  obtain ⟨first, rfl⟩ := List.head?_eq_some_iff.mp head
  exact ⟨x, first, rest, rfl, start⟩

theorem starts_lead {lines : List (List Char)} (filled : lines ≠ []) {x : Char} {text : List Char}
    (start : IsSolid x ∧ x ≠ '#' ∧ x ≠ '\uFEFF') (more : List (List Char)) :
    Starts (lead (x :: text) lines ++ more) := by
  obtain ⟨first, rest, rfl⟩ := List.exists_cons_of_ne_nil filled
  exact starts_of_head rfl start

theorem Starts.ne_nil {lines : List (List Char)} (starts : Starts lines) : lines ≠ [] := by
  obtain ⟨x, first, rest, rfl, -⟩ := starts
  exact List.cons_ne_nil _ _

theorem start_of_letter {x : Char} (letter : Data.IsLetter x) : IsSolid x ∧ x ≠ '#' ∧ x ≠ '\uFEFF' := by
  have solid := Cursor.solid_of_letter letter
  refine ⟨solid.1, solid.2.2.1, ?_⟩
  rintro rfl
  exact absurd letter (by decide)

theorem starts_scalarLines (text : List Char) : Starts (scalarLines text) := by
  cases style : styleFor text with
  | doubleQuoted =>
    simp only [scalarLines, style]
    exact starts_of_head rfl (by decide)
  | literal =>
    simp only [scalarLines, style]
    exact starts_of_head (head?_ended rfl) (by decide)
  | singleQuoted =>
    simp only [scalarLines, style]
    generalize quoted : ['\''] ++ (text.flatMap fun c => if c = '\'' then ['\'', '\''] else [c]) ++ ['\''] = body
    cases lines : linesWithBreaks body with
    | nil =>
      have whole := flatten_linesWithBreaks body
      rw [lines, ← quoted] at whole
      contradiction
    | cons line more =>
      obtain ⟨x, rest, whole, head⟩ := head?_linesWithBreaks lines
      obtain ⟨rfl, -⟩ := List.cons.inj (quoted.trans whole)
      exact starts_of_head (head?_ended head) (by decide)
  | plain =>
    obtain ⟨line, filled, starts, -, printable⟩ := plain_of_style style
    obtain ⟨x, rest, rfl⟩ := List.exists_cons_of_ne_nil filled
    have first := line.first x rfl
    have solid := (line.chars x (by simp)).resolve_left first.1
    simp only [scalarLines, style]
    refine starts_of_head (head?_ended rfl) ⟨solid, first.2, ?_⟩
    rintro rfl
    exact absurd (printable '\uFEFF' (by simp)) (by decide)
  | folded => exact absurd style (styleFor_ne_folded text)

mutual

theorem starts_treeLines : {tree : Tree} → tree.Verbal → Starts (treeLines tree)
  | .null, _ => starts_of_head rfl (by decide)
  | .text value, _ => starts_scalarLines value.toList
  | .list items, verbal => by
    cases items with
    | nil => exact starts_of_head rfl (by decide)
    | cons item rest => exact starts_itemLines verbal (List.cons_ne_nil _ _)
  | .record entries, verbal => by
    cases entries with
    | nil => exact starts_of_head rfl (by decide)
    | cons entry rest => exact starts_entryLines verbal (List.cons_ne_nil _ _)

theorem starts_itemLines : {items : List Tree} → VerbalItems items → items ≠ [] → Starts (itemLines items)
  | item :: rest, verbal, _ => by
    obtain ⟨x, first, others, lines, -⟩ := starts_treeLines verbal.1
    rw [itemLines, lines]
    refine starts_lead ?_ (by decide) _
    split <;> simp [hang]

theorem starts_entryLines : {entries : List (String × Tree)} → VerbalEntries entries → entries ≠ [] →
    Starts (entryLines entries)
  | (name, value) :: rest, verbal, _ => by
    obtain ⟨filled, -, letters⟩ := verbal.1
    obtain ⟨x, others, whole⟩ := List.exists_cons_of_ne_nil filled
    have start := start_of_letter (letters x (by simp [whole]))
    have lines := (starts_treeLines verbal.2.1).ne_nil
    by_cases inline : isInline value = true
    · rw [entryLines_inline inline, whole]
      exact starts_lead lines start _
    · have head : (ended (name.toList ++ [':'])).head? = some x := head?_ended (by simp [whole])
      cases value with
      | list items =>
        rw [entryLines_list (by simpa [isInline] using inline)]
        exact starts_of_head head start
      | record entries =>
        rw [entryLines_record (by simpa [isInline] using inline)]
        exact starts_of_head head start
      | _ => exact absurd rfl inline

end

/-! ## Trees -/

theorem reads_closed {v : View} {kind : TokenKind} {kinds : List TokenKind} {tail : List Char}
    {column k : Nat} (at' : v.column = column) (inside : v.indent < column) (behind : k < column)
    (reads : Reads v ((v.enter kind).goto tail k kinds)) :
    Reads v (v.goto tail k (kind :: kinds ++ [.blockEnd])) := by
  have entered : v.enter kind =
      { v with indent := column, outer := v.indent :: v.outer, kinds := v.kinds ++ [kind] } := by
    simp [View.enter, at', inside]
  rw [entered] at reads
  have shown : Reads v { v.goto tail k (kind :: kinds) with indent := column, outer := v.indent :: v.outer } := by
    simpa [View.goto] using reads
  have popped := Reads.pop (show ((v.goto tail k (kind :: kinds)).column : Int) < column by
    simpa [View.goto] using behind) shown
  simpa [View.goto] using popped

theorem enter_self {v : View} (inside : v.indent = v.column) (kind : TokenKind) : v.enter kind = v := by
  simp [View.enter, inside]

theorem reads_entry_inline {v : View} {name : String} {value : Tree} {column k : Nat} {tail : List Char}
    (word : Data.IsKeyName name) (verbal : value.Verbal) (inline : isInline value = true)
    (here : v.rest = name.toList ++ ':' :: ' ' :: (onward column (treeLines value) ++ (spaces k ++ tail)))
    (at' : v.column = column) (allowed : v.allowed = true) (inside : v.indent ≤ column) (behind : k ≤ column)
    (lands : Lands tail) :
    Reads v ((v.enter .blockMappingStart).goto tail k
      ([.key, .scalar name .plain, .value] ++ treeKinds true value)) := by
  have key := reads_key_line word here allowed (by omega) ((starts_treeLines verbal).lands column _)
  obtain ⟨w, entered⟩ : ∃ w, w = v.enter .blockMappingStart := ⟨_, rfl⟩
  have indent : w.indent = column := by rw [entered, View.indent_enter (by omega), at']
  rw [← entered] at key ⊢
  have value := reads_inline verbal inline (v := { w with
    rest := _, column := v.column + name.toList.length + 2, allowed := false
    kinds := w.kinds ++ [.key, .scalar name .plain, .value] }) rfl indent
    (show column < v.column + name.toList.length + 2 by omega) behind lands true
  exact key.trans (by simpa [View.goto] using value)

theorem reads_entry_below {v : View} {name : String} {lines : List (List Char)} {kinds : List TokenKind}
    {column margin k : Nat} {tail : List Char} (word : Data.IsKeyName name)
    (here : v.rest = name.toList ++ ':' :: '\n' :: (below margin lines ++ (spaces k ++ tail)))
    (at' : v.column = column) (allowed : v.allowed = true) (inside : v.indent ≤ column) (starts : Starts lines)
    (value : ReadsFrom (onward margin lines ++ (spaces k ++ tail)) margin column tail k kinds) :
    Reads v ((v.enter .blockMappingStart).goto tail k ([.key, .scalar name .plain, .value] ++ kinds)) := by
  rw [starts.below, List.append_assoc] at here
  have key := reads_key_below word here allowed (by omega) (starts.lands margin _)
  have indent : (v.enter .blockMappingStart).indent = column := by rw [View.indent_enter (by omega), at']
  have read := value ((v.enter .blockMappingStart).goto _ margin [.key, .scalar name .plain, .value])
    rfl rfl rfl indent
  rw [View.goto_goto] at read
  exact key.trans read

mutual

theorem reads_block : {tree : Tree} → tree.Verbal → isInline tree = false → ∀ {v : View} {column k : Nat}
    {tail : List Char}, v.rest = onward column (treeLines tree) ++ (spaces k ++ tail) → v.column = column →
    v.allowed = true → v.indent < column → k < column → Lands tail →
    Reads v (v.goto tail k (treeKinds false tree))
  | .list items, verbal, block, v, column, k, tail, here, at', allowed, inside, behind, lands => by
    have filled : items ≠ [] := by simpa [isInline] using block
    have lines : treeLines (.list items) = itemLines items := by simp [treeLines, filled]
    have kinds : treeKinds false (.list items) = .blockSequenceStart :: itemKinds items ++ [.blockEnd] := by
      simp [treeKinds, filled]
    rw [lines] at here
    rw [kinds]
    exact reads_closed at' inside behind
      (reads_items verbal filled here at' allowed (by omega) (by omega) lands)
  | .record entries, verbal, block, v, column, k, tail, here, at', allowed, inside, behind, lands => by
    have filled : entries ≠ [] := by simpa [isInline] using block
    have lines : treeLines (.record entries) = entryLines entries := by simp [treeLines, filled]
    have kinds : treeKinds false (.record entries) =
        .blockMappingStart :: entryKinds entries ++ [.blockEnd] := by
      simp [treeKinds, filled]
    rw [lines] at here
    rw [kinds]
    exact reads_closed at' inside behind
      (reads_entries verbal filled here at' allowed (by omega) (by omega) lands)

theorem reads_items : {items : List Tree} → VerbalItems items → items ≠ [] → ∀ {v : View} {column k : Nat}
    {tail : List Char}, v.rest = onward column (itemLines items) ++ (spaces k ++ tail) → v.column = column →
    v.allowed = true → v.indent ≤ column → k ≤ column → Lands tail →
    Reads v ((v.enter .blockSequenceStart).goto tail k (itemKinds items))
  | item :: rest, verbal, _, v, column, k, tail, here, at', allowed, inside, behind, lands => by
    -- The induction is on the items: those behind the first one are read in the block that it opens.
    have others : itemLines rest = [] ∧ itemKinds rest = [] ∨ Starts (itemLines rest) ∧
        ReadsFrom (onward column (itemLines rest) ++ (spaces k ++ tail)) column column tail k
          (itemKinds rest) := by
      by_cases empty : rest = []
      · subst empty
        exact .inl ⟨rfl, rfl⟩
      · refine .inr ⟨starts_itemLines verbal.2 empty, fun w here at' allowed indent => ?_⟩
        have reads := reads_items verbal.2 empty here at' allowed (by omega) behind lands
        rwa [enter_self (by omega)] at reads
    obtain ⟨k', tail', shape, behind', lands', finish⟩ := rest_of_lines behind lands others
    have starts := starts_treeLines verbal.1
    -- What stands behind the dash starts there, be it a text or a block.
    obtain ⟨text, lines, starts', value⟩ : ∃ text,
        onward column (if isInline item then treeLines item else hang (treeLines item)) = text ∧
          (∀ more, Lands (text ++ more)) ∧
            ReadsFrom (text ++ (spaces k' ++ tail')) (column + 2) column tail' k' (treeKinds false item) := by
      by_cases inline : isInline item = true
      · exact ⟨_, by rw [if_pos inline], starts.lands column, fun u here at' _ indent =>
          reads_inline verbal.1 inline here indent (by omega) behind' lands' false⟩
      · exact ⟨_, by rw [if_neg inline, onward_hang], starts.lands (column + 2), fun u here at' allowed indent =>
          reads_block verbal.1 (by simpa using inline) here at' allowed (by omega) (by omega) lands'⟩
    have filled : (if isInline item then treeLines item else hang (treeLines item)) ≠ [] := by
      obtain ⟨x, first, others, lines, -⟩ := starts
      rw [lines]
      split <;> simp [hang]
    have here : v.rest = '-' :: ' ' :: (text ++ (spaces k' ++ tail')) := by
      rw [here, itemLines, onward_lead filled, lines, List.append_assoc, List.append_assoc, shape]
      rfl
    have dash := reads_dash here allowed (by omega) (starts' _)
    obtain ⟨w, entered⟩ : ∃ w, w = v.enter .blockSequenceStart := ⟨_, rfl⟩
    have indent : w.indent = column := by rw [entered, View.indent_enter (by omega), at']
    rw [← entered] at dash ⊢
    have value := value (w.goto _ (v.column + 2) [.blockEntry]) rfl (by simp [View.goto, at']) rfl indent
    have last := finish (w.goto tail' k' ([.blockEntry] ++ treeKinds false item)) rfl rfl rfl indent
    rw [View.goto_goto] at value last
    exact dash.trans (value.trans last)

theorem reads_entries : {entries : List (String × Tree)} → VerbalEntries entries → entries ≠ [] →
    ∀ {v : View} {column k : Nat} {tail : List Char},
    v.rest = onward column (entryLines entries) ++ (spaces k ++ tail) → v.column = column →
    v.allowed = true → v.indent ≤ column → k ≤ column → Lands tail →
    Reads v ((v.enter .blockMappingStart).goto tail k (entryKinds entries))
  | (name, value) :: rest, verbal, _, v, column, k, tail, here, at', allowed, inside, behind, lands => by
    have others : entryLines rest = [] ∧ entryKinds rest = [] ∨ Starts (entryLines rest) ∧
        ReadsFrom (onward column (entryLines rest) ++ (spaces k ++ tail)) column column tail k
          (entryKinds rest) := by
      by_cases empty : rest = []
      · subst empty
        exact .inl ⟨rfl, rfl⟩
      · refine .inr ⟨starts_entryLines verbal.2.2 empty, fun w here at' allowed indent => ?_⟩
        have reads := reads_entries verbal.2.2 empty here at' allowed (by omega) behind lands
        rwa [enter_self (by omega)] at reads
    obtain ⟨k', tail', shape, behind', lands', finish⟩ := rest_of_lines behind lands others
    obtain ⟨word, content, -⟩ := verbal
    -- A value stands behind its key or below it: a list at the column of the key, a record further in.
    have first : Reads v ((v.enter .blockMappingStart).goto tail' k'
        ([.key, .scalar name .plain, .value] ++ treeKinds true value)) := by
      by_cases inline : isInline value = true
      · have here : v.rest =
            name.toList ++ ':' :: ' ' :: (onward column (treeLines value) ++ (spaces k' ++ tail')) := by
          rw [here, entryLines_inline inline, onward_lead (starts_treeLines content).ne_nil]
          simp only [List.append_assoc, List.cons_append, List.nil_append, shape]
        exact reads_entry_inline word content inline here at' allowed inside behind' lands'
      · cases value with
        | list items =>
          have filled : items ≠ [] := by simpa [isInline] using inline
          have here : v.rest =
              name.toList ++ ':' :: '\n' :: (below column (itemLines items) ++ (spaces k' ++ tail')) := by
            rw [here, entryLines_list filled, onward_key]
            simp only [List.append_assoc, List.cons_append, shape]
          have kinds : treeKinds true (.list items) = itemKinds items := by simp [treeKinds, filled]
          rw [kinds]
          refine reads_entry_below word here at' allowed inside (starts_itemLines content filled) ?_
          intro u here at' allowed indent
          have reads := reads_items content filled here at' allowed (by omega) behind' lands'
          rwa [enter_self (by omega)] at reads
        | record entries =>
          have filled : entries ≠ [] := by simpa [isInline] using inline
          have lines : treeLines (.record entries) = entryLines entries := by simp [treeLines, filled]
          have here : v.rest = name.toList ++ ':' :: '\n' ::
              (below (column + 2) (treeLines (.record entries)) ++ (spaces k' ++ tail')) := by
            rw [here, entryLines_record filled, onward_key, below_indent, lines]
            simp only [List.append_assoc, List.cons_append, shape]
          have kinds : treeKinds true (.record entries) = treeKinds false (.record entries) := by
            simp [treeKinds]
          rw [kinds]
          refine reads_entry_below word here at' allowed inside (starts_treeLines content) ?_
          intro u here at' allowed indent
          exact reads_block content (by simpa using inline) here at' allowed (by omega) (by omega) lands'
        | _ => exact absurd rfl inline
    have indent : (v.enter .blockMappingStart).indent = column := by rw [View.indent_enter (by omega), at']
    have last := finish ((v.enter .blockMappingStart).goto tail' k'
      ([.key, .scalar name .plain, .value] ++ treeKinds true value)) rfl rfl rfl indent
    rw [View.goto_goto] at last
    exact first.trans last

end

/-! ## Documents -/

theorem fetches_end {l : Lexer} {v : View} (arrives : Arrives l v) (rest : v.rest = []) (column : v.column = 0)
    (indent : v.indent = 0) (outer : v.outer = [-1]) :
    ∃ last, Fetches 1 l last ∧ last.ended = true ∧ last.keys = [none] ∧
      last.queue.map Token.kind = v.kinds ++ [.blockEnd, .streamEnd] := by
  obtain ⟨r, going, fetched, ready⟩ := Lexer.settle?_of_arrives arrives (by omega)
  have ends : r.cursor.peek? = none := by simp [Cursor.peek?, ready.rest, rest]
  have start : r.cursor.mark.column = 0 := ready.column.trans column
  have closed : Lexer.closedTo (-1) r.indent r.outer 0 = (-1, [], 1) := by
    rw [ready.indent, ready.outer, indent, outer]
    rfl
  have outside := Lexer.inFlow_of_keys ready.keys
  obtain ⟨last, ended⟩ : ∃ last : Lexer, last = { r with
      keyAllowed := false, ended := true, indent := -1, outer := []
      queue := r.queue ++ [Token.mk .blockEnd r.cursor.mark r.cursor.mark] }.take 0 .streamEnd := ⟨_, rfl⟩
  have read : r.read? = some last := by
    simp [Lexer.read?, ends, Lexer.endStream?, start, Lexer.closeBlocks, closed, Lexer.inFlow, ready.keys,
      Lexer.dropKey?, ended]
  refine ⟨last, .one going (by rw [fetched, read]), by rw [ended]; rfl, by rw [ended]; exact ready.keys, ?_⟩
  simp [ended, Lexer.take, Lexer.enqueue, ready.kinds]

theorem fetches_document {entries : List (String × Tree)} (verbal : VerbalEntries entries)
    (filled : entries ≠ []) :
    ∃ count last, Fetches count (.start ⟨(treeLines (.record entries)).flatten, true⟩) last ∧
      last.ended = true ∧ last.keys = [none] ∧
      last.queue.map Token.kind = .blockMappingStart :: entryKinds entries ++ [.blockEnd, .streamEnd] ∧
      count + last.queue.length ≤ 4 * (treeLines (.record entries)).flatten.length + 8 := by
  -- The lines of a document are those of its entries, at the first column and with nothing behind them.
  have lines : treeLines (.record entries) = entryLines entries := by simp [treeLines, filled]
  have text : (treeLines (.record entries)).flatten = onward 0 (entryLines entries) ++ (spaces 0 ++ []) := by
    rw [lines, ← onward_zero]
    simp
  obtain ⟨start, begun⟩ : ∃ start : View,
      start = ⟨(treeLines (.record entries)).flatten, 0, true, -1, [], []⟩ := ⟨_, rfl⟩
  have arrives : Arrives (.start ⟨(treeLines (.record entries)).flatten, true⟩) start := by
    subst begun
    refine Lexer.arrives_of_spaces ⟨rfl, rfl, rfl, rfl, rfl, rfl⟩ (.inl rfl)
      (show _ = spaces 0 ++ _ from rfl) ?_ rfl rfl
    rw [text]
    exact (starts_entryLines verbal filled).lands 0 _
  have reads := reads_entries verbal filled (v := start) (by rw [begun, text]) (by rw [begun]) (by rw [begun])
    (by simp [begun]) (Nat.le_refl 0) lands_nil
  have entered : start.enter .blockMappingStart =
      ⟨start.rest, 0, true, 0, [-1], [.blockMappingStart]⟩ := by
    rw [begun]
    rfl
  rw [entered] at reads
  obtain ⟨m, middle, fetched, arrives, paid⟩ := reads _ arrives
  obtain ⟨last, fetched', ended, keys, kinds⟩ := fetches_end arrives rfl rfl rfl rfl
  refine ⟨m + 1, last, fetched.trans fetched', ended, keys, by simpa [View.goto] using kinds, ?_⟩
  have long := congrArg List.length kinds
  simp [View.weight, View.goto, begun] at paid long ⊢
  omega

end PolicyDiagram.Yaml
