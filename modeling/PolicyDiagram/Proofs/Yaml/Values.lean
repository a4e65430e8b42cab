import PolicyDiagram.Proofs.Yaml.Pieces

/-! The tokens of values that stand on the line of their key or dash: scalars in every style, and empty
collections. -/

namespace PolicyDiagram.Yaml.Lexer

open Data (Tree)

theorem noteKey?_of_ready {r : Lexer} {v : View} (ready : Ready r v) (inside : v.indent < v.column) :
    ∃ keys, r.noteKey? = some { r with keys } ∧
      (keys = [none] ∨ ∃ key, keys = [some key] ∧ key.required = false ∧ key.mark = r.cursor.mark) := by
  by_cases allowed : r.keyAllowed = true
  · have behind : r.indent ≠ (r.cursor.mark.column : Int) := by
      rw [ready.indent, ready.column]
      omega
    exact ⟨_, noteKey?_of_allowed ready.keys allowed,
      .inr ⟨⟨r.indent == (r.cursor.mark.column : Int), r.nextNumber, r.cursor.mark⟩, rfl,
        by simpa using behind, rfl⟩⟩
  · exact ⟨r.keys, noteKey?_of_not_allowed (by simpa using allowed), .inl ready.keys⟩

/-- A noted value is given up on the next line. -/
theorem spent_of_noted {l : Lexer} {mark : Mark} {line : Nat}
    (noted : l.keys = [none] ∨ ∃ key, l.keys = [some key] ∧ key.required = false ∧ key.mark = mark)
    (below : mark.line < line) : Spent l line := by
  rcases noted with none | ⟨key, keys, optional, rfl⟩
  · exact .inl none
  · exact .inr ⟨key, keys, optional, below⟩

theorem solid_of_lands {tail : List Char} (lands : Lands tail) : ∀ x ∈ tail.head?, IsSolid x :=
  fun x member => (lands x member).1

/-- Inside of a block of its own a lexer goes on with a token and a cursor behind it. -/
theorem holds_of_ready {r : Lexer} {v : View} (ready : Ready r v) {cursor : Cursor}
    (sound : cursor.sound = true) (keys : List (Option KeyStart)) (keyAllowed : Bool) (token : Token)
    (rest : List Char) (column : Nat) :
    Holds { r with cursor, keys, keyAllowed, queue := r.queue ++ [token] }
      (v.goto rest column [token.kind]) :=
  { ready with
    sound := sound
    kinds := by simp [View.goto, ready.kinds] }

/-! ## Scalars -/

theorem fetches_plain {l : Lexer} {v : View} {text tail : List Char} {column k : Nat}
    (arrives : Arrives l v) (line : Cursor.PlainLine text) (filled : text ≠ [])
    (starts : startsWithIndicator text = false) (here : v.rest = text ++ '\n' :: (spaces k ++ tail))
    (indent : v.indent = column) (inside : column < v.column) (behind : k ≤ column) (lands : Lands tail) :
    ∃ last, Fetches 1 l last ∧
      Arrives last (v.goto tail k [.scalar (String.ofList text) .plain]) := by
  obtain ⟨r, going, fetched, ready⟩ := settle?_of_arrives arrives (by omega)
  obtain ⟨x, others, rfl⟩ := List.exists_cons_of_ne_nil filled
  obtain ⟨calm, special⟩ := head_of_start starts
  have rest : r.cursor.rest = x :: (others ++ '\n' :: (spaces k ++ tail)) := by rw [ready.rest, here]; rfl
  have right : r.cursor.mark.column ≠ 0 := by rw [ready.column]; omega
  have solid : IsSolid x := (line.chars x (by simp)).resolve_left (line.first x rfl).1
  -- The value stands to the right of its key, so no document indicator is looked for.
  have read := read?_of_plain rest (inFlow_of_keys ready.keys) solid calm
    (fun one => by
      obtain ⟨y, more, rfl, solid⟩ := special (by rcases one with rfl | rfl | rfl <;> decide)
      exact ⟨y, _, rfl, solid⟩)
    (by simp [Cursor.atTriple, right])
  obtain ⟨keys, noted, spent⟩ := noteKey?_of_ready ready (by omega)
  obtain ⟨stop, next, token, landed, at', lines⟩ :=
    Cursor.plain?_of_line line filled ⟨rest, ready.sound⟩ (solid_of_lands lands)
      (show 0 < r.indent + 1 ∧ r.indent + 1 ≤ r.cursor.mark.column by
        rw [ready.indent, ready.column]; omega)
      (show (k : Int) < r.indent + 1 by rw [ready.indent]; omega)
  obtain ⟨last, reached⟩ : ∃ last : Lexer, last = { r with
      keys, keyAllowed := true, cursor := next
      queue := r.queue ++ [⟨.scalar (String.ofList (x :: others)) .plain, r.cursor.mark, stop⟩] } := ⟨_, rfl⟩
  have outside : inFlow { r with keys } = false := by
    rcases spent with rfl | ⟨key, rfl, -⟩ <;> rfl
  have fetched : l.fetch? = some last := by
    rw [fetched, read, plain?, noted]
    simp [outside, token, enqueue, reached]
  rw [reached] at fetched
  exact ⟨_, .one going fetched, arrives_of_spaces (holds_of_ready ready landed.sound _ _ _ _ _)
    (spent_of_noted spent (by simp [lines])) (show next.rest = spaces 0 ++ tail by simp [landed.rest]) lands
    (by simpa [View.goto] using at') rfl⟩

theorem fetches_quoted {l : Lexer} {v : View} {single : Bool} {text tail : List Char} {k : Nat}
    (arrives : Arrives l v) (quotable : Quotable single text) {margin : Nat} (indented : 0 < margin)
    (here : v.rest = quoteOf single :: (between single margin text ++ '\n' :: (spaces k ++ tail)))
    (inside : v.indent < v.column) (right : 0 < v.column) (lands : Lands tail) :
    ∃ last, Fetches 1 l last ∧ Arrives last (v.goto tail k
      [.scalar (String.ofList text) (if single then .singleQuoted else .doubleQuoted)]) := by
  obtain ⟨r, going, fetched, ready⟩ := settle?_of_arrives arrives (by omega)
  have rest := ready.rest.trans here
  have column : r.cursor.mark.column ≠ 0 := by rw [ready.column]; omega
  have read : r.read? = r.quoted? single := by
    cases single <;> simp [read?, Cursor.peek?, rest, quoteOf, Cursor.atTriple, column]
  obtain ⟨keys, noted, spent⟩ := noteKey?_of_ready ready inside
  obtain ⟨next, token, landed, lines⟩ :=
    Cursor.quoted?_of_text quotable (by simp [Cursor.Closes]) indented ⟨rest, ready.sound⟩
  have fetched : l.fetch? = some { r with
      cursor := next, keys, keyAllowed := false
      queue := r.queue ++ [⟨.scalar (String.ofList text)
        (if single then .singleQuoted else .doubleQuoted), r.cursor.mark, next.mark⟩] } := by
    rw [fetched, read, quoted?, noted]
    simp [token, enqueue]
  exact ⟨_, .one going fetched, arrives_of_lineEnd (holds_of_ready ready landed.sound _ _ _ _ _)
    (spent_of_noted spent (by simp; omega)) landed.rest lands rfl⟩

theorem fetches_literal {l : Lexer} {v : View} {text tail : List Char} {column k : Nat}
    (arrives : Arrives l v) (literal : IsLiteral text) (filled : text ≠ [])
    (here : v.rest = literalHeader text ++
      '\n' :: (opened (column + 2) text ++ (closing text ++ (spaces k ++ tail))))
    (indent : v.indent = column) (inside : column < v.column) (behind : k ≤ column) (lands : Lands tail) :
    ∃ last, Fetches 1 l last ∧
      Arrives last (v.goto tail k [.scalar (String.ofList text) .literal]) := by
  obtain ⟨r, going, fetched, ready⟩ := settle?_of_arrives arrives (by omega)
  have rest := ready.rest.trans here
  have right : r.cursor.mark.column ≠ 0 := by rw [ready.column]; omega
  have outside := inFlow_of_keys ready.keys
  have read : r.read? = r.blockScalar? true := by
    have bar : r.cursor.rest.head? = some '|' := by rw [rest]; rfl
    simp [read?, Cursor.peek?, bar, Cursor.atTriple, right, outside]
  obtain ⟨stop, next, token, landed, at', lines⟩ :=
    Cursor.block?_of_text literal filled (show column + 2 = (max r.indent 0).toNat + 2 by
      rw [ready.indent]; omega) ⟨rest, ready.sound⟩ (by omega) (solid_of_lands lands)
  have fetched : l.fetch? = some { r with
      cursor := next, keys := [none], keyAllowed := true
      queue := r.queue ++ [⟨.scalar (String.ofList text) .literal, r.cursor.mark, stop⟩] } := by
    rw [fetched, read, blockScalar?]
    simp [dropKey?, ready.keys, token, enqueue]
  exact ⟨_, .one going fetched, arrives_of_spaces (holds_of_ready ready landed.sound _ _ _ _ _) (.inl rfl)
    (show next.rest = spaces 0 ++ tail by simp [landed.rest]) lands (by simpa [View.goto] using at') rfl⟩

/-! ## Empty collections -/

/-- The brackets of an empty collection, and their tokens. -/
inductive Brackets : Char → Char → TokenKind → TokenKind → Prop where
  | list : Brackets '[' ']' .flowSequenceStart .flowSequenceEnd
  | record : Brackets '\x7b' '\x7d' .flowMappingStart .flowMappingEnd

section Brackets

variable {r : Lexer} {x y : Char} {first last : TokenKind} {more : List Char}

theorem Brackets.read?_first (brackets : Brackets x y first last) (rest : r.cursor.rest = x :: more) :
    r.read? = r.openFlow? first := by
  cases brackets <;> simp [read?, Cursor.peek?, rest, Cursor.atTriple]

theorem Brackets.read?_last (brackets : Brackets x y first last) (rest : r.cursor.rest = y :: more) :
    r.read? = r.closeFlow? last := by
  cases brackets <;> simp [read?, Cursor.peek?, rest, Cursor.atTriple]

theorem Brackets.lands_last (brackets : Brackets x y first last) : Lands (y :: more) := by
  cases brackets <;> exact lands_cons.mpr (by decide)

theorem Brackets.utf8Size_first (brackets : Brackets x y first last) : x.utf8Size = 1 := by
  cases brackets <;> rfl

/-- A lexer behind an opening bracket, before which a key was noted or not. -/
def behindBracket (r : Lexer) (keys : List (Option KeyStart)) (kind : TokenKind) : Lexer :=
  { r with
    keys := none :: keys, keyAllowed := true, cursor := r.cursor.skip 1
    queue := r.queue ++ [⟨kind, r.cursor.mark, (r.cursor.skip 1).mark⟩] }

/-- A lexer behind both brackets. -/
def behindBrackets (r : Lexer) (keys : List (Option KeyStart)) (first last : TokenKind) : Lexer :=
  { r with
    cursor := (r.cursor.skip 1).skip 1, keys, keyAllowed := false
    queue := r.queue ++ [⟨first, r.cursor.mark, (r.cursor.skip 1).mark⟩] ++
      [⟨last, (r.cursor.skip 1).mark, ((r.cursor.skip 1).skip 1).mark⟩] }

/-- The closing bracket is read where the opening one ends, so no key has become too long. -/
theorem fetch?_behindBracket {v : View} (ready : Ready r v) (brackets : Brackets x y first last)
    (rest : r.cursor.rest = x :: y :: more) (inside : v.indent < v.column) {keys : List (Option KeyStart)}
    (noted : keys = [none] ∨ ∃ key, keys = [some key] ∧ key.required = false ∧ key.mark = r.cursor.mark) :
    (r.behindBracket keys first).fetch? = some (r.behindBrackets keys first last) := by
  have rest' : (r.behindBracket keys first).cursor.rest = y :: more := by simp [behindBracket, rest]
  have settled : (r.behindBracket keys first).settle? = some (r.behindBracket keys first) := by
    refine settle?_of_lands ready.sound (by rw [rest']; exact brackets.lands_last) ?_ ?_
    · rcases noted with rfl | ⟨key, rfl, -, mark⟩
      · simp [behindBracket]
      · simp [behindBracket, isStale, mark, Cursor.skip, rest, Text.byteCount, brackets.utf8Size_first]
    · simp [behindBracket, ready.indent, ready.column]
      omega
  have free : (r.behindBracket keys first).dropKey? = some (r.behindBracket keys first) := rfl
  have deep : (r.behindBracket keys first).inFlow = true := by
    rcases noted with rfl | ⟨key, rfl, -⟩ <;> rfl
  simp only [fetch?, settled, Option.bind_eq_bind, Option.bind_some, brackets.read?_last rest', closeFlow?, free,
    deep]
  simp [behindBracket, behindBrackets, take, enqueue]

theorem fetches_brackets {l : Lexer} {v : View} {tail : List Char} {k : Nat} (arrives : Arrives l v)
    (brackets : Brackets x y first last) (here : v.rest = x :: y :: '\n' :: (spaces k ++ tail))
    (inside : v.indent < v.column) (lands : Lands tail) :
    ∃ next, Fetches 2 l next ∧ Arrives next (v.goto tail k [first, last]) := by
  obtain ⟨r, going, fetched, ready⟩ := settle?_of_arrives arrives (by omega)
  have rest := ready.rest.trans here
  obtain ⟨keys, noted, spent⟩ := noteKey?_of_ready ready inside
  have fetched : l.fetch? = some (r.behindBracket keys first) := by
    rw [fetched, brackets.read?_first rest, openFlow?, noted]
    simp [take, enqueue, behindBracket]
  have holds : Holds (r.behindBrackets keys first last) (v.goto tail k [first, last]) :=
    { ready with
      sound := ready.sound
      kinds := by simp [behindBrackets, View.goto, ready.kinds] }
  have spent' : Spent (r.behindBrackets keys first last) (r.cursor.mark.line + 1) :=
    spent_of_noted spent (Nat.lt_succ_self _)
  have fetched' := fetch?_behindBracket ready brackets rest inside spent
  exact ⟨_, .more going fetched (.one ready.going fetched'), arrives_of_lineEnd holds spent'
    (by simp [behindBrackets, rest, View.goto]) lands rfl⟩

end Brackets

end PolicyDiagram.Yaml.Lexer
