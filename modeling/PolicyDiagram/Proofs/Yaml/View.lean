import PolicyDiagram.Proofs.Yaml.Cursor
import PolicyDiagram.Yaml.Lexer

/-! Lexers outside of brackets, seen from what they have read and what is left. A lexer arrives at a view when
it moves to the next token; closing blocks on the way does not tell views apart. -/

namespace PolicyDiagram.Yaml

/-- What is left before a lexer, and what it has read. -/
structure View where
  rest : List Char
  column : Nat
  allowed : Bool
  indent : Int
  outer : List Int
  kinds : List TokenKind

namespace View

/-- The characters left, and the tokens read or owed by the blocks that are open. -/
def weight (v : View) : Nat := v.kinds.length + v.outer.length + 4 * v.rest.length

/-- Opens a block at the column, unless it is open. -/
def enter (v : View) (kind : TokenKind) : View :=
  if v.indent < v.column then
    { v with indent := v.column, outer := v.indent :: v.outer, kinds := v.kinds ++ [kind] }
  else v

@[simp] theorem rest_enter (v : View) (kind : TokenKind) : (v.enter kind).rest = v.rest := by
  rw [enter]
  split <;> rfl

@[simp] theorem column_enter (v : View) (kind : TokenKind) : (v.enter kind).column = v.column := by
  rw [enter]
  split <;> rfl

theorem indent_enter {v : View} (inside : v.indent ≤ v.column) (kind : TokenKind) :
    (v.enter kind).indent = v.column := by
  rw [enter]
  split
  · rfl
  · omega

theorem weight_enter (v : View) (kind : TokenKind) : (v.enter kind).weight ≤ v.weight + 2 := by
  rw [enter]
  split
  · simp [weight]
    omega
  · omega

/-- Reads tokens up to a place on another line. -/
def goto (v : View) (rest : List Char) (column : Nat) (kinds : List TokenKind) : View :=
  { v with rest, column, allowed := true, kinds := v.kinds ++ kinds }

@[simp] theorem goto_goto (v : View) (middle rest : List Char) (m n : Nat) (first second : List TokenKind) :
    (v.goto middle m first).goto rest n second = v.goto rest n (first ++ second) := by
  simp [goto]

/-- Closes the blocks to the right of the column. -/
def close (v : View) : View :=
  let (indent, outer, closed) := Lexer.closedTo v.column v.indent v.outer 0
  { v with indent, outer, kinds := v.kinds ++ List.replicate closed .blockEnd }

theorem closedTo_succ (column indent : Int) (outer : List Int) (closed : Nat) :
    Lexer.closedTo column indent outer (closed + 1) =
      ((Lexer.closedTo column indent outer closed).1, (Lexer.closedTo column indent outer closed).2.1,
        (Lexer.closedTo column indent outer closed).2.2 + 1) := by
  induction outer generalizing indent closed with
  | nil => rfl
  | cons parent outer ih =>
    simp only [Lexer.closedTo]
    split
    · exact ih parent (closed + 1)
    · rfl

theorem closedTo_of_le {column indent : Int} (inside : indent ≤ column) (outer : List Int) (closed : Nat) :
    Lexer.closedTo column indent outer closed = (indent, outer, closed) := by
  cases outer with
  | nil => rfl
  | cons parent outer => simp [Lexer.closedTo, show ¬column < indent by omega]

theorem close_of_le {v : View} (inside : v.indent ≤ v.column) : v.close = v := by
  simp [close, closedTo_of_le inside]

theorem close_of_lt {v : View} {indent : Int} {outer : List Int} (behind : v.column < indent) :
    close { v with indent, outer := v.indent :: outer } =
      close { v with outer, kinds := v.kinds ++ [.blockEnd] } := by
  simp only [close, Lexer.closedTo, behind, if_true, closedTo_succ, List.append_assoc]
  rfl

end View

/-! ## Lexers at a view -/

/-- What moving to the next token does not change, unless it closes blocks. -/
structure Holds (l : Lexer) (v : View) : Prop where
  sound : l.cursor.sound = true
  indent : l.indent = v.indent
  outer : l.outer = v.outer
  kinds : l.queue.map Token.kind = v.kinds
  fresh : l.delivered = 0
  going : l.ended = false

/-- No key may start before the cursor, at least not on a line from `line` on. -/
def Spent (l : Lexer) (line : Nat) : Prop :=
  l.keys = [none] ∨ ∃ key, l.keys = [some key] ∧ key.required = false ∧ key.mark.line < line

structure Ready (l : Lexer) (v : View) : Prop extends Holds l v where
  rest : l.cursor.rest = v.rest
  column : l.cursor.mark.column = v.column
  allowed : l.keyAllowed = v.allowed
  keys : l.keys = [none]

/-- The next token of a lexer stands at the place of a view. -/
def Arrives (l : Lexer) (v : View) : Prop :=
  l.ended = false ∧ ∃ settled, l.settle? = some settled ∧ Ready settled v.close

namespace Lexer

theorem inFlow_of_keys {l : Lexer} {key : Option KeyStart} (keys : l.keys = [key]) : l.inFlow = false := by
  simp [inFlow, keys]

theorem inFlow_of_spent {l : Lexer} {line : Nat} (spent : Spent l line) : l.inFlow = false := by
  rcases spent with keys | ⟨key, keys, -⟩ <;> exact inFlow_of_keys keys

theorem dropStale?_of_spent {l : Lexer} {line : Nat} (spent : Spent l line)
    (below : line ≤ l.cursor.mark.line) : l.dropStale? = some { l with keys := [none] } := by
  rcases spent with keys | ⟨key, keys, optional, before⟩
  · obtain ⟨cursor, l'⟩ := l
    simp_all [dropStale?]
  · have stale : isStale l.cursor.mark key = true := by simp [isStale]; omega
    simp [dropStale?, keys, stale, optional]

/-! ## Blank space -/

theorem toNext_of_spaces {l : Lexer} {count : Nat} {tail : List Char}
    (here : l.cursor.rest = spaces count ++ tail) (lands : Lands tail) (fuel : Nat) :
    l.toNext (fuel + 1) = { l with cursor := l.cursor.skip count } := by
  -- At the start of a line stands a blank or what the search lands at, so no byte order mark.
  have noOrder : ¬(l.cursor.mark.column = 0 ∧ l.cursor.sees '\uFEFF') := by
    rintro ⟨-, sees⟩
    cases count with
    | zero =>
      cases tail with
      | nil => simp [Cursor.sees, Cursor.peek?, here] at sees
      | cons x tail =>
        have := (lands x rfl).2.2
        simp [Cursor.sees, Cursor.peek?, here, this] at sees
    | succ count => simp [Cursor.sees, Cursor.peek?, here, List.replicate_succ] at sees
  have run : (l.cursor.rest.takeWhile fun x => x == ' ' || (x == '\t' && (l.inFlow || !l.keyAllowed))) =
      spaces count := by
    rw [here, List.takeWhile_append_of_pos (by simp)]
    cases tail with
    | nil => simp
    | cons x tail =>
      have solid := (lands x rfl).1.1
      simp [isBlank] at solid
      simp [solid]
  have skipped : (l.cursor.skipWhile fun x => x == ' ' || (x == '\t' && (l.inFlow || !l.keyAllowed))) =
      l.cursor.skip count := by
    simp [Cursor.skipWhile, Cursor.takeWhile, run]
  have landed : (l.cursor.skip count).rest = tail := by simp [here]
  have noComment : (l.cursor.skip count).sees '#' = false := by
    rw [Cursor.sees, Cursor.peek?, landed]
    cases tail with
    | nil => rfl
    | cons x tail => simpa using (lands x rfl).2.1
  have noEnd := Cursor.lineEnd?_of_unbroken landed fun x member => (lands x member).1.2
  simp only [toNext, if_neg noOrder, skipped, noComment]
  simp [noEnd]

theorem toNext_of_lineEnd {l : Lexer} {count : Nat} {tail : List Char}
    (here : l.cursor.rest = '\n' :: (spaces count ++ tail)) (lands : Lands tail)
    (outside : l.inFlow = false) (fuel : Nat) :
    l.toNext (fuel + 2) =
      { l with cursor := (l.cursor.nextLineAfter 1).skip count, keyAllowed := true } := by
  have noOrder : ¬(l.cursor.mark.column = 0 ∧ l.cursor.sees '\uFEFF') := by
    simp [Cursor.sees, Cursor.peek?, here]
  have stays : (l.cursor.skipWhile fun x => x == ' ' || (x == '\t' && (l.inFlow || !l.keyAllowed))) =
      l.cursor := by
    simp [Cursor.skipWhile, Cursor.takeWhile, here]
  have noComment : l.cursor.sees '#' = false := by simp [Cursor.sees, Cursor.peek?, here]
  have ends := Cursor.lineEnd?_of_kept here (.inl rfl)
  have next := toNext_of_spaces (show
    { l with cursor := l.cursor.nextLineAfter 1, keyAllowed := true }.cursor.rest = spaces count ++ tail by
      simp [here]) lands fuel
  rw [toNext]
  simp only [if_neg noOrder, stays, noComment]
  simpa [outside, ends] using next

/-! ## Arrivals -/

theorem ready_closeBlocks {l : Lexer} {v : View} (ready : Ready l v) :
    Ready (l.closeBlocks v.column) v.close := by
  have outside := inFlow_of_keys ready.keys
  have same : v.close = { v with
      indent := (closedTo v.column l.indent l.outer 0).1
      outer := (closedTo v.column l.indent l.outer 0).2.1
      kinds := v.kinds ++ List.replicate (closedTo v.column l.indent l.outer 0).2.2 .blockEnd } := by
    rw [View.close, ready.indent, ready.outer]
  have closed : l.closeBlocks v.column = { l with
      indent := (closedTo v.column l.indent l.outer 0).1
      outer := (closedTo v.column l.indent l.outer 0).2.1
      queue := l.queue ++ List.replicate (closedTo v.column l.indent l.outer 0).2.2
        ⟨.blockEnd, l.cursor.mark, l.cursor.mark⟩ } := by
    simp [closeBlocks, outside]
  rw [same, closed]
  exact
    { ready with
      indent := rfl
      outer := rfl
      kinds := by simp [ready.kinds] }

theorem arrives_of_landed {l landed : Lexer} {v : View} (going : l.ended = false)
    (moved : l.toNext (l.cursor.rest.length + 1) = landed) (holds : Holds landed v)
    (spent : Spent landed landed.cursor.mark.line) (rest : landed.cursor.rest = v.rest)
    (column : landed.cursor.mark.column = v.column) (allowed : landed.keyAllowed = v.allowed) :
    Arrives l v := by
  have dropped := dropStale?_of_spent spent (Nat.le_refl _)
  have ready : Ready { landed with keys := [none] } v :=
    { holds with rest, column, allowed, keys := rfl }
  refine ⟨going, _, ?_, ready_closeBlocks ready⟩
  simp [settle?, moved, dropped, Cursor.ask?_of_sound holds.sound, column]

theorem arrives_of_spaces {l : Lexer} {v : View} {count : Nat} (holds : Holds l v)
    (spent : Spent l l.cursor.mark.line) (here : l.cursor.rest = spaces count ++ v.rest)
    (lands : Lands v.rest) (column : l.cursor.mark.column + count = v.column)
    (allowed : l.keyAllowed = v.allowed) : Arrives l v :=
  arrives_of_landed holds.going (toNext_of_spaces here lands _) { holds with sound := holds.sound } spent
    (by simp [here]) column allowed

theorem arrives_of_lineEnd {l : Lexer} {v : View} (holds : Holds l v)
    (spent : Spent l (l.cursor.mark.line + 1)) (here : l.cursor.rest = '\n' :: (spaces v.column ++ v.rest))
    (lands : Lands v.rest) (allowed : v.allowed = true) : Arrives l v := by
  obtain ⟨spare, enough⟩ : ∃ spare, l.cursor.rest.length + 1 = spare + 2 :=
    ⟨(spaces v.column ++ v.rest).length, by simp [here]⟩
  have moved := toNext_of_lineEnd here lands (inFlow_of_spent spent) spare
  rw [← enough] at moved
  exact arrives_of_landed holds.going moved { holds with sound := holds.sound } spent (by simp [here])
    (by simp) allowed.symm

theorem settle?_of_arrives {l : Lexer} {v : View} (arrives : Arrives l v) (inside : v.indent ≤ v.column) :
    ∃ settled, l.ended = false ∧ l.fetch? = settled.read? ∧ Ready settled v := by
  obtain ⟨going, settled, moved, ready⟩ := arrives
  rw [View.close_of_le inside] at ready
  exact ⟨settled, going, by simp [fetch?, moved], ready⟩

/-- A lexer at a token stays there, if no block ends and no key has become too long. -/
theorem settle?_of_lands {l : Lexer} (sound : l.cursor.sound = true) (lands : Lands l.cursor.rest)
    (recent : ∀ start ∈ l.keys, ∀ key ∈ start, isStale l.cursor.mark key = false)
    (inside : l.indent ≤ l.cursor.mark.column) : l.settle? = some l := by
  have stays : l.toNext (l.cursor.rest.length + 1) = l := by
    rw [toNext_of_spaces (show l.cursor.rest = spaces 0 ++ l.cursor.rest from rfl) lands]
    simp
  have kept : l.dropStale? = some l := by
    have none : (l.keys.any fun start => start.any (isStale l.cursor.mark)) = false := by
      simp only [List.any_eq_false]
      intro start member
      cases start with
      | none => simp
      | some key => simpa using recent (some key) member key rfl
    simp [dropStale?, none]
  have closed : l.closeBlocks l.cursor.mark.column = l := by
    simp [closeBlocks, View.closedTo_of_le inside]
  simp [settle?, stays, kept, Cursor.ask?_of_sound sound, closed]

end Lexer

end PolicyDiagram.Yaml
