import PolicyDiagram.Proofs.Yaml.Styles
import PolicyDiagram.Proofs.Yaml.View

/-! The tokens of keys, dashes and inline values, each read from the place where it starts up to the next
token. -/

namespace PolicyDiagram.Yaml

open Data (Tree IsKeyName)

/-- So many tokens are fetched, with the tokens of block structure before them. -/
inductive Fetches : Nat → Lexer → Lexer → Prop where
  | done (l : Lexer) : Fetches 0 l l
  | more {count : Nat} {l next last : Lexer} (going : l.ended = false) (fetched : l.fetch? = some next)
      (others : Fetches count next last) : Fetches (count + 1) l last

theorem Fetches.trans {m n : Nat} {l middle last : Lexer} (first : Fetches m l middle)
    (second : Fetches n middle last) : Fetches (m + n) l last := by
  induction first with
  | done l => simpa using second
  | more going fetched others ih =>
    rw [Nat.add_right_comm]
    exact .more going fetched (ih second)

theorem Fetches.one {l next : Lexer} (going : l.ended = false) (fetched : l.fetch? = some next) :
    Fetches 1 l next :=
  .more going fetched (.done next)

/-- Every lexer that arrives at the first view goes on to the second. Each character pays for four fetches
and tokens. -/
def Reads (v w : View) : Prop :=
  ∀ l, Arrives l v → ∃ count last, Fetches count l last ∧ Arrives last w ∧ count + w.weight ≤ v.weight

theorem Reads.refl (v : View) : Reads v v :=
  fun l arrives => ⟨0, l, .done l, arrives, by omega⟩

theorem Reads.trans {u v w : View} (first : Reads u v) (second : Reads v w) : Reads u w := by
  intro l arrives
  obtain ⟨m, middle, fetched, arrives, paid⟩ := first l arrives
  obtain ⟨n, last, fetched', arrives, paid'⟩ := second middle arrives
  exact ⟨m + n, last, fetched.trans fetched', arrives, by omega⟩

theorem Reads.pop {u v : View} {indent : Int} {outer : List Int} (behind : v.column < indent)
    (reads : Reads u { v with indent, outer := v.indent :: outer }) :
    Reads u { v with outer, kinds := v.kinds ++ [.blockEnd] } := by
  intro l arrives
  obtain ⟨count, last, fetched, ⟨going, settled, moved, ready⟩, paid⟩ := reads l arrives
  rw [View.close_of_lt behind] at ready
  refine ⟨count, last, fetched, ⟨going, settled, moved, ready⟩, ?_⟩
  simp [View.weight] at paid ⊢
  omega

namespace Lexer

/-! ## Blocks -/

theorem insertIdx_front {α : Type} (front back : List α) (x : α) :
    (front ++ back).insertIdx front.length x = front ++ x :: back := by
  induction front with
  | nil => rfl
  | cons y front ih => simp [ih]

theorem insertAt_front {l : Lexer} {front back : List Token} (queue : l.queue = front ++ back)
    (fresh : l.delivered = 0) (kind : TokenKind) (mark : Mark) :
    l.insertAt front.length kind mark = { l with queue := front ++ ⟨kind, mark, mark⟩ :: back } := by
  simp [insertAt, queue, fresh, insertIdx_front]

theorem openBlock_front {l : Lexer} {front back : List Token} (outside : l.inFlow = false)
    (queue : l.queue = front ++ back) (fresh : l.delivered = 0) (column : Nat) (kind : TokenKind)
    (mark : Mark) :
    l.openBlock column front.length kind mark =
      if l.indent < column then
        { l with
          indent := column, outer := l.indent :: l.outer
          queue := front ++ ⟨kind, mark, mark⟩ :: back }
      else l := by
  by_cases inside : l.indent < column
  · simp [openBlock, outside, inside, insertAt, queue, fresh, insertIdx_front,
      show ¬(column : Int) ≤ l.indent by omega]
  · simp [openBlock, inside, show (column : Int) ≤ l.indent by omega]

theorem ready_openBlock {r : Lexer} {v : View} (ready : Ready r v) (kind : TokenKind) :
    Ready (r.openBlock v.column r.nextNumber kind r.cursor.mark) (v.enter kind) := by
  have outside := inFlow_of_keys ready.keys
  have number : r.nextNumber = r.queue.length := by simp [nextNumber, ready.fresh]
  rw [number, openBlock_front outside (List.append_nil r.queue).symm ready.fresh, ready.indent, View.enter]
  split
  · exact
      { ready with
        indent := rfl
        outer := by rw [ready.outer]
        kinds := by simp [ready.kinds] }
  · exact ready

theorem ready_take {r : Lexer} {v : View} (ready : Ready r v) (count : Nat) (kind : TokenKind) :
    Ready (r.take count kind)
      { v with
        rest := v.rest.drop count, column := v.column + count, kinds := v.kinds ++ [kind] } :=
  { ready with
    kinds := by simp [take, enqueue, ready.kinds]
    rest := by simp [take, enqueue, ready.rest]
    column := by simp [take, enqueue, ready.column] }

/-! ## Dashes -/

theorem fetches_dash {l : Lexer} {v : View} {more : List Char} (arrives : Arrives l v)
    (here : v.rest = '-' :: ' ' :: more) (allowed : v.allowed = true) (inside : v.indent ≤ v.column) :
    ∃ next, Fetches 1 l next ∧ Ready next
      { v.enter .blockSequenceStart with
        rest := ' ' :: more, column := v.column + 1, allowed := true
        kinds := (v.enter .blockSequenceStart).kinds ++ [.blockEntry] } := by
  obtain ⟨r, going, fetched, ready⟩ := settle?_of_arrives arrives inside
  have rest : r.cursor.rest = '-' :: ' ' :: more := by rw [ready.rest, here]
  have read : r.read? = r.blockEntry? := by
    simp [read?, Cursor.peek?, rest, Cursor.atTriple, Cursor.spacedAfter, isBlank]
  obtain ⟨o, opens⟩ : ∃ o, o = r.openBlock v.column r.nextNumber .blockSequenceStart r.cursor.mark :=
    ⟨_, rfl⟩
  have opened := ready_openBlock ready .blockSequenceStart
  rw [← opens] at opened
  have entry : r.blockEntry? = some ({ o with keyAllowed := true }.take 1 .blockEntry) := by
    have allowed : r.keyAllowed = true := by rw [ready.allowed, allowed]
    simp [allowed, blockEntry?, ready.column, ← opens, dropKey?, opened.keys]
  have taken := ready_take (show Ready { o with keyAllowed := true }
    { v.enter .blockSequenceStart with allowed := true } from { opened with allowed := rfl }) 1 .blockEntry
  exact ⟨_, .one going (by rw [fetched, read, entry]), by simpa [here] using taken⟩

/-! ## Keys -/

theorem byteCount_of_letters {name : List Char} (letters : ∀ x ∈ name, Data.IsLetter x) :
    Text.byteCount name = name.length := by
  induction name with
  | nil => rfl
  | cons x name ih =>
    have bounds := Data.toNat_of_letter (letters x (by simp))
    have one : x.utf8Size = 1 := by
      rw [Char.utf8Size, if_pos]
      simp only [UInt32.le_iff_toNat_le, Char.toNat_val]
      exact Nat.le_trans bounds.2 (by decide)
    rw [Text.byteCount, ih fun y member => letters y (by simp [member]), one, List.length_cons]
    omega

theorem startsPlain_of_calm {r : Lexer} {x : Char} {more : List Char} (rest : r.cursor.rest = x :: more)
    (outside : r.inFlow = false) (solid : IsSolid x) (calm : leadingIndicators.contains x = false)
    (behind : x = '-' ∨ x = '?' ∨ x = ':' → r.cursor.spacedAfter 1 = false ∧
      (r.cursor.skip 1).seesAny isBlank = false) : r.startsPlain = true := by
  have solid := Cursor.atSpace_of_solid rest solid
  have each : ∀ y ∈ indicators, (y = '-' ∨ y = '?' ∨ y = ':') ∨ leadingIndicators.contains y = true :=
    List.all_iff_forall_prop.mp (by decide)
  by_cases special : x = '-' ∨ x = '?' ∨ x = ':'
  · obtain ⟨spaced, blank⟩ := behind special
    rcases special with dash | mark | colon
    · simp [startsPlain, Cursor.sees, Cursor.peek?, rest, dash, blank]
    · simp [startsPlain, Cursor.sees, Cursor.peek?, rest, mark, spaced, outside]
    · simp [startsPlain, Cursor.sees, Cursor.peek?, rest, colon, spaced, outside]
  · have noIndicator : x ∉ indicators := fun member => by
      rcases each x member with one | leading
      · exact special one
      · rw [leading] at calm
        contradiction
    simp [startsPlain, Cursor.seesAny, Cursor.peek?, rest, solid, noIndicator]

theorem read?_of_plain {r : Lexer} {x : Char} {more : List Char} (rest : r.cursor.rest = x :: more)
    (outside : r.inFlow = false) (solid : IsSolid x) (calm : leadingIndicators.contains x = false)
    (special : x = '-' ∨ x = '?' ∨ x = ':' → ∃ y others, more = y :: others ∧ IsSolid y)
    (noTriple : r.cursor.atTriple '-' = false ∧ r.cursor.atTriple '.' = false) : r.read? = r.plain? := by
  -- A dash, a question mark or a colon would need space behind it to mean something.
  have behind : x = '-' ∨ x = '?' ∨ x = ':' → r.cursor.spacedAfter 1 = false ∧
      (r.cursor.skip 1).seesAny isBlank = false := by
    intro one
    obtain ⟨y, others, rfl, solid⟩ := special one
    simp [Cursor.spacedAfter, Cursor.seesAny, Cursor.peek?, rest, solid.1, solid.2]
  have starts := startsPlain_of_calm rest outside solid calm behind
  have noEntry : ¬(x = '-' ∧ r.cursor.spacedAfter 1 = true) := by
    rintro ⟨dash, spaced⟩
    simp [behind (.inl dash)] at spaced
  have noKey : ¬(x = '?' ∧ (r.inFlow = true ∨ r.cursor.spacedAfter 1 = true)) := by
    rintro ⟨mark, spaced⟩
    simp [behind (.inr (.inl mark)), outside] at spaced
  have noValue : ¬(x = ':' ∧ (r.inFlow = true ∨ r.cursor.spacedAfter 1 = true)) := by
    rintro ⟨colon, spaced⟩
    simp [behind (.inr (.inr colon)), outside] at spaced
  have apart : ∀ y ∈ ['[', '\x7b', ']', '\x7d', ',', '*', '&', '!', '|', '>', '\'', '"', '%'], x ≠ y := by
    have each : ∀ y ∈ ['[', '\x7b', ']', '\x7d', ',', '*', '&', '!', '|', '>', '\'', '"', '%'],
        leadingIndicators.contains y = true := List.all_eq_true.mp (by decide)
    rintro y member rfl
    rw [each x member] at calm
    contradiction
  simp only [List.forall_mem_cons] at apart
  simp only [read?, Cursor.peek?, rest, List.head?_cons, noTriple, noEntry, noKey, noValue, apart, starts]
  simp

/-- Where a key may start, a scalar that starts there is noted. -/
theorem noteKey?_of_allowed {r : Lexer} (keys : r.keys = [none]) (allowed : r.keyAllowed = true) :
    r.noteKey? = some { r with
      keys := [some ⟨r.indent == (r.cursor.mark.column : Int), r.nextNumber, r.cursor.mark⟩] } := by
  simp [noteKey?, allowed, dropKey?, keys, inFlow]

theorem noteKey?_of_not_allowed {r : Lexer} (allowed : r.keyAllowed = false) : r.noteKey? = some r := by
  simp [noteKey?, allowed]

/-- A colon makes a key of what was noted before it, and starts a block if none is open at its column. -/
theorem value?_of_noted {s : Lexer} {key : KeyStart} {front back : List Token} (keys : s.keys = [some key])
    (queue : s.queue = front ++ back) (fresh : s.delivered = 0) (number : key.number = front.length) :
    ∃ entered : Lexer, s.value? = some (entered.take 1 .value) ∧
      (s.indent < key.mark.column → entered = { s with
        keys := [none], keyAllowed := false, indent := key.mark.column, outer := s.indent :: s.outer
        queue := front ++ ⟨.blockMappingStart, key.mark, key.mark⟩ :: ⟨.key, key.mark, key.mark⟩ :: back }) ∧
      (¬s.indent < key.mark.column → entered = { s with
        keys := [none], keyAllowed := false
        queue := front ++ ⟨.key, key.mark, key.mark⟩ :: back }) := by
  obtain ⟨k, keyed⟩ : ∃ k : Lexer, k = { s with queue := front ++ ⟨.key, key.mark, key.mark⟩ :: back } :=
    ⟨_, rfl⟩
  have inserted := insertAt_front queue fresh .key key.mark
  have opens := openBlock_front (l := k) (by rw [keyed]; exact inFlow_of_keys keys) (by rw [keyed])
    (by rw [keyed]; exact fresh) key.mark.column .blockMappingStart key.mark
  rw [← keyed] at inserted
  have value : s.value? = some (Lexer.take
      { k.openBlock key.mark.column front.length .blockMappingStart key.mark with
        keys := [none], keyAllowed := false } 1 .value) := by
    simp only [value?, keys, number, inserted]
  refine ⟨_, value, fun inside => ?_, fun outside => ?_⟩
  · rw [opens, keyed, if_pos inside]
  · rw [opens, keyed, if_neg outside]

/-- A lexer behind a word that may be a key. -/
def behindWord (r : Lexer) (name : String) : Lexer :=
  { r with
    keys := [some ⟨r.indent == (r.cursor.mark.column : Int), r.nextNumber, r.cursor.mark⟩]
    keyAllowed := false
    cursor := r.cursor.skip name.toList.length
    queue := r.queue ++
      [⟨.scalar name .plain, r.cursor.mark, (r.cursor.skip name.toList.length).mark⟩] }

section Keys

variable {r : Lexer} {v : View} {name : String} {more : List Char}

theorem read?_of_key (ready : Ready r v) (word : IsKeyName name) (here : v.rest = name.toList ++ ':' :: more)
    (parts : more.head?.all partsWords = true) (allowed : v.allowed = true) :
    r.read? = some (r.behindWord name) := by
  obtain ⟨filled, -, letters⟩ := word
  obtain ⟨x, others, whole⟩ := List.exists_cons_of_ne_nil filled
  have letter : Data.IsLetter x := letters x (by simp [whole])
  have rest : r.cursor.rest = name.toList ++ ':' :: more := by rw [ready.rest, here]
  have solid := Cursor.solid_of_letter letter
  have read := read?_of_plain (show r.cursor.rest = x :: (others ++ ':' :: more) by simp [rest, whole])
    (inFlow_of_keys ready.keys) solid.1
    (by
      have each : ∀ y ∈ leadingIndicators, ¬Data.IsLetter y := List.all_iff_forall_prop.mp (by decide)
      simpa using fun member => each x member letter)
    (by
      rintro (rfl | rfl | rfl)
      · exact absurd letter (by decide)
      · exact absurd letter (by decide)
      · exact absurd letter (by decide))
    (by simp [Cursor.atTriple, rest, whole, solid])
  have noted := noteKey?_of_allowed ready.keys (ready.allowed.trans allowed)
  have token := Cursor.plain?_of_key ⟨rest, ready.sound⟩ filled letters parts (r.indent + 1)
  rw [read, plain?, noted]
  simp [token, inFlow, enqueue, behindWord]

theorem rest_behindWord (ready : Ready r v) (here : v.rest = name.toList ++ ':' :: more) :
    (r.behindWord name).cursor.rest = ':' :: more := by
  simp [behindWord, ready.rest, here]

/-- The word is short enough for a key, and no block ends behind it. -/
theorem settle?_behindWord (ready : Ready r v) (word : IsKeyName name)
    (here : v.rest = name.toList ++ ':' :: more) (inside : v.indent ≤ v.column) :
    (r.behindWord name).settle? = some (r.behindWord name) := by
  have colon : Lands (r.behindWord name).cursor.rest := by
    rw [rest_behindWord ready here]
    exact lands_cons.mpr (by decide)
  refine settle?_of_lands ready.sound colon ?_ ?_
  · have short := word.2.1
    have bytes := byteCount_of_letters word.2.2
    have taken : r.cursor.rest.take name.toList.length = name.toList := by simp [ready.rest, here]
    simp [behindWord, isStale, Cursor.skip, taken, bytes]
    omega
  · simp [behindWord, ready.column, ready.indent]
    omega

theorem read?_behindWord (ready : Ready r v) (here : v.rest = name.toList ++ ':' :: more)
    (parts : more.head?.all partsWords = true) : (r.behindWord name).read? = (r.behindWord name).value? := by
  have rest := rest_behindWord ready here
  have spaced : (r.behindWord name).cursor.spacedAfter 1 = true := by
    rw [Cursor.spacedAfter, rest]
    exact parts
  simp [read?, Cursor.peek?, rest, Cursor.atTriple, spaced]

theorem ready_value (ready : Ready r v) (here : v.rest = name.toList ++ ':' :: more) :
    ∃ next, (r.behindWord name).value? = some next ∧ Ready next
      { v.enter .blockMappingStart with
        rest := more, column := v.column + name.toList.length + 1, allowed := false
        kinds := (v.enter .blockMappingStart).kinds ++ [.key, .scalar name .plain, .value] } := by
  have number : r.nextNumber = r.queue.length := by simp [nextNumber, ready.fresh]
  obtain ⟨o, value, opens, stays⟩ := value?_of_noted (s := r.behindWord name) rfl rfl ready.fresh number
  have rest := rest_behindWord ready here
  have column : (r.behindWord name).cursor.mark.column = v.column + name.toList.length := by
    simp [behindWord, ready.column]
  -- The first key of a mapping opens its block; the others find it open.
  have entered : Ready o
      { v.enter .blockMappingStart with
        rest := ':' :: more, column := v.column + name.toList.length, allowed := false
        kinds := (v.enter .blockMappingStart).kinds ++ [.key, .scalar name .plain] } := by
    by_cases inside : r.indent < r.cursor.mark.column
    · rw [opens inside, View.enter, if_pos (by rwa [← ready.indent, ← ready.column])]
      exact
        { ready with
          indent := congrArg Nat.cast ready.column
          outer := congr (congrArg List.cons ready.indent) ready.outer
          kinds := by simp [ready.kinds]
          rest, column
          allowed := rfl
          keys := rfl }
    · rw [stays inside, View.enter, if_neg (by rwa [← ready.indent, ← ready.column])]
      exact
        { ready with
          kinds := by simp [ready.kinds]
          rest, column
          allowed := rfl
          keys := rfl }
  exact ⟨_, value, by simpa using ready_take entered 1 .value⟩

theorem fetches_key {l : Lexer} (arrives : Arrives l v) (word : IsKeyName name)
    (here : v.rest = name.toList ++ ':' :: more) (parts : more.head?.all partsWords = true)
    (allowed : v.allowed = true) (inside : v.indent ≤ v.column) :
    ∃ next, Fetches 2 l next ∧ Ready next
      { v.enter .blockMappingStart with
        rest := more, column := v.column + name.toList.length + 1, allowed := false
        kinds := (v.enter .blockMappingStart).kinds ++ [.key, .scalar name .plain, .value] } := by
  obtain ⟨r, going, fetched, ready⟩ := settle?_of_arrives arrives inside
  rw [read?_of_key ready word here parts allowed] at fetched
  obtain ⟨next, value, entered⟩ := ready_value ready here
  have fetched' : (r.behindWord name).fetch? = some next := by
    rw [fetch?, settle?_behindWord ready word here inside]
    exact (read?_behindWord ready here parts).trans value
  exact ⟨next, .more going fetched (.one ready.going fetched'), entered⟩

end Keys

end Lexer

end PolicyDiagram.Yaml
