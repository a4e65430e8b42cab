import PolicyDiagram.Proofs.Data.Verbal
import PolicyDiagram.Proofs.Yaml.Cursor

/-! Plain scalars read back: the words of a line and the blanks between them, up to the line end behind which
a lesser column starts. -/

namespace PolicyDiagram.Yaml.Cursor

open Data (IsLetter)

/-! ## Gaps -/

theorem gap?_spaces {c : Cursor} {x : Char} {more : List Char} {count fuel : Nat}
    (here : c.Before (spaces count ++ x :: more)) (solid : IsSolid x) (enough : count < fuel) (limit : Int)
    (blanks : List Char) :
    c.gap? limit ⟨false, blanks, none, []⟩ fuel =
      some (⟨false, spaces count ++ blanks, none, []⟩, c.skip count) := by
  induction count generalizing c fuel blanks with
  | zero =>
    obtain ⟨fuel, rfl⟩ : ∃ spare, fuel = spare + 1 := ⟨fuel - 1, by omega⟩
    have rest : c.rest = x :: more := by simpa using here.rest
    have notBlank : c.seesAny isBlank = false := by simp [seesAny, peek?, rest, solid.1]
    simp [gap?, notBlank, lineEnd?_of_solid rest solid.2, here.ask?]
  | succ count ih =>
    obtain ⟨fuel, rfl⟩ : ∃ spare, fuel = spare + 1 := ⟨fuel - 1, by omega⟩
    have here : c.Before (' ' :: (spaces count ++ x :: more)) := by simpa [List.replicate_succ] using here
    have blank : c.seesAny isBlank = true := by simp [seesAny, peek?, here.rest, isBlank]
    have onward := ih here.skip_one (show count < fuel by omega) (' ' :: blanks)
    have joined : spaces count ++ ' ' :: blanks = spaces (count + 1) ++ blanks := by
      rw [spaces, spaces, List.replicate_succ']
      simp
    rw [joined, skip_skip, Nat.add_comm 1 count] at onward
    simpa [gap?, blank, here.rest] using onward

theorem gap?_folded {c : Cursor} {tail : List Char} {count fuel : Nat} (here : c.Before (spaces count ++ tail))
    (solid : ∀ x ∈ tail.head?, IsSolid x) (enough : count < fuel) (limit : Int) (blanks more : List Char)
    (first : Option Char) :
    c.gap? limit ⟨true, blanks, first, more⟩ fuel =
      some (⟨true, blanks, first, more⟩, c.skip count) := by
  induction count generalizing c fuel with
  | zero =>
    obtain ⟨fuel, rfl⟩ : ∃ spare, fuel = spare + 1 := ⟨fuel - 1, by omega⟩
    have rest : c.rest = tail := by simpa using here.rest
    have noEnd := lineEnd?_of_unbroken rest fun x member => (solid x member).2
    have notBlank : c.seesAny isBlank = false := by
      rw [seesAny, peek?, rest]
      cases tail with
      | nil => rfl
      | cons x tail => exact (solid x rfl).1
    simp [gap?, notBlank, noEnd, here.ask?]
  | succ count ih =>
    obtain ⟨fuel, rfl⟩ : ∃ spare, fuel = spare + 1 := ⟨fuel - 1, by omega⟩
    have here : c.Before (' ' :: (spaces count ++ tail)) := by simpa [List.replicate_succ] using here
    have blank : c.seesAny isBlank = true := by simp [seesAny, peek?, here.rest, isBlank]
    have noTab : c.sees '\t' = false := by simp [sees, peek?, here.rest]
    have onward := ih here.skip_one (show count < fuel by omega)
    rw [skip_skip, Nat.add_comm 1 count] at onward
    simpa [gap?, blank, noTab] using onward

theorem gap?_newline {c : Cursor} {tail : List Char} {count fuel : Nat}
    (here : c.Before ('\n' :: (spaces count ++ tail))) (solid : ∀ x ∈ tail.head?, IsSolid x)
    (enough : count + 1 < fuel) (limit : Int) (blanks : List Char) :
    c.gap? limit ⟨false, blanks, none, []⟩ fuel =
      some (⟨true, [], some '\n', []⟩, (c.nextLineAfter 1).skip count) := by
  obtain ⟨fuel, rfl⟩ : ∃ spare, fuel = spare + 1 := ⟨fuel - 1, by omega⟩
  have notBlank : c.seesAny isBlank = false := by simp [seesAny, peek?, here.rest, isBlank]
  have ends := lineEnd?_of_kept here.rest (.inl rfl)
  have onward := gap?_folded here.nextLine solid (show count < fuel by omega) limit [] [] (some '\n')
  simpa [gap?, notBlank, ends] using onward

/-! ## Words -/

/-- The pending gap and a word behind it, up to a mark. -/
def PlainText.add (plain : PlainText) (word : List Char) (stop : Mark) : PlainText :=
  ⟨word.reverse ++ plain.pending.text ++ plain.text, stop, Gap.none⟩

theorem PlainText.add_add (plain : PlainText) (front back : List Char) (first stop : Mark) :
    (plain.add front first).add back stop = plain.add (front ++ back) stop := by
  simp [add, Gap.none, Gap.text]

theorem PlainText.add_start (word : List Char) (mark stop : Mark) :
    PlainText.add ⟨[], mark, Gap.none⟩ word stop = ⟨word.reverse, stop, Gap.none⟩ := by
  simp [add, Gap.none, Gap.text]

theorem plainWord?_of_char {c : Cursor} {x y : Char} {more : List Char} (here : c.Before (x :: y :: more))
    (solid : IsSolid x) (inner : (x == ':' && partsWords y) = false) (plain : PlainText) (fuel : Nat) :
    c.plainWord? false plain (fuel + 1) =
      (c.skip 1).plainWord? false (plain.add [x] (c.skip 1).mark) fuel := by
  have notSpace := atSpace_of_solid here.rest solid
  have continues : c.endsPlain false = false := by
    simpa [endsPlain, sees, peek?, spacedAfter, here.rest, partsWords] using inner
  simp [plainWord?, here.ask?, notSpace, continues, here.rest, PlainText.add]

/-- A word is read up to blank space behind it, or up to a colon that ends a key. -/
theorem plainWord?_of_word {c : Cursor} {word more : List Char} {fuel : Nat} (here : c.Before (word ++ more))
    (solid : ∀ x ∈ word, IsSolid x) (inner : hasPair (· == ':') partsWords (word ++ more.take 1) = false)
    (stops : ∀ next : Cursor, next.rest = more → next.atSpace = true ∨ next.endsPlain false = true)
    (filled : more ≠ []) (enough : word.length < fuel) (plain : PlainText) :
    c.plainWord? false plain fuel =
      some (if word.isEmpty then plain else plain.add word (c.skip word.length).mark, c.skip word.length) := by
  induction word generalizing c fuel plain with
  | nil =>
    obtain ⟨fuel, rfl⟩ : ∃ spare, fuel = spare + 1 := ⟨fuel - 1, by omega⟩
    rcases stops c here.rest with space | colon
    · simp [plainWord?, here.ask?, space]
    · simp [plainWord?, here.ask?, colon]
  | cons x word ih =>
    obtain ⟨fuel, rfl⟩ : ∃ spare, fuel = spare + 1 := ⟨fuel - 1, by omega⟩
    -- Whether a colon ends the word depends on the character behind it, which may be behind the word.
    obtain ⟨y, others, behind⟩ := List.exists_cons_of_ne_nil (show word ++ more ≠ [] by simp [filled])
    rw [List.cons_append, behind] at here
    rw [List.cons_append, hasPair_cons, Bool.or_eq_false_iff] at inner
    have next : (word ++ more.take 1).head? = some y := by
      simpa [List.head?_take] using congrArg List.head? behind
    have apart : (x == ':' && partsWords y) = false := by simpa [next] using inner.1
    have beyond : (c.skip 1).Before (word ++ more) := behind ▸ here.skip_one
    have onward := ih beyond (fun z member => solid z (by simp [member])) inner.2
      (show word.length < fuel by simpa using enough) (plain.add [x] (c.skip 1).mark)
    rw [plainWord?_of_char here (solid x (by simp)) apart, onward, skip_skip, PlainText.add_add,
      List.length_cons, Nat.add_comm 1]
    cases word <;> simp

/-! ## Texts -/

/-- A text of one line that a plain scalar can hold. -/
structure PlainLine (text : List Char) : Prop where
  chars : ∀ x ∈ text, x = ' ' ∨ IsSolid x
  colons : hasPair (· == ':') partsWords (text ++ ['\n']) = false
  hashes : hasPair partsWords (· == '#') text = false
  first : ∀ x ∈ text.head?, x ≠ ' ' ∧ x ≠ '#'
  last : ∀ x ∈ text.getLast?, x ≠ ' '

theorem PlainLine.solid {x : Char} {rest : List Char} (line : PlainLine (x :: rest)) : IsSolid x :=
  (line.chars x (by simp)).resolve_left (line.first x rfl).1

theorem PlainLine.behind_blank {front others : List Char} {y : Char}
    (line : PlainLine (front ++ ' ' :: y :: others)) (starts : y ≠ ' ') : PlainLine (y :: others) := by
  have joined : front ++ ' ' :: y :: others = front ++ [' '] ++ y :: others := by simp
  have colons := line.colons
  have hashes := line.hashes
  refine ⟨fun x member => line.chars x (by simp [member]), ?_, ?_, ?_, fun x member => line.last x ?_⟩
  · rw [joined, List.append_assoc] at colons
    exact hasPair_right colons
  · rw [joined] at hashes
    exact hasPair_right hashes
  · intro x member
    obtain rfl : y = x := by simpa using member
    refine ⟨starts, ?_⟩
    rintro rfl
    exact absurd (hasPair_between hashes) (by decide)
  · rw [List.getLast?_append, List.getLast?_cons_cons]
    simp [Option.mem_def.mp member]

/-- The first word of a line, and the line behind the blanks that follow it. -/
theorem PlainLine.split {text : List Char} (line : PlainLine text) (filled : text ≠ []) :
    ∃ word rest, text = word ++ rest ∧ word ≠ [] ∧ (∀ x ∈ word, IsSolid x) ∧
      (rest = [] ∨ ∃ count y others, rest = spaces (count + 1) ++ y :: others ∧ PlainLine (y :: others)) := by
  obtain ⟨word, rest, rfl, apart, ends⟩ := leading_run (· != ' ') text
  refine ⟨word, rest, rfl, ?_, ?_, ?_⟩
  · rintro rfl
    obtain ⟨x, others, rfl⟩ := List.exists_cons_of_ne_nil filled
    exact (line.first x rfl).1 (by simpa using ends x rfl)
  · intro x member
    rcases line.chars x (by simp [member]) with rfl | solid
    · exact absurd (apart ' ' member) (by decide)
    · exact solid
  · obtain ⟨count, others, rfl, starts⟩ := leading_spaces rest
    cases count with
    | zero =>
      cases others with
      | nil => exact .inl rfl
      | cons y others => exact absurd (by simpa using ends y rfl) (starts y rfl)
    | succ count =>
      have parted : spaces (count + 1) = spaces count ++ [' '] := List.replicate_succ'
      cases others with
      | nil => exact absurd rfl (line.last ' ' (by simp [parted]))
      | cons y others =>
        refine .inr ⟨count, y, others, rfl, ?_⟩
        rw [parted, List.append_assoc, ← List.append_assoc] at line
        exact line.behind_blank (starts y rfl)

theorem plainWord?_of_line {word rest more : List Char} (line : PlainLine (word ++ rest)) (filled : word ≠ [])
    (solid : ∀ x ∈ word, IsSolid x) (parts : ∀ x ∈ rest.head?, partsWords x = true) {c : Cursor}
    (here : c.Before (word ++ (rest ++ '\n' :: more))) (plain : PlainText) :
    c.plainWord? false plain (c.rest.length + 1) =
      some (plain.add word (c.skip word.length).mark, c.skip word.length) := by
  obtain ⟨x, others, behind, parts⟩ :
      ∃ x others, rest ++ '\n' :: more = x :: others ∧ partsWords x = true := by
    cases rest with
    | nil => exact ⟨'\n', more, rfl, rfl⟩
    | cons x rest => exact ⟨x, _, rfl, parts x rfl⟩
  have inner : hasPair (· == ':') partsWords (word ++ (rest ++ '\n' :: more).take 1) = false := by
    have whole := line.colons
    have cut : word ++ rest ++ ['\n'] = word ++ (rest ++ '\n' :: more).take 1 ++ (rest ++ ['\n']).drop 1 := by
      cases rest <;> simp
    rw [cut] at whole
    exact hasPair_left whole
  have stops : ∀ next : Cursor, next.rest = rest ++ '\n' :: more →
      next.atSpace = true ∨ next.endsPlain false = true :=
    fun next same => .inl (by simpa [atSpace_eq, same, behind] using parts)
  have read := plainWord?_of_word here solid inner stops (by simp) (short_of_append here.rest) plain
  rwa [if_neg (by simpa using filled)] at read

theorem plainBody?_of_word {word rest more : List Char} (line : PlainLine (word ++ rest)) (filled : word ≠ [])
    (solid : ∀ x ∈ word, IsSolid x) (parts : ∀ x ∈ rest.head?, partsWords x = true) {c next after : Cursor}
    (here : c.Before (word ++ (rest ++ '\n' :: more))) (inside : 0 < c.mark.column)
    (skipped : next = c.skip word.length) {indent : Int} {pending : Gap}
    (gap : next.gap? indent Gap.none (next.rest.length + 1) = some (pending, after)) (plain : PlainText)
    (fuel : Nat) :
    c.plainBody? false indent plain (fuel + 1) =
      if (after.mark.column : Int) < indent then some ({ plain.add word next.mark with pending }, after)
      else after.plainBody? false indent { plain.add word next.mark with pending } fuel := by
  have noIndicator := not_atDocumentIndicator inside
  have noComment : c.sees '#' = false := by
    obtain ⟨x, others, rfl⟩ := List.exists_cons_of_ne_nil filled
    simp [sees, peek?, here.rest, (line.first x rfl).2]
  have read := plainWord?_of_line line filled solid parts here plain
  rw [← skipped] at read
  have gapped : (next.seesAny fun x => isBlank x || isBreak x) = true := by
    rw [seesAny, peek?, skipped, here.skip.rest]
    cases rest with
    | nil => rfl
    | cons x rest => exact parts x rfl
  simp [plainBody?, here.ask?, noIndicator, noComment, read, gapped, gap]

/-- The words of a line, up to the line end and the indentation of the next line. The induction is on the
words; the blanks before a word are pending until it starts. -/
theorem plainBody?_of_line {text : List Char} (line : PlainLine text) (filled : text ≠ []) {c : Cursor}
    {tail : List Char} {count fuel : Nat} {indent : Int} (here : c.Before (text ++ '\n' :: (spaces count ++ tail)))
    (lands : ∀ x ∈ tail.head?, IsSolid x) (inside : 0 < indent ∧ indent ≤ c.mark.column)
    (behind : (count : Int) < indent) (enough : text.length < fuel) (plain : PlainText) :
    ∃ stop next, c.plainBody? false indent plain fuel =
        some ({ plain.add text stop with pending := ⟨true, [], some '\n', []⟩ }, next) ∧
      next.Before tail ∧ next.mark.column = count ∧ next.mark.line = c.mark.line + 1 := by
  induction fuel generalizing text c plain with
  | zero => omega
  | succ fuel ih =>
    obtain ⟨word, rest, rfl, wordFilled, solid, ends⟩ := line.split filled
    rw [List.append_assoc] at here
    obtain ⟨next, skipped⟩ : ∃ next, next = c.skip word.length := ⟨_, rfl⟩
    have arrived : next.Before (rest ++ '\n' :: (spaces count ++ tail)) := skipped ▸ here.skip
    rcases ends with rfl | ⟨n, y, others, rfl, othersLine⟩
    · -- Behind the last word the line ends, and the next token is too far left to be part of the scalar.
      have arrived : next.Before ('\n' :: (spaces count ++ tail)) := arrived
      have short : count + 1 < next.rest.length + 1 := by
        simpa using short_of_append (show next.rest = '\n' :: spaces count ++ tail from arrived.rest)
      have gap := gap?_newline arrived lands short indent []
      refine ⟨next.mark, (next.nextLineAfter 1).skip count, ?_, arrived.nextLine.skip_spaces, by simp,
        by simp [skipped]⟩
      rw [plainBody?_of_word line wordFilled solid (by simp) here (by omega) skipped gap,
        if_pos (by simpa using behind), List.append_nil]
    · rw [List.append_assoc] at arrived
      have short : n + 1 < next.rest.length + 1 := by simpa using short_of_append arrived.rest
      have gap := gap?_spaces arrived othersLine.solid short indent []
      obtain ⟨stop, last, whole, landed, column, lines⟩ := ih othersLine (List.cons_ne_nil _ _)
        arrived.skip_spaces (by simp [skipped]; omega) (by simp at enough ⊢; omega)
        { plain.add word next.mark with pending := ⟨false, spaces (n + 1) ++ [], none, []⟩ }
      refine ⟨stop, last, ?_, landed, column, by simp [lines, skipped]⟩
      rw [plainBody?_of_word line wordFilled solid (by simp [List.replicate_succ]; rfl) here (by omega) skipped gap,
        if_neg (by simp [skipped]; omega), whole]
      simp [PlainText.add, Gap.text]

theorem plain?_of_line {text : List Char} (line : PlainLine text) (filled : text ≠ []) {c : Cursor}
    {tail : List Char} {count : Nat} {indent : Int} (here : c.Before (text ++ '\n' :: (spaces count ++ tail)))
    (lands : ∀ x ∈ tail.head?, IsSolid x) (inside : 0 < indent ∧ indent ≤ c.mark.column)
    (behind : (count : Int) < indent) :
    ∃ stop next, c.plain? false indent =
        some (⟨.scalar (String.ofList text) .plain, c.mark, stop⟩, true, next) ∧
      next.Before tail ∧ next.mark.column = count ∧ next.mark.line = c.mark.line + 1 := by
  obtain ⟨stop, next, read, landed⟩ := plainBody?_of_line line filled here lands inside behind
    (short_of_append here.rest) ⟨[], c.mark, Gap.none⟩
  rw [PlainText.add_start] at read
  refine ⟨stop, next, ?_, landed⟩
  simp [plain?, read]

/-! ## Keys -/

theorem solid_of_letter {x : Char} (letter : IsLetter x) :
    IsSolid x ∧ x ≠ ':' ∧ x ≠ '#' ∧ x ≠ '-' ∧ x ≠ '.' := by
  have apart (y : Char) (other : y.isLower = false ∧ y ≠ '_') : x ≠ y := by
    rintro rfl
    rcases letter with lower | rfl
    · exact absurd lower (by simp [other.1])
    · exact other.2 rfl
  refine ⟨⟨?_, ?_⟩, apart ':' (by decide), apart '#' (by decide), apart '-' (by decide),
    apart '.' (by decide)⟩
  · simp [isBlank, apart ' ' (by decide), apart '\t' (by decide)]
  · simp [isBreak, apart '\n' (by decide), apart '\r' (by decide), apart nextLine (by decide),
      apart lineSeparator (by decide), apart paragraphSeparator (by decide)]

theorem hasPair_letters {word : List Char} (letters : ∀ x ∈ word, IsLetter x) :
    hasPair (· == ':') partsWords (word ++ [':']) = false := by
  induction word with
  | nil => rfl
  | cons y word ih =>
    have notColon := (solid_of_letter (letters y (by simp))).2.1
    rw [List.cons_append, hasPair_cons, ih fun z member => letters z (by simp [member])]
    simp [notColon]

theorem plain?_of_key {word more : List Char} {c : Cursor} (here : c.Before (word ++ ':' :: more))
    (filled : word ≠ []) (letters : ∀ x ∈ word, IsLetter x) (parts : more.head?.all partsWords = true)
    (indent : Int) :
    c.plain? false indent = some (⟨.scalar (String.ofList word) .plain, c.mark, (c.skip word.length).mark⟩,
      false, c.skip word.length) := by
  obtain ⟨x, others, whole⟩ := List.exists_cons_of_ne_nil filled
  obtain ⟨-, -, notHash, notDash, notDot⟩ := solid_of_letter (letters x (by simp [whole]))
  have noIndicator : c.atDocumentIndicator = false := by
    simp [atDocumentIndicator, atTriple, here.rest, whole, notDash, notDot]
  have noComment : c.sees '#' = false := by simp [sees, peek?, here.rest, whole, notHash]
  have stops : ∀ next : Cursor, next.rest = ':' :: more →
      next.atSpace = true ∨ next.endsPlain false = true := by
    intro next same
    right
    have spaced : next.spacedAfter 1 = true := by
      rw [spacedAfter, same]
      exact parts
    simp [endsPlain, sees, peek?, same, spaced]
  have read := plainWord?_of_word here (fun y member => (solid_of_letter (letters y member)).1)
    (hasPair_letters letters) stops (List.cons_ne_nil _ _) (short_of_append here.rest) ⟨[], c.mark, Gap.none⟩
  rw [if_neg (by simpa using filled), PlainText.add_start] at read
  have ends : ((c.skip word.length).seesAny fun x => isBlank x || isBreak x) = false := by
    rw [seesAny, peek?, here.skip.rest]
    rfl
  simp [plain?, plainBody?, here.ask?, noIndicator, noComment, read, ends]
  rfl

end PolicyDiagram.Yaml.Cursor
