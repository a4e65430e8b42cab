import PolicyDiagram.Proofs.Yaml.Escape
import PolicyDiagram.Proofs.Yaml.Plain

/-! Quoted scalars read back. Only single-quoted ones hold line ends, which are followed by the indentation of
the next line unless that is empty. -/

namespace PolicyDiagram.Yaml

/-- The quote of a style. -/
def quoteOf (single : Bool) : Char := if single then '\'' else '"'

/-- How a character is written between quotes. -/
def spelled (single : Bool) (x : Char) : List Char :=
  if single then (if x = '\'' then ['\'', '\''] else [x]) else escaped x

/-- Whether a character parts the words of a quoted scalar. -/
def parts (single : Bool) (x : Char) : Bool := x == ' ' || (single && isBreak x)

/-- What stands behind the opening quote of a scalar whose other lines are indented. -/
def between (single : Bool) (indent : Nat) : List Char → List Char
  | [] => [quoteOf single]
  | x :: rest =>
    spelled single x ++ (if single && isBreak x && !rest.head?.any isBreak then spaces indent else []) ++
      between single indent rest

/-- A text that a style of quotes can hold. -/
structure Quotable (single : Bool) (text : List Char) : Prop where
  chars : single = true → ∀ x ∈ text, x = ' ' ∨ IsSolid x ∨ x = lineSeparator ∨ x = paragraphSeparator
  before : single = true → hasPair (· == ' ') isBreak text = false
  after : single = true → hasPair isBreak (· == ' ') text = false

theorem Quotable.solid {single : Bool} {text : List Char} (quotable : Quotable single text)
    (s : single = true) {x : Char} (member : x ∈ text) (inner : parts single x = false) : IsSolid x := by
  subst s
  rcases quotable.chars rfl x member with rfl | solid | rfl | rfl
  · exact absurd inner (by decide)
  · exact solid
  · exact absurd inner (by decide)
  · exact absurd inner (by decide)

theorem between_word {single : Bool} {word : List Char} (inner : ∀ x ∈ word, parts single x = false)
    (indent : Nat) (rest : List Char) :
    between single indent (word ++ rest) = word.flatMap (spelled single) ++ between single indent rest := by
  induction word with
  | nil => rfl
  | cons x word ih =>
    have noBreak : (single && isBreak x) = false := by
      have := inner x (by simp)
      rw [parts, Bool.or_eq_false_iff] at this
      exact this.2
    rw [List.cons_append, between, ih fun y member => inner y (by simp [member])]
    simp [noBreak]

theorem between_spaces (single : Bool) (indent count : Nat) (rest : List Char) :
    between single indent (spaces count ++ rest) = spaces count ++ between single indent rest := by
  induction count with
  | zero => rfl
  | succ count ih =>
    have one : spelled single ' ' = [' '] := by cases single <;> rfl
    have noBreak : isBreak ' ' = false := rfl
    simp [List.replicate_succ, between, ih, one, noBreak]

theorem between_breaks {breaks rest : List Char} (each : ∀ x ∈ breaks, isBreak x = true)
    (filled : breaks ≠ []) (ends : ∀ x ∈ rest.head?, isBreak x = false) (indent : Nat) :
    between true indent (breaks ++ rest) = breaks ++ (spaces indent ++ between true indent rest) := by
  induction breaks with
  | nil => exact absurd rfl filled
  | cons x breaks ih =>
    have lineEnd := each x (by simp)
    have one : spelled true x = [x] := by
      have : x ≠ '\'' := by rintro rfl; simp [isBreak] at lineEnd; contradiction
      simp [spelled, this]
    cases breaks with
    | nil =>
      have ends : rest.head?.any isBreak = false := by
        cases rest with
        | nil => rfl
        | cons y rest => exact ends y rfl
      simp [between, one, lineEnd, ends]
    | cons y breaks =>
      have next := each y (by simp)
      have onward := ih (fun z member => each z (by simp [member])) (List.cons_ne_nil _ _)
      rw [List.cons_append, between, onward]
      simp [one, lineEnd, next]

theorem spelled_ne_nil (single : Bool) (x : Char) : spelled single x ≠ [] := by
  cases single with
  | true =>
    rw [spelled, if_pos rfl]
    split <;> simp
  | false =>
    rcases escaped_cases x with ⟨itself, -⟩ | reads
    · simp [spelled, itself]
    · obtain ⟨⟨others, written⟩, -⟩ := reads ⟨escaped x, default, true⟩ [] (by simp)
      simp [spelled, show escaped x = '\\' :: others from written]

theorem length_le_spelled (single : Bool) (word : List Char) :
    word.length ≤ (word.flatMap (spelled single)).length := by
  induction word with
  | nil => simp
  | cons x word ih =>
    have := List.length_pos_iff.mpr (spelled_ne_nil single x)
    simp only [List.flatMap_cons, List.length_append, List.length_cons]
    omega

theorem length_le_between (single : Bool) (indent : Nat) (text : List Char) :
    text.length ≤ (between single indent text).length := by
  induction text with
  | nil => simp
  | cons x text ih =>
    have := List.length_pos_iff.mpr (spelled_ne_nil single x)
    simp only [between, List.length_append, List.length_cons]
    omega

/-- A text that does not begin with a gap begins with a word or the closing quote. -/
theorem between_solid {single : Bool} {text : List Char} (quotable : Quotable single text)
    (starts : ∀ x ∈ text.head?, parts single x = false) (indent : Nat) :
    ∃ y more, between single indent text = y :: more ∧ IsSolid y := by
  cases text with
  | nil => exact ⟨quoteOf single, [], rfl, by cases single <;> decide⟩
  | cons x text =>
    have inner := starts x rfl
    have notBlank : x ≠ ' ' := by rintro rfl; simp [parts] at inner
    cases single with
    | true =>
      have solid := quotable.solid rfl (by simp) inner
      have noBreak := solid.2
      by_cases quote : x = '\''
      · exact ⟨'\'', _, by simp [between, spelled, quote]; rfl, by decide⟩
      · exact ⟨x, _, by simp [between, spelled, quote]; rfl, solid⟩
    | false =>
      rcases escaped_cases x with ⟨itself, -, -, solid⟩ | reads
      · exact ⟨x, _, by simp [between, spelled, itself]; rfl, solid.resolve_left notBlank⟩
      · obtain ⟨⟨others, written⟩, -⟩ := reads ⟨escaped x, default, true⟩ [] (by simp)
        exact ⟨'\\', _, by simp [between, spelled, show escaped x = '\\' :: others from written]; rfl,
          by decide⟩

theorem Quotable.suffix {single : Bool} {first others : List Char}
    (quotable : Quotable single (first ++ others)) : Quotable single others :=
  ⟨fun s x member => quotable.chars s x (by simp [member]), fun s => hasPair_right (quotable.before s),
    fun s => hasPair_right (quotable.after s)⟩

theorem Quotable.tail {single : Bool} {x : Char} {others : List Char}
    (quotable : Quotable single (x :: others)) : Quotable single others :=
  (show Quotable single ([x] ++ others) from quotable).suffix

theorem Quotable.behind_blank {single : Bool} {first others : List Char}
    (quotable : Quotable single (first ++ ' ' :: others)) (ends : ∀ x ∈ others.head?, x ≠ ' ') :
    ∀ x ∈ others.head?, parts single x = false := by
  cases others with
  | nil => simp
  | cons y others =>
    intro x member
    obtain rfl : y = x := by simpa using member
    have notBlank : y ≠ ' ' := ends y rfl
    cases single with
    | false => simp [parts, notBlank]
    | true => simpa [parts, notBlank] using hasPair_between (quotable.before rfl)

theorem Quotable.behind_break {first others : List Char} {x : Char}
    (quotable : Quotable true (first ++ x :: others)) (lineEnd : isBreak x = true)
    (ends : ∀ y ∈ others.head?, isBreak y = false) : ∀ y ∈ others.head?, parts true y = false := by
  cases others with
  | nil => simp
  | cons z others =>
    intro y member
    obtain rfl : z = y := by simpa using member
    have noBreak : isBreak z = false := ends z rfl
    simpa [parts, noBreak, lineEnd] using hasPair_between (quotable.after rfl)

theorem Quotable.separators {before breaks others : List Char}
    (quotable : Quotable true (before ++ (breaks ++ others))) (each : ∀ x ∈ breaks, isBreak x = true) :
    ∀ x ∈ breaks, x = lineSeparator ∨ x = paragraphSeparator := by
  intro x member
  rcases quotable.chars rfl x (by simp [member]) with rfl | solid | separator
  · exact absurd (each ' ' member) (by decide)
  · exact absurd (each x member) (by simp [solid.2])
  · exact separator

/-- A first word, and a gap behind it unless the text ends there. -/
theorem Quotable.split {single : Bool} {text : List Char} (quotable : Quotable single text) :
    ∃ word rest, text = word ++ rest ∧ (∀ x ∈ word, parts single x = false) ∧
      (single = true → ∀ x ∈ word, IsSolid x) ∧
      (rest = [] ∨
        (∃ count others, rest = spaces (count + 1) ++ others ∧ Quotable single others ∧
          ∀ x ∈ others.head?, parts single x = false) ∨
        (single = true ∧ ∃ x breaks others, rest = x :: breaks ++ others ∧
          (∀ y ∈ x :: breaks, y = lineSeparator ∨ y = paragraphSeparator) ∧ Quotable single others ∧
          ∀ y ∈ others.head?, parts single y = false)) := by
  obtain ⟨word, rest, rfl, apart, ends⟩ := leading_run (fun x => !parts single x) text
  have inner : ∀ x ∈ word, parts single x = false := fun x member => by simpa using apart x member
  refine ⟨word, rest, rfl, inner,
    fun s x member => quotable.solid s (by simp [member]) (inner x member), ?_⟩
  cases rest with
  | nil => exact .inl rfl
  | cons x rest =>
    have gap : parts single x = true := by simpa using ends x rfl
    by_cases blank : x = ' '
    · subst blank
      obtain ⟨count, others, rfl, starts⟩ := leading_spaces rest
      have shifted : ' ' :: spaces count = spaces count ++ [' '] := List.replicate_succ'
      have joined : word ++ ' ' :: (spaces count ++ others) = word ++ spaces count ++ ' ' :: others := by
        rw [List.append_assoc, ← List.cons_append, shifted]
        simp
      rw [joined] at quotable
      exact .inr (.inl ⟨count, others, rfl, quotable.suffix.tail, quotable.behind_blank starts⟩)
    · cases single with
      | false => simp [parts, blank] at gap
      | true =>
        have lineEnd : isBreak x = true := by simpa [parts, blank] using gap
        obtain ⟨breaks, others, rfl, each, starts⟩ := leading_run isBreak rest
        have kept : ∀ y ∈ x :: breaks, isBreak y = true := by simpa [lineEnd] using each
        have separators :=
          (show Quotable true (word ++ (x :: breaks ++ others)) from quotable).separators kept
        -- The last of the line ends stands directly in front of what follows them.
        obtain ⟨before, z, last⟩ : ∃ before z, x :: breaks = before ++ [z] :=
          ⟨_, _, (List.dropLast_concat_getLast (List.cons_ne_nil x breaks)).symm⟩
        have joined : word ++ x :: (breaks ++ others) = word ++ before ++ z :: others := by
          rw [← List.cons_append, last]
          simp
        rw [joined] at quotable
        exact .inr (.inr ⟨rfl, x, breaks, others, rfl, separators, quotable.suffix.tail,
          quotable.behind_break (kept z (by simp [last])) starts⟩)

namespace Cursor

/-! ## Words -/

theorem quotedWord?_of_char {single : Bool} {x : Char} {c : Cursor} {more : List Char}
    (here : c.Before (spelled single x ++ more)) (inner : parts single x = false)
    (solid : single = true → IsSolid x) (text : List Char) (fuel : Nat) :
    c.quotedWord? single text (fuel + 1) =
      (c.skip (spelled single x).length).quotedWord? single (x :: text) fuel := by
  have notBlank : x ≠ ' ' := by rintro rfl; simp [parts] at inner
  cases single with
  | true =>
    have solid := solid rfl
    by_cases quote : x = '\''
    · subst quote
      have rest : c.rest = '\'' :: '\'' :: more := here.rest
      have notSpace := atSpace_of_solid rest (by decide)
      simp [quotedWord?, here.ask?, notSpace, rest, spelled]
    · have rest : c.rest = x :: more := by simpa [spelled, quote] using here.rest
      have notSpace := atSpace_of_solid rest solid
      have notQuote : c.sees '\'' = false := by simp [sees, peek?, rest, quote]
      simp [quotedWord?, here.ask?, notSpace, rest, notQuote, spelled, quote]
  | false =>
    -- Between double quotes a character is written as it is, or as an escape that is read whole.
    rcases escaped_cases x with ⟨written, notQuote, notEscape, solid⟩ | reads
    · have rest : c.rest = x :: more := by simpa [spelled, written] using here.rest
      have solid : IsSolid x := solid.resolve_left notBlank
      have notSpace := atSpace_of_solid rest solid
      simp [quotedWord?, here.ask?, notSpace, sees, peek?, rest, notQuote, notEscape, spelled, written]
    · obtain ⟨⟨others, rest⟩, noLineEnd, read⟩ := reads c more (by simpa [spelled] using here.rest)
      have escape : c.sees '\\' = true := by simp [sees, peek?, rest]
      have notSpace := atSpace_of_solid rest (by decide)
      have notQuote : c.sees '"' = false := by simp [sees, peek?, rest]
      simp [quotedWord?, here.ask?, notSpace, notQuote, escape, noLineEnd, read, spelled]

/-- What follows a closing quote. -/
def Closes (single : Bool) (more : List Char) : Prop := single = true → more.head? ≠ some '\''

/-- The end of a word: blank space or a line end, or the closing quote. -/
def EndsWord (single : Bool) (more : List Char) : Prop :=
  (∃ x others, more = x :: others ∧ partsWords x = true) ∨
    ∃ others, more = quoteOf single :: others ∧ Closes single others

theorem quotedWord?_of_end {single : Bool} {more : List Char} (ends : EndsWord single more) {c : Cursor}
    (here : c.Before more) (text : List Char) (fuel : Nat) :
    c.quotedWord? single text (fuel + 1) = some (text, false, c) := by
  rcases ends with ⟨x, others, rfl, space⟩ | ⟨others, rfl, closes⟩
  · have space : c.atSpace = true := by simpa [atSpace_eq, here.rest] using space
    simp [quotedWord?, here.ask?, space]
  · have notSpace : c.atSpace = false := by
      refine atSpace_of_solid here.rest ?_
      cases single <;> decide
    cases single with
    | true =>
      have alone : ¬∃ more, others = '\'' :: more := by
        rintro ⟨more, rfl⟩
        exact closes rfl rfl
      cases others with
      | nil => simp [quotedWord?, here.ask?, notSpace, sees, peek?, here.rest, quoteOf]
      | cons y others =>
        have other : y ≠ '\'' := by simpa using alone
        simp [quotedWord?, here.ask?, notSpace, sees, peek?, here.rest, quoteOf, other]
    | false => simp [quotedWord?, here.ask?, notSpace, sees, peek?, here.rest, quoteOf]

theorem quotedWord?_of_word {single : Bool} {word more : List Char} {c : Cursor} {fuel : Nat}
    (here : c.Before (word.flatMap (spelled single) ++ more)) (inner : ∀ x ∈ word, parts single x = false)
    (solid : single = true → ∀ x ∈ word, IsSolid x) (ends : EndsWord single more)
    (enough : word.length < fuel) (text : List Char) :
    c.quotedWord? single text fuel =
      some (word.reverse ++ text, false, c.skip (word.flatMap (spelled single)).length) := by
  induction word generalizing c fuel text with
  | nil =>
    obtain ⟨fuel, rfl⟩ : ∃ spare, fuel = spare + 1 := ⟨fuel - 1, by omega⟩
    simpa using quotedWord?_of_end ends here text fuel
  | cons x word ih =>
    obtain ⟨fuel, rfl⟩ : ∃ spare, fuel = spare + 1 := ⟨fuel - 1, by omega⟩
    have here : c.Before (spelled single x ++ (word.flatMap (spelled single) ++ more)) := by simpa using here
    have onward := ih here.skip (fun y member => inner y (by simp [member]))
      (fun s y member => solid s y (by simp [member])) (show word.length < fuel by simpa using enough)
      (x :: text)
    rw [quotedWord?_of_char here (inner x (by simp)) (fun s => solid s x (by simp)), onward, skip_skip]
    simp

/-! ## Gaps -/

theorem IsKept.not_blank {x : Char} (kept : IsKept x) : isBlank x = false := by
  rcases kept with rfl | rfl | rfl <;> rfl

theorem gap?_breaks {breaks tail : List Char} {count fuel : Nat} {c : Cursor}
    (here : c.Before (breaks ++ (spaces count ++ tail))) (kept : ∀ x ∈ breaks, IsKept x)
    (solid : ∀ x ∈ tail.head?, IsSolid x) (enough : breaks.length + count < fuel) (limit : Int)
    (blanks more : List Char) (first : Option Char) :
    ∃ next, c.gap? limit ⟨true, blanks, first, more⟩ fuel =
        some (⟨true, blanks, first, breaks.reverse ++ more⟩, next) ∧
      next.Before tail ∧ c.mark.line ≤ next.mark.line ∧ count ≤ next.mark.column := by
  induction breaks generalizing c fuel more with
  | nil =>
    have here : c.Before (spaces count ++ tail) := here
    exact ⟨c.skip count, gap?_folded here solid (by simpa using enough) limit blanks more first,
      here.skip_spaces, by simp, by simp⟩
  | cons x breaks ih =>
    obtain ⟨fuel, rfl⟩ : ∃ spare, fuel = spare + 1 := ⟨fuel - 1, by omega⟩
    have here : c.Before (x :: (breaks ++ (spaces count ++ tail))) := here
    have lineEnd := kept x (by simp)
    have notBlank : c.seesAny isBlank = false := by simp [seesAny, peek?, here.rest, lineEnd.not_blank]
    obtain ⟨next, read, landed, line, column⟩ := ih here.nextLine (fun y member => kept y (by simp [member]))
      (show breaks.length + count < fuel by simp at enough; omega) (x :: more)
    refine ⟨next, ?_, landed, ?_, column⟩
    · simp [gap?, notBlank, lineEnd?_of_kept here.rest lineEnd, read]
    · simp at line
      omega

/-! ## Texts -/

theorem quotedBody?_of_word {single : Bool} {word more : List Char} (inner : ∀ x ∈ word, parts single x = false)
    (solid : single = true → ∀ x ∈ word, IsSolid x) (ends : EndsWord single more) {c next : Cursor}
    (here : c.Before (word.flatMap (spelled single) ++ more)) (inside : 0 < c.mark.column)
    (skipped : next = c.skip (word.flatMap (spelled single)).length) (before : List Char) (fuel : Nat) :
    c.quotedBody? single before (fuel + 1) =
      if next.sees (quoteOf single) then some (word.reverse ++ before, next.skip 1)
      else (next.gap? 0 Gap.none (next.rest.length + 1)).bind fun (gap, after) =>
        after.quotedBody? single (gap.text ++ (word.reverse ++ before)) fuel := by
  have noIndicator := not_atDocumentIndicator inside
  have filled : c.rest ≠ [] := by
    rcases ends with ⟨x, others, rfl, -⟩ | ⟨others, rfl, -⟩ <;> simp [here.rest]
  have short : word.length < c.rest.length + 1 := by
    have := length_le_spelled single word
    rw [here.rest, List.length_append]
    omega
  have read := quotedWord?_of_word here inner solid ends short before
  rw [← skipped] at read
  have inText : ¬(c.atDocumentIndicator = true ∨ c.rest.isEmpty = true) := by simp [noIndicator, filled]
  rw [quotedBody?, here.ask?, Option.bind_eq_bind, Option.bind_some, if_neg inText, read]
  rfl

theorem gap?_separators {x y : Char} {breaks more : List Char} {indent : Nat} {c : Cursor}
    (here : c.Before (x :: (breaks ++ (spaces indent ++ y :: more))))
    (separators : ∀ z ∈ x :: breaks, z = lineSeparator ∨ z = paragraphSeparator) (solid : IsSolid y) :
    ∃ next, c.gap? 0 Gap.none (c.rest.length + 1) =
        some (⟨true, [], some x, breaks.reverse⟩, next) ∧
      next.Before (y :: more) ∧ c.mark.line ≤ next.mark.line ∧ indent ≤ next.mark.column := by
  have kept : ∀ z ∈ x :: breaks, IsKept z := fun z member => .inr (separators z member)
  have notBlank : c.seesAny isBlank = false := by
    simp [seesAny, peek?, here.rest, (kept x (by simp)).not_blank]
  have many : breaks.length + indent < c.rest.length := by
    rw [here.rest, List.length_cons, List.length_append, List.length_append, List.length_replicate]
    omega
  obtain ⟨next, read, landed, line, column⟩ := gap?_breaks here.nextLine
    (fun z member => kept z (by simp [member])) (by simpa using solid) many 0 [] [] (some x)
  refine ⟨next, ?_, landed, ?_, column⟩
  · simpa [gap?, notBlank, Gap.none, lineEnd?_of_kept here.rest (kept x (by simp))] using read
  · simp at line
    omega

/-- The words and gaps of a text, up to its closing quote. The induction is on the words. -/
theorem quotedBody?_of_text {single : Bool} {text more : List Char} (quotable : Quotable single text)
    (closes : Closes single more) {indent fuel : Nat} (indented : 0 < indent) {c : Cursor}
    (here : c.Before (between single indent text ++ more)) (inside : 0 < c.mark.column)
    (enough : text.length < fuel) (before : List Char) :
    ∃ next, c.quotedBody? single before fuel = some (text.reverse ++ before, next) ∧
      next.Before more ∧ c.mark.line ≤ next.mark.line := by
  induction fuel generalizing text c before with
  | zero => omega
  | succ fuel ih =>
    obtain ⟨word, rest, rfl, inner, solid, ends⟩ := quotable.split
    rw [between_word inner, List.append_assoc] at here
    obtain ⟨next, skipped⟩ : ∃ next, next = c.skip (word.flatMap (spelled single)).length := ⟨_, rfl⟩
    have arrived : next.Before (between single indent rest ++ more) := skipped ▸ here.skip
    have sameLine : next.mark.line = c.mark.line := by simp [skipped]
    rcases ends with rfl | ⟨count, others, rfl, quotable', starts⟩ |
      ⟨rfl, x, breaks, others, rfl, separators, quotable', starts⟩
    · -- The closing quote stands behind the last word.
      have arrived : next.Before (quoteOf single :: more) := arrived
      have quote : next.sees (quoteOf single) = true := by simp [sees, peek?, arrived.rest]
      refine ⟨next.skip 1, ?_, arrived.skip_one, by simp [sameLine]⟩
      rw [quotedBody?_of_word inner solid (.inr ⟨more, rfl, closes⟩) here inside skipped, if_pos quote,
        List.append_nil]
    · -- Blanks within a line.
      obtain ⟨y, others', behind, solid'⟩ := between_solid quotable' starts indent
      rw [between_spaces, List.append_assoc] at here arrived
      have noQuote : next.sees (quoteOf single) = false := by
        cases single <;> simp [sees, peek?, arrived.rest, List.replicate_succ, quoteOf]
      have gap := gap?_spaces (behind ▸ arrived) solid'
        (show count + 1 < next.rest.length + 1 by simpa using short_of_append arrived.rest) 0 []
      obtain ⟨last, whole, landed, line⟩ := ih quotable' arrived.skip_spaces (by rw [column_skip]; omega)
        (by simp at enough; omega) (spaces (count + 1) ++ (word.reverse ++ before))
      refine ⟨last, ?_, landed, by simpa [sameLine] using line⟩
      rw [quotedBody?_of_word inner solid (.inl ⟨' ', _, rfl, rfl⟩) here inside skipped, noQuote,
        if_neg (by simp), Gap.none, gap]
      simp [Gap.text, whole]
    · -- Line ends, and the indentation of the line behind them.
      obtain ⟨y, others', behind, solid'⟩ := between_solid quotable' starts indent
      have lineEnds : ∀ z ∈ x :: breaks, isBreak z = true := by
        intro z member
        rcases separators z member with rfl | rfl <;> rfl
      have unbroken : ∀ z ∈ others.head?, isBreak z = false := by
        intro z member
        have := starts z member
        rw [parts, Bool.or_eq_false_iff] at this
        simpa using this.2
      have written := between_breaks lineEnds (List.cons_ne_nil _ _) unbroken indent
      rw [written] at here arrived
      have parting : partsWords x = true := by simp [partsWords, lineEnds x (by simp)]
      have noQuote : next.sees (quoteOf true) = false := by
        have : x ≠ '\'' := by rintro rfl; exact absurd parting (by decide)
        simp [sees, peek?, arrived.rest, quoteOf, this]
      have notFeed : x ≠ '\n' := by
        rcases separators x (by simp) with rfl | rfl <;> decide
      obtain ⟨onward, gap, landed, line, column⟩ := gap?_separators
        (show next.Before (x :: (breaks ++ (spaces indent ++ y :: (others' ++ more)))) by
          simpa [behind] using arrived) separators solid'
      obtain ⟨last, whole, landed, line'⟩ := ih quotable' (by simpa [behind] using landed) (by omega)
        (by simp at enough; omega) (breaks.reverse ++ [x] ++ (word.reverse ++ before))
      refine ⟨last, ?_, landed, by omega⟩
      rw [quotedBody?_of_word inner solid (.inl ⟨x, _, rfl, parting⟩) here inside skipped, noQuote,
        if_neg (by simp), gap]
      simpa [Gap.text, notFeed] using whole

theorem quoted?_of_text {single : Bool} {text more : List Char} (quotable : Quotable single text)
    (closes : Closes single more) {indent : Nat} (indented : 0 < indent) {c : Cursor}
    (here : c.Before (quoteOf single :: (between single indent text ++ more))) :
    ∃ next, c.quoted? single = some (⟨.scalar (String.ofList text)
        (if single then .singleQuoted else .doubleQuoted), c.mark, next.mark⟩, next) ∧
      next.Before more ∧ c.mark.line ≤ next.mark.line := by
  have short : text.length < c.rest.length + 1 := by
    have := length_le_between single indent text
    simp [here.rest]
    omega
  obtain ⟨next, read, landed, line⟩ :=
    quotedBody?_of_text quotable closes indented here.skip_one (by simp) short []
  refine ⟨next, ?_, landed, by simpa using line⟩
  simp [quoted?, read]

end Cursor

end PolicyDiagram.Yaml
