import PolicyDiagram.Proofs.Yaml.Cursor

/-! Literal blocks read back: indented lines and the empty lines between them, with the line ends at the end
of the text kept or dropped as the header says. -/

namespace PolicyDiagram.Yaml

/-- A text of several lines with the indentation of all but the first. Empty lines have none. -/
def inserted (indent : Nat) : List Char → List Char
  | [] => []
  | x :: rest =>
    x :: ((if isBreak x && rest.head?.any (!isBreak ·) then spaces indent else []) ++ inserted indent rest)

theorem length_le_inserted (indent : Nat) (text : List Char) :
    text.length ≤ (inserted indent text).length := by
  induction text with
  | nil => simp
  | cons x text ih =>
    simp only [inserted, List.length_cons, List.length_append]
    omega

theorem inserted_line {line : List Char} (each : ∀ x ∈ line, isBreak x = false) (indent : Nat)
    (rest : List Char) : inserted indent (line ++ rest) = line ++ inserted indent rest := by
  induction line with
  | nil => rfl
  | cons x line ih =>
    have unbroken := each x (by simp)
    have onward := ih fun y member => each y (by simp [member])
    simp [inserted, unbroken, onward]

theorem inserted_breaks {breaks : List Char} (each : ∀ x ∈ breaks, isBreak x = true)
    (indent : Nat) : inserted indent breaks = breaks := by
  induction breaks with
  | nil => rfl
  | cons x breaks ih =>
    have onward := ih fun y member => each y (by simp [member])
    have noLine : breaks.head?.any (!isBreak ·) = false := by
      cases breaks with
      | nil => rfl
      | cons y breaks => simp [each y (by simp)]
    simp [inserted, noLine, onward]

theorem inserted_breaks_line {breaks rest : List Char} {y : Char} (each : ∀ x ∈ breaks, isBreak x = true)
    (filled : breaks ≠ []) (starts : isBreak y = false) (indent : Nat) :
    inserted indent (breaks ++ y :: rest) = breaks ++ (spaces indent ++ inserted indent (y :: rest)) := by
  induction breaks with
  | nil => exact absurd rfl filled
  | cons x breaks ih =>
    have broken := each x (by simp)
    cases breaks with
    | nil =>
      rw [List.singleton_append, List.singleton_append, inserted]
      simp [broken, starts]
    | cons z breaks =>
      have next := each z (by simp)
      have onward := ih (fun w member => each w (by simp [member])) (List.cons_ne_nil _ _)
      rw [List.cons_append, inserted, onward]
      simp [next]

/-- The lines of a text with the indentation of the first one too. -/
def opened (indent : Nat) (text : List Char) : List Char :=
  (if text.head?.any (!isBreak ·) then spaces indent else []) ++ inserted indent text

theorem opened_split {breaks body : List Char} (each : ∀ x ∈ breaks, isBreak x = true) (indent : Nat)
    (starts : ∀ x ∈ body.head?, isBreak x = false) :
    opened indent (breaks ++ body) =
      breaks ++ ((if body = [] then [] else spaces indent) ++ inserted indent body) := by
  cases breaks with
  | nil =>
    cases body with
    | nil => rfl
    | cons y body =>
      have first := starts y rfl
      simp [opened, first]
  | cons x breaks =>
    have broken := each x (by simp)
    have noIndent : opened indent (x :: breaks ++ body) = inserted indent (x :: breaks ++ body) := by
      simp [opened, broken]
    rw [noIndent]
    cases body with
    | nil => simp [inserted, inserted_breaks each]
    | cons y body => exact inserted_breaks_line each (List.cons_ne_nil x breaks) (starts y rfl) indent

/-- The line end behind a last line that has none. -/
def closing (text : List Char) : List Char := if text.getLast?.any isBreak then [] else ['\n']

theorem closing_append {others : List Char} (filled : others ≠ []) (first : List Char) :
    closing (first ++ others) = closing others := by
  obtain ⟨y, last⟩ := Option.isSome_iff_exists.mp (List.getLast?_isSome.mpr filled)
  simp [closing, last]

/-- A text that a literal block can hold. -/
def IsLiteral (text : List Char) : Prop := ∀ x ∈ text, x = ' ' ∨ IsSolid x ∨ Cursor.IsKept x

theorem IsLiteral.suffix {first others : List Char} (literal : IsLiteral (first ++ others)) :
    IsLiteral others :=
  fun x member => literal x (by simp [member])

theorem IsLiteral.kept {text : List Char} (literal : IsLiteral text) {x : Char} (member : x ∈ text)
    (lineEnd : isBreak x = true) : Cursor.IsKept x := by
  rcases literal x member with rfl | solid | kept
  · exact absurd lineEnd (by decide)
  · exact absurd lineEnd (by simp [solid.2])
  · exact kept

theorem IsLiteral.ne_tab {text : List Char} (literal : IsLiteral text) {x : Char} (member : x ∈ text) :
    x ≠ '\t' := by
  rintro rfl
  rcases literal '\t' member with space | solid | kept
  · exact absurd space (by decide)
  · exact absurd solid (by decide)
  · rcases kept with feed | separator | separator
    · exact absurd feed (by decide)
    · exact absurd separator (by decide)
    · exact absurd separator (by decide)

namespace Cursor

/-! ## Empty lines -/

/-- What may stand behind the indentation of a line: no tab and no line end. -/
def StartsLine (tail : List Char) : Prop := ∀ x ∈ tail.head?, x ≠ '\t' ∧ isBreak x = false

/-- So many blanks are taken as the indentation of a line. Where the column of the block is known, no more of
them are; an unknown column is zero. -/
structure Indents (indent count : Nat) (tail : List Char) : Prop where
  calm : StartsLine tail
  stops : count = indent ∧ 0 < indent ∨ (indent = 0 ∨ count < indent) ∧ ∀ x ∈ tail.head?, x ≠ ' '

theorem indents_self {indent : Nat} {tail : List Char} (known : 0 < indent) (calm : StartsLine tail) :
    Indents indent indent tail :=
  ⟨calm, .inl ⟨rfl, known⟩⟩

theorem indents_of_lt {indent count : Nat} {tail : List Char} (behind : count < indent)
    (solid : ∀ x ∈ tail.head?, IsSolid x) : Indents indent count tail := by
  refine ⟨fun x member => ⟨?_, (solid x member).2⟩, .inr ⟨.inr behind, ?_⟩⟩
  · rintro rfl
    exact absurd (solid '\t' member).1 (by decide)
  · rintro x member rfl
    exact absurd (solid ' ' member).1 (by decide)

theorem takeWhile_spaces {count : Nat} {tail : List Char} (starts : ∀ x ∈ tail.head?, x ≠ ' ') :
    (spaces count ++ tail).takeWhile (· == ' ') = spaces count := by
  induction count with
  | zero =>
    cases tail with
    | nil => rfl
    | cons x tail => simp [starts x rfl]
  | succ count ih => simp [List.replicate_succ, ih]

theorem Indents.taken {indent count : Nat} {tail : List Char} (indents : Indents indent count tail) :
    (if indent = 0 then ((spaces count ++ tail).takeWhile (· == ' ')).length
      else min ((spaces count ++ tail).takeWhile (· == ' ')).length indent) = count := by
  rcases indents.stops with ⟨rfl, known⟩ | ⟨small, starts⟩
  · have long : count ≤ ((spaces count ++ tail).takeWhile (· == ' ')).length := by
      rw [List.takeWhile_append_of_pos (by simp)]
      simp
    rw [if_neg (by omega)]
    omega
  · rw [takeWhile_spaces starts, List.length_replicate]
    split <;> omega

/-- The indentation of a line is taken, up to the column of the block if that is known. -/
theorem emptyLines?_of_line {c : Cursor} {indent count : Nat} {tail : List Char}
    (here : c.Before (spaces count ++ tail)) (start : c.mark.column = 0) (indents : Indents indent count tail)
    (breaks : List Char) (widest fuel : Nat) :
    c.emptyLines? indent breaks widest (fuel + 1) = some (breaks, max widest count, c.skip count) := by
  have moved := indents.taken
  rw [← here.rest] at moved
  have landed : (c.skip count).rest = tail := here.skip_spaces.rest
  have noTab : (c.skip count).sees '\t' = false := by
    rw [sees, peek?, landed]
    cases tail with
    | nil => rfl
    | cons x tail => simpa using (indents.calm x rfl).1
  have noEnd := lineEnd?_of_unbroken landed fun x member => (indents.calm x member).2
  simp only [emptyLines?, start, Nat.sub_zero, moved, noTab, noEnd]
  simp [here.skip_spaces.ask?, start]

theorem emptyLines?_of_breaks {c : Cursor} {indent count : Nat} {breaks tail : List Char} {fuel : Nat}
    (here : c.Before (breaks ++ (spaces count ++ tail))) (kept : ∀ x ∈ breaks, IsKept x)
    (start : c.mark.column = 0) (indents : Indents indent count tail) (enough : breaks.length < fuel)
    (before : List Char) (widest : Nat) :
    ∃ next, c.emptyLines? indent before widest fuel =
        some (breaks.reverse ++ before, max widest count, next) ∧
      next.Before tail ∧ next.mark.column = count ∧ c.mark.line ≤ next.mark.line := by
  induction breaks generalizing c fuel before with
  | nil =>
    obtain ⟨fuel, rfl⟩ : ∃ spare, fuel = spare + 1 := ⟨fuel - 1, by omega⟩
    have here : c.Before (spaces count ++ tail) := here
    exact ⟨c.skip count, emptyLines?_of_line here start indents before widest fuel, here.skip_spaces,
      by simp [start], by simp⟩
  | cons x breaks ih =>
    obtain ⟨fuel, rfl⟩ : ∃ spare, fuel = spare + 1 := ⟨fuel - 1, by omega⟩
    have here : c.Before (x :: (breaks ++ (spaces count ++ tail))) := here
    have lineEnd := kept x (by simp)
    have noSpace : x ≠ ' ' := by
      rintro rfl
      exact absurd lineEnd.isBreak (by decide)
    have noTab : x ≠ '\t' := by
      rintro rfl
      exact absurd lineEnd.isBreak (by decide)
    obtain ⟨next, read, landed, column, line⟩ := ih here.nextLine (fun y member => kept y (by simp [member]))
      rfl (show breaks.length < fuel by simpa using enough) (x :: before)
    refine ⟨next, ?_, landed, column, ?_⟩
    · simp [emptyLines?, here.rest, noSpace, noTab, sees, peek?, lineEnd?_of_kept here.rest lineEnd, start, read]
    · simp at line
      omega

/-! ## Lines -/

/-- The text so far of a block, in reverse order. -/
def BlockText.before (block : BlockText) : List Char := block.empty ++ block.last ++ block.text

theorem joined_eq_before (block : BlockText) (blank : Bool) : block.joined true blank = block.before := by
  simp [BlockText.joined, BlockText.before]

theorem blockLines?_of_end {c : Cursor} {indent : Nat} (ends : c.mark.column ≠ indent) (literal : Bool)
    (block : BlockText) (stop : Mark) (fuel : Nat) :
    c.blockLines? literal indent block stop fuel = some (block, stop, c) := by
  cases fuel with
  | zero => rfl
  | succ fuel => simp [blockLines?, ends]

/-- A line of a block, the end of the line, and the ends of the empty lines behind it. -/
structure IsLine (line : List Char) (x : Char) (breaks : List Char) : Prop where
  filled : line ≠ []
  unbroken : ∀ y ∈ line, isBreak y = false
  kept : ∀ y ∈ x :: breaks, IsKept y

theorem IsLine.broken {line breaks : List Char} {x : Char} (isLine : IsLine line x breaks) :
    ∀ y ∈ x :: breaks, isBreak y = true :=
  fun y member => (isLine.kept y member).isBreak

theorem blockLines?_of_line {c : Cursor} {indent count : Nat} {line breaks tail : List Char} {x : Char}
    (isLine : IsLine line x breaks) (here : c.Before (line ++ x :: (breaks ++ (spaces count ++ tail))))
    (inside : c.mark.column = indent) (indents : Indents indent count tail) (block : BlockText) (stop : Mark)
    (fuel : Nat) :
    ∃ (blank : Bool) (stop' : Mark) (next : Cursor), c.blockLines? true indent block stop (fuel + 1) =
        next.blockLines? true indent ⟨line.reverse ++ block.before, [x], breaks.reverse, blank⟩ stop' fuel ∧
      next.Before tail ∧ next.mark.column = count ∧ c.mark.line ≤ next.mark.line := by
  have lineEnd := isLine.kept x (by simp)
  have run : c.rest.takeWhile (!isBreak ·) = line := by
    rw [here.rest, List.takeWhile_append_of_pos (by simpa using isLine.unbroken)]
    simp [lineEnd.isBreak]
  obtain ⟨begun, ended⟩ : ∃ begun, begun = (c.skip line.length).nextLineAfter 1 := ⟨_, rfl⟩
  have begins : begun.Before (breaks ++ (spaces count ++ tail)) := ended ▸ here.skip.nextLine
  obtain ⟨after, read, landed, column, lines⟩ := emptyLines?_of_breaks begins
    (fun y member => isLine.kept y (by simp [member])) (by simp [ended]) indents (short_of_append begins.rest)
    [] 0
  refine ⟨c.seesAny isBlank, begun.mark, after, ?_, landed, column, ?_⟩
  · have notEmpty : c.rest ≠ [] := by simp [here.rest]
    have lineEnd := lineEnd?_of_kept here.skip.rest lineEnd
    rw [List.append_nil] at read
    rw [← ended] at lineEnd
    simp only [blockLines?, takeWhile, run, lineEnd]
    simp [inside, notEmpty, read, joined_eq_before]
  · simp [ended] at lines
    omega

theorem getLast?_of_breaks {x : Char} {breaks : List Char} (broken : ∀ z ∈ x :: breaks, isBreak z = true)
    (front : List Char) : ∃ z, (front ++ x :: breaks).getLast? = some z ∧ isBreak z = true := by
  refine ⟨(x :: breaks).getLast (List.cons_ne_nil x breaks), ?_, broken _ (List.getLast_mem _)⟩
  rw [List.getLast?_append, List.getLast?_eq_some_getLast (List.cons_ne_nil x breaks)]
  rfl

theorem closing_of_breaks {x : Char} {breaks : List Char} (broken : ∀ z ∈ x :: breaks, isBreak z = true)
    (front : List Char) : closing (front ++ x :: breaks) = [] := by
  obtain ⟨z, last, ends⟩ := getLast?_of_breaks broken front
  simp [closing, last, ends]

/-- A text that starts with a line ends with it, or goes on with another line. -/
theorem line_cases {text : List Char} {x : Char} (literal : IsLiteral text) (head : text.head? = some x)
    (starts : isBreak x = false) :
    (∃ line y breaks, IsLine line y breaks ∧ text ++ closing text = line ++ y :: breaks ∧
      ∀ indent, inserted indent text = text) ∨
    ∃ line y breaks z others, IsLine line y breaks ∧ isBreak z = false ∧
      text = line ++ (y :: breaks ++ z :: others) := by
  obtain ⟨line, rest, rfl, each, ends⟩ := leading_run (!isBreak ·) text
  have unbroken : ∀ y ∈ line, isBreak y = false := by simpa using each
  have filled : line ≠ [] := by
    rintro rfl
    exact absurd (ends x head) (by simp [starts])
  cases rest with
  | nil =>
    -- A last line without an end is written with one.
    obtain ⟨z, last⟩ := Option.isSome_iff_exists.mp (List.getLast?_isSome.mpr filled)
    have closed : closing line = ['\n'] := by simp [closing, last, unbroken z (List.mem_of_getLast? last)]
    refine .inl ⟨line, '\n', [], ⟨filled, unbroken, by simp [IsKept]⟩, by simp [closed], fun indent => ?_⟩
    rw [inserted_line unbroken]
    rfl
  | cons y rest =>
    have first : isBreak y = true := by simpa using ends y rfl
    obtain ⟨breaks, others, rfl, broken, starts⟩ := leading_run isBreak rest
    have broken : ∀ z ∈ y :: breaks, isBreak z = true := by simpa [first] using broken
    have kept : ∀ z ∈ y :: breaks, IsKept z := fun z member =>
      literal.kept (List.mem_append_right line (List.mem_append_left others member)) (broken z member)
    cases others with
    | nil =>
      rw [List.append_nil]
      refine .inl ⟨line, y, breaks, ⟨filled, unbroken, kept⟩, by simp [closing_of_breaks broken], fun indent => ?_⟩
      rw [inserted_line unbroken, inserted_breaks broken]
    | cons z others =>
      exact .inr ⟨line, y, breaks, z, others, ⟨filled, unbroken, kept⟩, starts z rfl, rfl⟩

/-- The last line of a block text, the end of that line, and the empty lines behind it. -/
structure Parted (text before : List Char) (block : BlockText) (stem : List Char) (x : Char)
    (breaks : List Char) : Prop where
  whole : text ++ closing text = stem ++ x :: breaks
  line : ∃ y ∈ stem.getLast?, isBreak y = false
  broken : ∀ z ∈ x :: breaks, isBreak z = true
  block : block.text = stem.reverse ++ before ∧ block.last = [x] ∧ block.empty = breaks.reverse

theorem parted_last {text before line breaks : List Char} {y : Char} (isLine : IsLine line y breaks)
    (whole : text ++ closing text = line ++ y :: breaks) (blank : Bool) :
    Parted text before ⟨line.reverse ++ before, [y], breaks.reverse, blank⟩ line y breaks := by
  obtain ⟨z, last⟩ := Option.isSome_iff_exists.mp (List.getLast?_isSome.mpr isLine.filled)
  exact ⟨whole, ⟨z, last, isLine.unbroken z (List.mem_of_getLast? last)⟩, isLine.broken, rfl, rfl, rfl⟩

theorem Parted.cons {line breaks others before stem ends : List Char} {x y z : Char} {block : BlockText}
    {blank : Bool}
    (parted : Parted (z :: others) (BlockText.before ⟨line.reverse ++ before, [y], breaks.reverse, blank⟩)
      block stem x ends) :
    Parted (line ++ (y :: breaks ++ z :: others)) before block (line ++ y :: breaks ++ stem) x ends := by
  have joined : line ++ (y :: breaks ++ z :: others) = line ++ y :: breaks ++ z :: others := by simp
  obtain ⟨u, member, unbroken⟩ := parted.line
  obtain ⟨text, last, empty⟩ := parted.block
  refine ⟨?_, ⟨u, ?_, unbroken⟩, parted.broken, ?_, last, empty⟩
  · rw [joined, closing_append (List.cons_ne_nil z others), List.append_assoc, parted.whole]
    simp
  · rw [List.getLast?_append, Option.mem_def.mp member]
    rfl
  · rw [text]
    simp [BlockText.before]

theorem startsLine_inserted {y : Char} {body : List Char} (literal : IsLiteral (y :: body))
    (starts : isBreak y = false) (indent : Nat) (more : List Char) :
    StartsLine (inserted indent (y :: body) ++ more) := by
  intro x member
  obtain rfl : y = x := by simpa [inserted] using member
  exact ⟨literal.ne_tab (by simp), starts⟩

/-- The lines of a block up to the lesser indentation behind it. The induction is on the lines. -/
theorem blockLines?_of_text {text tail : List Char} {x : Char} (literal : IsLiteral text)
    (head : text.head? = some x) (starts : isBreak x = false) {c : Cursor} {indent count fuel : Nat}
    (here : c.Before (inserted indent text ++ (closing text ++ (spaces count ++ tail))))
    (inside : c.mark.column = indent) (behind : count < indent) (lands : ∀ x ∈ tail.head?, IsSolid x)
    (enough : text.length < fuel) (block : BlockText) (stop : Mark) :
    ∃ block' stop' next stem y breaks,
      c.blockLines? true indent block stop fuel = some (block', stop', next) ∧
        Parted text block.before block' stem y breaks ∧ next.Before tail ∧ next.mark.column = count ∧
        c.mark.line ≤ next.mark.line := by
  induction fuel generalizing text x c block stop with
  | zero => omega
  | succ fuel ih =>
    rcases line_cases literal head starts with
      ⟨line, y, breaks, isLine, ends, same⟩ | ⟨line, y, breaks, z, others, isLine, next, rfl⟩
    · -- Behind the last line the indentation is less, which ends the block.
      have here : c.Before (line ++ y :: (breaks ++ (spaces count ++ tail))) := by
        rw [same, ← List.append_assoc, ends] at here
        simpa using here
      obtain ⟨blank, stop', next, read, landed, column, lines⟩ :=
        blockLines?_of_line isLine here inside (indents_of_lt behind lands) block stop fuel
      have ended := blockLines?_of_end (show next.mark.column ≠ indent by omega) true
        ⟨line.reverse ++ block.before, [y], breaks.reverse, blank⟩ stop' fuel
      exact ⟨_, stop', next, line, y, breaks, read.trans ended, parted_last isLine ends blank, landed, column, lines⟩
    · -- Behind another one it is that of the block, and the induction takes the lines from there.
      have literal' : IsLiteral (z :: others) := by
        rw [← List.append_assoc] at literal
        exact literal.suffix
      have closed : closing (line ++ (y :: breaks ++ z :: others)) = closing (z :: others) := by
        rw [← List.append_assoc, closing_append (List.cons_ne_nil z others)]
      have here : c.Before (line ++ y :: (breaks ++ (spaces indent ++
          (inserted indent (z :: others) ++ (closing (z :: others) ++ (spaces count ++ tail)))))) := by
        rw [inserted_line isLine.unbroken, inserted_breaks_line isLine.broken (List.cons_ne_nil _ _) next,
          closed] at here
        simpa using here
      obtain ⟨blank, stop', onward, read, landed, column, lines⟩ := blockLines?_of_line isLine here inside
        (indents_self (by omega) (startsLine_inserted literal' next indent _)) block stop fuel
      obtain ⟨block', stop'', last, stem, u, ends, read', parted, landed', column', lines'⟩ :=
        ih literal' rfl next landed column (by simp at enough ⊢; omega)
          ⟨line.reverse ++ block.before, [y], breaks.reverse, blank⟩ stop'
      exact ⟨block', stop'', last, _, u, ends, read.trans read', parted.cons, landed', column', by omega⟩

/-! ## Headers -/

/-- Whether the indentation of a block is shown by its first line. -/
def isShown (text : List Char) : Bool := text.head?.all fun c => c != ' ' && !isBreak c

/-- What the header of a text says of the line ends at its end. -/
def chompingOf (text : List Char) : Chomping :=
  if !text.getLast?.any isBreak then .strip else if text.dropLast.getLast?.all isBreak then .keep else .clip

/-- The text of a block whose line ends are chomped. -/
def chomped (chomping : Chomping) (block : BlockText) : List Char :=
  match chomping with
  | .strip => block.text
  | .clip => block.last ++ block.text
  | .keep => block.before

theorem blockHeader?_of_text (text : List Char) {c : Cursor} {more : List Char}
    (here : c.rest = (literalHeader text).drop 1 ++ '\n' :: more) :
    c.blockHeader? = some (chompingOf text, if isShown text then 0 else 2,
      c.skip ((literalHeader text).length - 1)) := by
  rw [literalHeader, ← isShown] at here ⊢
  rw [chompingOf]
  cases shown : isShown text <;> cases strips : (!text.getLast?.any isBreak) <;>
    cases keeps : text.dropLast.getLast?.all isBreak <;>
    simp [shown, strips, keeps] at here ⊢ <;>
    simp [blockHeader?, chomping?, indentation?, peek?, here, skip_skip]

theorem getLast?_of_concat {x z : Char} {breaks : List Char}
    (broken : ∀ w ∈ x :: breaks.concat z, isBreak w = true) (front : List Char) :
    ∃ w, (front ++ x :: breaks).getLast? = some w ∧ isBreak w = true :=
  getLast?_of_breaks (fun w member => broken w (by
    rw [List.concat_eq_append, ← List.cons_append]
    exact List.mem_append_left _ member)) front

/-- A last line without an end is closed by one, and no empty lines follow it. -/
theorem Parted.of_open {text before stem breaks : List Char} {x : Char} {block : BlockText}
    (parted : Parted text before block stem x breaks) (ends : text.getLast?.any isBreak = false) :
    stem = text ∧ breaks = [] := by
  have closed : closing text = ['\n'] := by simp [closing, ends]
  have whole := parted.whole
  have broken := parted.broken
  rw [closed] at whole
  rcases breaks.eq_nil_or_concat with rfl | ⟨breaks, z, rfl⟩
  · exact ⟨(List.append_inj' whole rfl).1.symm, rfl⟩
  · have cut : text ++ ['\n'] = stem ++ x :: breaks ++ [z] := by simp [whole]
    obtain ⟨rfl, -⟩ := List.append_inj' cut rfl
    obtain ⟨w, lastBreak, broken⟩ := getLast?_of_concat broken stem
    exact absurd ends (by simp [lastBreak, broken])

theorem Parted.of_ended {text before stem breaks : List Char} {x : Char} {block : BlockText}
    (parted : Parted text before block stem x breaks) (ends : text.getLast?.any isBreak = true) :
    text = stem ++ x :: breaks := by
  simpa [closing, ends] using parted.whole

theorem chomped_of_parted {text before stem breaks : List Char} {x : Char} {block : BlockText}
    (filled : text ≠ []) (parted : Parted text before block stem x breaks) :
    chomped (chompingOf (before.reverse ++ text)) block = text.reverse ++ before := by
  obtain ⟨blockText, blockLast, blockEmpty⟩ := parted.block
  have same : (before.reverse ++ text).getLast?.any isBreak = text.getLast?.any isBreak := by
    obtain ⟨y, last⟩ := Option.isSome_iff_exists.mp (List.getLast?_isSome.mpr filled)
    simp [last]
  cases ends : text.getLast?.any isBreak with
  | false =>
    -- The end that was written behind an open line is taken away again.
    obtain ⟨rfl, rfl⟩ := parted.of_open ends
    have strips : chompingOf (before.reverse ++ stem) = .strip := by simp only [chompingOf, same, ends]; rfl
    simp [strips, chomped, blockText]
  | true =>
    obtain rfl := parted.of_ended ends
    cases keeps : (before.reverse ++ (stem ++ x :: breaks)).dropLast.getLast?.all isBreak with
    | true =>
      have kept : chompingOf (before.reverse ++ (stem ++ x :: breaks)) = .keep := by
        simp only [chompingOf, same, ends, keeps]
        rfl
      simp [kept, chomped, BlockText.before, blockText, blockLast, blockEmpty]
    | false =>
      have clipped : chompingOf (before.reverse ++ (stem ++ x :: breaks)) = .clip := by
        simp only [chompingOf, same, ends, keeps]
        rfl
      -- Clipping leaves one end, and a text with more of them would have been kept whole.
      rcases breaks.eq_nil_or_concat with rfl | ⟨breaks, z, rfl⟩
      · simp [clipped, chomped, blockText, blockLast]
      · obtain ⟨w, lastBreak, broken⟩ := getLast?_of_concat parted.broken (before.reverse ++ stem)
        have cut : (before.reverse ++ (stem ++ x :: breaks.concat z)).dropLast =
            before.reverse ++ stem ++ x :: breaks := by
          rw [List.concat_eq_append, ← List.cons_append, ← List.append_assoc, ← List.append_assoc,
            List.dropLast_concat]
        exact absurd keeps (by simp only [cut, lastBreak, Option.all_some, broken]; decide)

theorem chompingOf_breaks {x : Char} {breaks : List Char} (broken : ∀ z ∈ x :: breaks, isBreak z = true) :
    chompingOf (x :: breaks) = .keep := by
  obtain ⟨w, last, ends⟩ := getLast?_of_breaks broken []
  have inner : (x :: breaks).dropLast.getLast?.all isBreak = true := by
    cases last : (x :: breaks).dropLast.getLast? with
    | none => rfl
    | some u => exact broken u (List.dropLast_subset _ (List.mem_of_getLast? last))
  rw [List.nil_append] at last
  simp only [chompingOf, last, Option.any_some, ends, inner]
  rfl

/-! ## Blocks -/

theorem restOfLine?_of_newline {c : Cursor} {more : List Char} (here : c.Before ('\n' :: more)) :
    c.restOfLine? = some (c.nextLineAfter 1) := by
  have noBlank : c.skipWhile isBlank = c := by simp [skipWhile, takeWhile, here.rest, isBlank]
  have noComment : c.sees '#' = false := by simp [sees, peek?, here.rest]
  have ends : c.endsOr isBreak = true := by simp [endsOr, peek?, here.rest, isBreak]
  have lineEnd := lineEnd?_of_kept here.rest (.inl rfl)
  simp [restOfLine?, noBlank, noComment, ends, here.ask?, skipLineEnd, lineEnd]

/-- A literal block is what its lines say, read behind the header with or without a known column. -/
theorem block?_of_lines {text more : List Char} {c : Cursor} (here : c.Before (literalHeader text ++ '\n' :: more))
    {parent : Int} {indent : Nat} (nested : indent = (max parent 0).toNat + 2) :
    ∃ begun : Cursor, begun.Before more ∧ begun.mark.column = 0 ∧ begun.mark.line = c.mark.line + 1 ∧
      ∀ {given widest : Nat} {empty : List Char} {block : BlockText} {stop : Mark} {first after : Cursor},
        given = (if isShown text then 0 else indent) →
        begun.emptyLines? given [] 0 (begun.rest.length + 1) = some (empty, widest, first) →
        indent = (if given = 0 then max (max widest (parent + 1).toNat) 1 else given) →
        first.blockLines? true indent ⟨[], [], empty, false⟩ begun.mark (first.rest.length + 1) =
          some (block, stop, after) →
        c.block? true parent =
          some (⟨.scalar (String.ofList (chomped (chompingOf text) block).reverse) .literal, c.mark, stop⟩,
            after) := by
  have parts : literalHeader text = '|' :: (literalHeader text).drop 1 := rfl
  have headed : (c.skip 1).Before ((literalHeader text).drop 1 ++ '\n' :: more) :=
    (show c.Before ('|' :: ((literalHeader text).drop 1 ++ '\n' :: more)) from parts ▸ here).skip_one
  have header := blockHeader?_of_text text headed.rest
  obtain ⟨next, skipped⟩ : ∃ next, next = (c.skip 1).skip ((literalHeader text).drop 1).length := ⟨_, rfl⟩
  have ends : next.Before ('\n' :: more) := skipped ▸ headed.skip
  rw [← List.length_drop, ← skipped] at header
  refine ⟨next.nextLineAfter 1, ends.nextLine, rfl, by simp [skipped], ?_⟩
  intro given widest empty block stop first after known start found lines
  have known : (if (if isShown text then 0 else 2) = 0 then 0
      else (max parent 0).toNat + if isShown text then 0 else 2) = given := by
    rw [known, nested]
    split <;> rfl
  simp only [block?, header, Option.bind_eq_bind, Option.bind_some, restOfLine?_of_newline ends, known, start,
    ← found, lines]
  cases chompingOf text <;> rfl

/-- A block of line ends alone is empty lines, all of which are kept. -/
theorem block?_of_breaks {x : Char} {breaks tail : List Char} (kept : ∀ y ∈ x :: breaks, IsKept y) {c : Cursor}
    {parent : Int} {indent count : Nat} (nested : indent = (max parent 0).toNat + 2)
    (here : c.Before (literalHeader (x :: breaks) ++ '\n' :: (x :: breaks ++ (spaces count ++ tail))))
    (behind : count < indent) (lands : ∀ x ∈ tail.head?, IsSolid x) :
    ∃ stop next, c.block? true parent =
        some (⟨.scalar (String.ofList (x :: breaks)) .literal, c.mark, stop⟩, next) ∧
      next.Before tail ∧ next.mark.column = count ∧ c.mark.line < next.mark.line := by
  obtain ⟨begun, begins, start, line, whole⟩ := block?_of_lines here nested
  have broken : ∀ y ∈ x :: breaks, isBreak y = true := fun y member => (kept y member).isBreak
  have notShown : isShown (x :: breaks) = false := by simp [isShown, broken x (by simp)]
  obtain ⟨after, read, landed, column, lines⟩ := emptyLines?_of_breaks begins kept start
    (indents_of_lt behind lands) (short_of_append begins.rest) [] 0
  have none := blockLines?_of_end (show after.mark.column ≠ indent by omega) true
    ⟨[], [], (x :: breaks).reverse ++ [], false⟩ begun.mark (after.rest.length + 1)
  refine ⟨begun.mark, after, ?_, landed, column, by omega⟩
  rw [whole (by simp [notShown]) read (by rw [if_neg]; omega) none, chompingOf_breaks broken]
  simp [chomped, BlockText.before]

theorem ne_space_of_shown {breaks body : List Char} {y : Char} (broken : ∀ x ∈ breaks, isBreak x = true)
    (shown : isShown (breaks ++ y :: body) = true) : y ≠ ' ' := by
  rintro rfl
  cases breaks with
  | nil => simp [isShown] at shown
  | cons x breaks => simp [isShown, broken x (by simp)] at shown

theorem block?_of_body {breaks body tail : List Char} {y : Char} (literal : IsLiteral (breaks ++ y :: body))
    (broken : ∀ x ∈ breaks, isBreak x = true) (starts : isBreak y = false) {c : Cursor} {parent : Int}
    {indent count : Nat} (nested : indent = (max parent 0).toNat + 2)
    (here : c.Before (literalHeader (breaks ++ y :: body) ++ '\n' :: (breaks ++ (spaces indent ++
      (inserted indent (y :: body) ++ (closing (y :: body) ++ (spaces count ++ tail)))))))
    (behind : count < indent) (lands : ∀ x ∈ tail.head?, IsSolid x) :
    ∃ stop next, c.block? true parent =
        some (⟨.scalar (String.ofList (breaks ++ y :: body)) .literal, c.mark, stop⟩, next) ∧
      next.Before tail ∧ next.mark.column = count ∧ c.mark.line < next.mark.line := by
  obtain ⟨begun, begins, start, line, whole⟩ := block?_of_lines here nested
  have literal' : IsLiteral (y :: body) := literal.suffix
  have kept : ∀ x ∈ breaks, IsKept x := fun x member => literal.kept (by simp [member]) (broken x member)
  obtain ⟨given, known⟩ : ∃ given, given = if isShown (breaks ++ y :: body) then 0 else indent := ⟨_, rfl⟩
  -- The column is given by the header, or shown by a first line that starts with no blank.
  have indents : Indents given indent
      (inserted indent (y :: body) ++ (closing (y :: body) ++ (spaces count ++ tail))) := by
    refine ⟨startsLine_inserted literal' starts indent _, ?_⟩
    cases shown : isShown (breaks ++ y :: body) with
    | false => exact .inl ⟨by simp [known, shown], by simp [known, shown]; omega⟩
    | true =>
      refine .inr ⟨.inl (by simp [known, shown]), fun x member => ?_⟩
      obtain rfl : y = x := by simpa [inserted] using member
      exact ne_space_of_shown broken shown
  obtain ⟨onward, read, landed, column, lines⟩ :=
    emptyLines?_of_breaks begins kept start indents (short_of_append begins.rest) [] 0
  have found : indent = if given = 0 then max (max (max 0 indent) (parent + 1).toNat) 1 else given := by
    rw [known]
    split <;> split <;> omega
  have enough : (y :: body).length < onward.rest.length + 1 := by
    have := length_le_inserted indent (y :: body)
    rw [landed.rest, List.length_append]
    omega
  obtain ⟨block, stop, after, stem, x, ends, read', parted, landed', column', lines'⟩ :=
    blockLines?_of_text literal' rfl starts landed column behind lands enough
      ⟨[], [], breaks.reverse, false⟩ begun.mark
  rw [List.append_nil] at read
  have chomps := chomped_of_parted (List.cons_ne_nil y body) parted
  simp [BlockText.before] at chomps
  refine ⟨stop, after, ?_, landed', column', by omega⟩
  rw [whole known read found read', chomps]
  simp

theorem block?_of_text {text tail : List Char} (literal : IsLiteral text) (filled : text ≠ []) {c : Cursor}
    {parent : Int} {indent count : Nat} (nested : indent = (max parent 0).toNat + 2)
    (here : c.Before (literalHeader text ++
      '\n' :: (opened indent text ++ (closing text ++ (spaces count ++ tail)))))
    (behind : count < indent) (lands : ∀ x ∈ tail.head?, IsSolid x) :
    ∃ stop next, c.block? true parent =
        some (⟨.scalar (String.ofList text) .literal, c.mark, stop⟩, next) ∧
      next.Before tail ∧ next.mark.column = count ∧ c.mark.line < next.mark.line := by
  obtain ⟨breaks, body, rfl, broken, starts⟩ := leading_run isBreak text
  rw [opened_split broken indent starts] at here
  cases body with
  | nil =>
    obtain ⟨x, others, rfl⟩ := List.exists_cons_of_ne_nil (by simpa using filled : breaks ≠ [])
    rw [List.append_nil] at here literal ⊢
    have kept : ∀ y ∈ x :: others, IsKept y := fun y member => literal.kept member (broken y member)
    have closed : closing (x :: others) = [] := closing_of_breaks broken []
    exact block?_of_breaks kept nested (by simpa [inserted, closed] using here) behind lands
  | cons y body =>
    rw [closing_append (List.cons_ne_nil y body)] at here
    exact block?_of_body literal broken (starts y rfl) nested (by simpa using here) behind lands

end Cursor

end PolicyDiagram.Yaml
