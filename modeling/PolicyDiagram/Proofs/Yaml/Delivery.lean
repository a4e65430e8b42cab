import PolicyDiagram.Proofs.Yaml.Pieces

/-! Handing tokens out early changes nothing. A lexer does not look at the tokens it has handed out, and gives
up keys no later for reading on first, so its tokens are those of a lexer that reads everything before it
hands out anything. -/

namespace PolicyDiagram.Yaml

namespace Lexer

/-- The lexer that has not handed out these tokens. -/
def retain (out : List Token) (l : Lexer) : Lexer :=
  { l with queue := out ++ l.queue, delivered := l.delivered - out.length }

/-- No key starts at a token that has been handed out. -/
def Dated (l : Lexer) : Prop := ∀ start ∈ l.keys, ∀ key ∈ start, l.delivered ≤ key.number

/-- Reading on leaves alone what has been handed out. -/
structure Later (l m : Lexer) : Prop where
  dated : Dated m
  delivered : m.delivered = l.delivered
  longer : l.queue.length ≤ m.queue.length

/-- A part of reading on that does not look at tokens handed out. -/
def Steady (f : Lexer → Option Lexer) : Prop :=
  ∀ l out, Dated l → out.length ≤ l.delivered →
    f (retain out l) = (f l).map (retain out) ∧ ∀ m, f l = some m → Later l m

theorem Steady.bind {f g : Lexer → Option Lexer} (first : Steady f) (second : Steady g) :
    Steady fun l => f l >>= g := by
  intro l out dated enough
  obtain ⟨same, later⟩ := first l out dated enough
  cases found : f l with
  | none => simp [same, found]
  | some m =>
    have before := later m found
    obtain ⟨same', later'⟩ := second m out before.dated (before.delivered ▸ enough)
    refine ⟨by simp [same, found, same'], fun n read => ?_⟩
    have after := later' n (by simpa [found] using read)
    exact ⟨after.dated, after.delivered.trans before.delivered, Nat.le_trans before.longer after.longer⟩

theorem Steady.ite {p : Lexer → Prop} [DecidablePred p] {f g : Lexer → Option Lexer}
    (blind : ∀ l out, p (retain out l) ↔ p l) (yes : Steady f) (no : Steady g) :
    Steady fun l => if p l then f l else g l := by
  intro l out dated enough
  by_cases holds : p l
  · simpa [(blind l out).mpr holds, holds] using yes l out dated enough
  · simpa [mt (blind l out).mp holds, holds] using no l out dated enough

theorem Steady.look {α : Type} (look : Lexer → Option α) {use : α → Lexer → Option Lexer}
    (blind : ∀ l out, look (retain out l) = look l) (each : ∀ a, Steady (use a)) :
    Steady fun l => look l >>= fun a => use a l := by
  intro l out dated enough
  cases found : look l with
  | none => simp [blind, found]
  | some a => simpa [blind, found] using each a l out dated enough

theorem steady_none : Steady fun _ => none := fun _ _ _ _ => ⟨rfl, fun _ read => by cases read⟩

/-! ## Updates -/

/-- An update that does not look at tokens handed out. -/
structure Calm (g : Lexer → Lexer) : Prop where
  commutes : ∀ l out, Dated l → out.length ≤ l.delivered → g (retain out l) = retain out (g l)
  later : ∀ l, Dated l → Later l (g l)

/-- An update that leaves the tokens alone. -/
structure Quiet (g : Lexer → Lexer) : Prop where
  commutes : ∀ l out, g (retain out l) = retain out (g l)
  dated : ∀ l, Dated l → Dated (g l)
  queue : ∀ l, (g l).queue = l.queue
  delivered : ∀ l, (g l).delivered = l.delivered

theorem Quiet.calm {g : Lexer → Lexer} (quiet : Quiet g) : Calm g where
  commutes l out _ _ := quiet.commutes l out
  later l dated := ⟨quiet.dated l dated, quiet.delivered l, Nat.le_of_eq (congrArg List.length (quiet.queue l).symm)⟩

theorem Calm.steady {g : Lexer → Lexer} (calm : Calm g) : Steady fun l => some (g l) := by
  intro l out dated enough
  refine ⟨by simp [calm.commutes l out dated enough], fun m read => ?_⟩
  obtain rfl := Option.some.inj read
  exact calm.later l dated

theorem Steady.after {g : Lexer → Lexer} {f : Lexer → Option Lexer} (second : Steady f) (first : Calm g) :
    Steady fun l => f (g l) := by
  have both := first.steady.bind second
  exact both

theorem calm_enqueue {g : Lexer → Lexer} (quiet : Quiet g) (token : Lexer → Token)
    (blind : ∀ l out, token (retain out l) = token l) : Calm fun l => (g l).enqueue (token l) where
  commutes l out _ _ := by
    rw [quiet.commutes, blind]
    simp [enqueue, retain]
  later l dated := ⟨quiet.dated l dated, quiet.delivered l, by simp [enqueue, quiet.queue]⟩

theorem calm_take {g : Lexer → Lexer} (quiet : Quiet g) (count : Nat) (kind : TokenKind) :
    Calm fun l => (g l).take count kind where
  commutes l out _ _ := by
    rw [quiet.commutes]
    simp [take, enqueue, retain]
  later l dated := ⟨quiet.dated l dated, quiet.delivered l, by simp [take, enqueue, quiet.queue]⟩

theorem calm_closeBlocks (column : Int) : Calm fun l => l.closeBlocks column where
  commutes l out _ _ := by
    have same : (retain out l).inFlow = l.inFlow := rfl
    by_cases flow : l.inFlow = true
    · simp only [closeBlocks, same, flow, if_true]
    · simp only [closeBlocks, same, flow]
      simp [retain]
  later l dated := by
    simp only [closeBlocks]
    split
    · exact ⟨dated, rfl, Nat.le_refl _⟩
    · exact ⟨dated, rfl, by simp⟩

theorem insertIdx_behind {α : Type} (front back : List α) (i : Nat) (x : α) :
    (front ++ back).insertIdx (front.length + i) x = front ++ back.insertIdx i x := by
  induction front with
  | nil => simp
  | cons y front ih =>
    have step : (y :: front).length + i = front.length + i + 1 := by simp; omega
    rw [step]
    simp [ih]

theorem insertAt_retain {l : Lexer} {out : List Token} {number : Nat} (enough : out.length ≤ l.delivered)
    (fresh : l.delivered ≤ number) (kind : TokenKind) (mark : Mark) :
    (retain out l).insertAt number kind mark = retain out (l.insertAt number kind mark) := by
  have place : number - (l.delivered - out.length) = out.length + (number - l.delivered) := by omega
  simp [insertAt, retain, place, insertIdx_behind]

theorem later_insertAt {l : Lexer} (dated : Dated l) (number : Nat) (kind : TokenKind) (mark : Mark) :
    Later l (l.insertAt number kind mark) := by
  refine ⟨dated, rfl, ?_⟩
  simp only [insertAt, List.length_insertIdx]
  split <;> omega

theorem openBlock_retain {l : Lexer} {out : List Token} {number : Nat} (enough : out.length ≤ l.delivered)
    (fresh : l.delivered ≤ number) (column : Nat) (kind : TokenKind) (mark : Mark) :
    (retain out l).openBlock column number kind mark = retain out (l.openBlock column number kind mark) := by
  have same : ((retain out l).inFlow = true ∨ (column : Int) ≤ (retain out l).indent) =
    (l.inFlow = true ∨ (column : Int) ≤ l.indent) := rfl
  simp only [openBlock, same]
  split
  · rfl
  · exact insertAt_retain (l := { l with indent := column, outer := l.indent :: l.outer }) enough fresh kind mark

theorem later_openBlock {l : Lexer} (dated : Dated l) (column number : Nat) (kind : TokenKind) (mark : Mark) :
    Later l (l.openBlock column number kind mark) := by
  simp only [openBlock]
  split
  · exact ⟨dated, rfl, Nat.le_refl _⟩
  · obtain ⟨dated, delivered, longer⟩ :=
      later_insertAt (l := { l with indent := column, outer := l.indent :: l.outer }) dated number kind mark
    exact ⟨dated, delivered, longer⟩

theorem nextNumber_retain {l : Lexer} {out : List Token} (enough : out.length ≤ l.delivered) :
    (retain out l).nextNumber = l.nextNumber := by
  simp [nextNumber, retain]
  omega

theorem calm_openBlock (kind : TokenKind) :
    Calm fun l => l.openBlock l.cursor.mark.column l.nextNumber kind l.cursor.mark where
  commutes l out _ enough := by
    rw [nextNumber_retain enough]
    exact openBlock_retain enough (Nat.le_add_right _ _) _ kind _
  later l dated := later_openBlock dated _ _ kind _

/-! ## Keys -/

theorem steady_dropKey : Steady dropKey? := by
  intro l out dated enough
  simp only [dropKey?, retain]
  split
  · rename_i key rest keys
    split
    · exact ⟨rfl, fun m read => by cases read⟩
    · refine ⟨rfl, fun m read => ?_⟩
      obtain rfl := Option.some.inj read
      refine ⟨fun start member => ?_, rfl, Nat.le_refl _⟩
      rcases List.mem_cons.mp member with rfl | member
      · simp
      · exact dated start (by rw [keys]; exact List.mem_cons_of_mem _ member)
  · refine ⟨rfl, fun m read => ?_⟩
    obtain rfl := Option.some.inj read
    exact ⟨dated, rfl, Nat.le_refl _⟩

theorem steady_noteKey : Steady noteKey? := by
  intro l out dated enough
  obtain ⟨same, later⟩ := steady_dropKey l out dated enough
  have allowed : (retain out l).keyAllowed = l.keyAllowed := rfl
  have flow : (retain out l).inFlow = l.inFlow := rfl
  have cursor : (retain out l).cursor = l.cursor := rfl
  have indent : (retain out l).indent = l.indent := rfl
  by_cases may : l.keyAllowed = true
  · simp only [noteKey?, allowed, may, if_true, flow, cursor, indent, nextNumber_retain enough, same]
    cases found : l.dropKey? with
    | none => exact ⟨rfl, fun m read => by cases read⟩
    | some m =>
      have before := later m found
      refine ⟨rfl, fun n read => ?_⟩
      obtain rfl := Option.some.inj read
      refine ⟨fun start member => ?_, before.delivered, before.longer⟩
      rcases List.mem_cons.mp member with rfl | member
      · intro key one
        obtain rfl := Option.some.inj one
        simp [before.delivered, nextNumber]
      · exact before.dated start (List.mem_of_mem_drop member)
  · simp only [noteKey?, allowed, may]
    exact ⟨rfl, fun m read => by obtain rfl := Option.some.inj read; exact ⟨dated, rfl, Nat.le_refl _⟩⟩

/-- The keys that are recent at a mark. -/
def recent (mark : Mark) (keys : List (Option KeyStart)) : List (Option KeyStart) :=
  keys.map fun start => start.filter fun key => !isStale mark key

/-- Whether a key that is stale at a mark is required. -/
def misses (mark : Mark) (keys : List (Option KeyStart)) : Bool :=
  keys.any fun start => start.any fun key => isStale mark key && key.required

/-- Stale keys are given up, unless one of them is required. -/
theorem dropStale?_eq (l : Lexer) :
    l.dropStale? =
      if misses l.cursor.mark l.keys then none else some { l with keys := recent l.cursor.mark l.keys } := by
  by_cases stale : (l.keys.any fun start => start.any (isStale l.cursor.mark)) = true
  · simp [dropStale?, stale, misses, recent]
  · have fresh : ∀ start ∈ l.keys, ∀ key ∈ start, isStale l.cursor.mark key = false := by
      intro start member key one
      rw [Option.mem_def] at one
      subst one
      simpa using mt (fun old => List.any_eq_true.mpr ⟨some key, member, old⟩) stale
    have optional : misses l.cursor.mark l.keys = false := by
      simp only [misses, List.any_eq_false]
      intro start member
      cases start with
      | none => simp
      | some key => simp [fresh (some key) member key rfl]
    have kept : recent l.cursor.mark l.keys = l.keys := by
      rw [recent, List.map_congr_left (g := id), List.map_id]
      intro start member
      cases start with
      | none => rfl
      | some key => simp [fresh (some key) member key rfl]
    simp [dropStale?, stale, optional, kept]

theorem steady_dropStale : Steady dropStale? := by
  intro l out dated enough
  have keys : (retain out l).keys = l.keys := rfl
  have cursor : (retain out l).cursor = l.cursor := rfl
  simp only [dropStale?_eq, keys, cursor]
  split
  · exact ⟨rfl, fun m read => by cases read⟩
  · refine ⟨rfl, fun m read => ?_⟩
    obtain rfl := Option.some.inj read
    refine ⟨fun start member key one => ?_, rfl, Nat.le_refl _⟩
    obtain ⟨before, inside, rfl⟩ := List.mem_map.mp member
    exact dated before inside key (Option.mem_filter_iff.mp one).1

/-! ## Tokens -/

/-- Moving to the next token changes no more than the cursor and whether a key may start there. -/
theorem toNext_eq (l : Lexer) (fuel : Nat) :
    l.toNext fuel = { l with
      cursor := (l.toNext fuel).cursor, keyAllowed := (l.toNext fuel).keyAllowed } := by
  induction fuel generalizing l with
  | zero => rfl
  | succ fuel ih =>
    simp only [toNext]
    split
    · rw [ih]
    · rfl

theorem toNext_congr {l m : Lexer} (cursor : l.cursor = m.cursor) (allowed : l.keyAllowed = m.keyAllowed)
    (flow : l.inFlow = m.inFlow) (fuel : Nat) :
    (l.toNext fuel).cursor = (m.toNext fuel).cursor ∧ (l.toNext fuel).keyAllowed = (m.toNext fuel).keyAllowed := by
  induction fuel generalizing l m with
  | zero => exact ⟨cursor, allowed⟩
  | succ fuel ih =>
    simp only [toNext, cursor, allowed, flow]
    split
    · exact ih rfl rfl flow
    · exact ⟨rfl, rfl⟩

theorem calm_toNext : Calm fun l => l.toNext (l.cursor.rest.length + 1) where
  commutes l out _ _ := by
    obtain ⟨cursor, allowed⟩ := toNext_congr (l := retain out l) (m := l) rfl rfl rfl (l.cursor.rest.length + 1)
    have first := toNext_eq (retain out l) (l.cursor.rest.length + 1)
    have second := toNext_eq l (l.cursor.rest.length + 1)
    rw [cursor, allowed] at first
    rw [second]
    exact first
  later l dated := by
    rw [toNext_eq]
    exact ⟨dated, rfl, Nat.le_refl _⟩

theorem steady_settle : Steady settle? :=
  (steady_dropStale.after calm_toNext).bind <|
    .look (fun l => l.cursor.ask? 4) (fun _ _ => rfl) fun c => (calm_closeBlocks c.mark.column).steady

theorem quiet_allow (keyAllowed : Bool) : Quiet fun l => { l with keyAllowed } :=
  ⟨fun _ _ => rfl, fun _ dated => dated, fun _ => rfl, fun _ => rfl⟩

theorem quiet_move (keyAllowed : Bool) (cursor : Cursor) : Quiet fun l => { l with keyAllowed, cursor } :=
  ⟨fun _ _ => rfl, fun _ dated => dated, fun _ => rfl, fun _ => rfl⟩

theorem steady_endStream : Steady endStream? := by
  have move : Quiet fun l => { l with cursor := { l.cursor with mark :=
      if l.cursor.mark.column = 0 then l.cursor.mark
      else { l.cursor.mark with line := l.cursor.mark.line + 1, column := 0 } } } :=
    ⟨fun _ _ => rfl, fun _ dated => dated, fun _ => rfl, fun _ => rfl⟩
  have finish : Quiet fun l => { l with keyAllowed := false, ended := true } :=
    ⟨fun _ _ => rfl, fun _ dated => dated, fun _ => rfl, fun _ => rfl⟩
  exact ((steady_dropKey.after (calm_closeBlocks (-1))).after move.calm).bind (calm_take finish 0 .streamEnd).steady

theorem steady_documentIndicator (kind : TokenKind) : Steady fun l => l.documentIndicator? kind :=
  (steady_dropKey.after (calm_closeBlocks (-1))).bind (calm_take (quiet_allow false) 3 kind).steady

theorem steady_directive : Steady directive? :=
  (steady_dropKey.after (calm_closeBlocks (-1))).bind <|
    .look (fun l => l.cursor.directive?) (fun _ _ => rfl) fun (token, next) =>
      (calm_enqueue (quiet_move false next) (fun _ => token) fun _ _ => rfl).steady

theorem steady_openFlow (kind : TokenKind) : Steady fun l => l.openFlow? kind := by
  have nest : Quiet fun l => { l with keys := none :: l.keys, keyAllowed := true } := by
    refine ⟨fun _ _ => rfl, fun l dated start member => ?_, fun _ => rfl, fun _ => rfl⟩
    rcases List.mem_cons.mp member with rfl | member
    · simp
    · exact dated start member
  exact steady_noteKey.bind (calm_take nest 1 kind).steady

theorem steady_closeFlow (kind : TokenKind) : Steady fun l => l.closeFlow? kind := by
  have leave : Quiet fun l => { l with
      keys := if l.inFlow then l.keys.drop 1 else l.keys, keyAllowed := false } := by
    refine ⟨fun _ _ => rfl, fun l dated start member => ?_, fun _ => rfl, fun _ => rfl⟩
    refine dated start ?_
    dsimp only at member
    split at member
    · exact List.mem_of_mem_drop member
    · exact member
  exact steady_dropKey.bind (calm_take leave 1 kind).steady

theorem steady_flowEntry : Steady flowEntry? :=
  steady_dropKey.bind (calm_take (quiet_allow true) 1 .flowEntry).steady

theorem steady_blockEntry : Steady blockEntry? :=
  .ite (fun _ _ => Iff.rfl) steady_none <|
    (steady_dropKey.after (calm_openBlock .blockSequenceStart)).bind (calm_take (quiet_allow true) 1 .blockEntry).steady

theorem steady_key : Steady key? :=
  .ite (fun _ _ => Iff.rfl) steady_none <|
    (steady_dropKey.after (calm_openBlock .blockMappingStart)).bind (calm_take ⟨fun _ _ => rfl, fun _ dated => dated, fun _ => rfl, fun _ => rfl⟩ 1 .key
      (g := fun l => { l with keyAllowed := !l.inFlow })).steady

theorem steady_value : Steady value? := by
  have allow : Quiet fun l => { l with keyAllowed := !l.inFlow } :=
    ⟨fun _ _ => rfl, fun _ dated => dated, fun _ => rfl, fun _ => rfl⟩
  have alone : Steady fun l =>
      if ¬l.inFlow ∧ ¬l.keyAllowed then none
      else
        let l := l.openBlock l.cursor.mark.column l.nextNumber .blockMappingStart l.cursor.mark
        some ({ l with keyAllowed := !l.inFlow }.take 1 .value) :=
    .ite (fun _ _ => Iff.rfl) steady_none ((calm_take allow 1 .value).steady.after (calm_openBlock .blockMappingStart))
  -- A noted key gets its token at its own number, which has not been handed out.
  intro l out dated enough
  have kept : (retain out l).keys = l.keys := rfl
  cases keys : l.keys with
  | nil => simpa only [value?, kept, keys] using alone l out dated enough
  | cons start rest =>
    cases start with
    | none => simpa only [value?, kept, keys] using alone l out dated enough
    | some key =>
      have fresh : l.delivered ≤ key.number := dated (some key) (by simp [keys]) key rfl
      have inserted := later_insertAt dated key.number .key key.mark
      have opened := later_openBlock inserted.dated key.mark.column key.number .blockMappingStart key.mark
      have commutes := openBlock_retain (l := l.insertAt key.number .key key.mark) enough fresh key.mark.column
        .blockMappingStart key.mark
      simp only [value?, kept, keys, insertAt_retain enough fresh, commutes]
      refine ⟨by simp [take, enqueue, retain], fun m read => ?_⟩
      obtain rfl := Option.some.inj read
      have delivered := opened.delivered.trans inserted.delivered
      refine ⟨fun start member => ?_, delivered, ?_⟩
      · rcases List.mem_cons.mp member with rfl | member
        · simp
        · intro key one
          exact Nat.le_trans (Nat.le_of_eq delivered)
            (dated start (by rw [keys]; exact List.mem_cons_of_mem _ member) key one)
      · have longer := Nat.le_trans inserted.longer opened.longer
        simp [take, enqueue]
        omega

theorem steady_property (read : Cursor → Option (TokenKind × Cursor)) : Steady fun l => l.property? read :=
  steady_noteKey.bind <| .look (fun l => read l.cursor) (fun _ _ => rfl) fun (kind, next) =>
    (calm_enqueue (quiet_move false next) (fun l => ⟨kind, l.cursor.mark, next.mark⟩) fun _ _ => rfl).steady

theorem steady_blockScalar (literal : Bool) : Steady fun l => l.blockScalar? literal :=
  steady_dropKey.bind <| .look (fun l => l.cursor.block? literal l.indent) (fun _ _ => rfl)
    fun (token, next) => (calm_enqueue (quiet_move true next) (fun _ => token) fun _ _ => rfl).steady

theorem steady_quoted (single : Bool) : Steady fun l => l.quoted? single :=
  steady_noteKey.bind <| .look (fun l => l.cursor.quoted? single) (fun _ _ => rfl)
    fun (token, next) => (calm_enqueue (quiet_move false next) (fun _ => token) fun _ _ => rfl).steady

theorem steady_plain : Steady plain? :=
  steady_noteKey.bind <| .look (fun l => l.cursor.plain? l.inFlow (l.indent + 1)) (fun _ _ => rfl)
    fun (token, ended, next) => (calm_enqueue (quiet_move ended next) (fun _ => token) fun _ _ => rfl).steady

theorem steady_read : Steady read? := by
  have chain (x : Char) (referred anchored : Cursor → Option (TokenKind × Cursor)) : Steady fun l =>
      let c := l.cursor
      if c.mark.column = 0 ∧ x = '%' then l.directive?
      else if c.atTriple '-' then l.documentIndicator? .documentStart
      else if c.atTriple '.' then l.documentIndicator? .documentEnd
      else if x = '[' then l.openFlow? .flowSequenceStart
      else if x = '\x7b' then l.openFlow? .flowMappingStart
      else if x = ']' then l.closeFlow? .flowSequenceEnd
      else if x = '\x7d' then l.closeFlow? .flowMappingEnd
      else if x = ',' then l.flowEntry?
      else if x = '-' ∧ c.spacedAfter 1 then l.blockEntry?
      else if x = '?' ∧ (l.inFlow ∨ c.spacedAfter 1) then l.key?
      else if x = ':' ∧ (l.inFlow ∨ c.spacedAfter 1) then l.value?
      else if x = '*' then l.property? referred
      else if x = '&' then l.property? anchored
      else if x = '!' then l.property? (·.tag? l.inFlow)
      else if x = '|' ∧ ¬l.inFlow then l.blockScalar? true
      else if x = '>' ∧ ¬l.inFlow then l.blockScalar? false
      else if x = '\'' then l.quoted? true
      else if x = '"' then l.quoted? false
      else if l.startsPlain then l.plain?
      else none := by
    have tag : Steady fun l => l.property? (·.tag? l.inFlow) :=
      fun l => steady_property (·.tag? l.inFlow) l
    -- No test depends on what has been handed out, so each choice is as steady as its two outcomes.
    refine .ite (fun _ _ => Iff.rfl) steady_directive ?_
    refine .ite (fun _ _ => Iff.rfl) (steady_documentIndicator _) ?_
    refine .ite (fun _ _ => Iff.rfl) (steady_documentIndicator _) ?_
    refine .ite (fun _ _ => Iff.rfl) (steady_openFlow _) ?_
    refine .ite (fun _ _ => Iff.rfl) (steady_openFlow _) ?_
    refine .ite (fun _ _ => Iff.rfl) (steady_closeFlow _) ?_
    refine .ite (fun _ _ => Iff.rfl) (steady_closeFlow _) ?_
    refine .ite (fun _ _ => Iff.rfl) steady_flowEntry ?_
    refine .ite (fun _ _ => Iff.rfl) steady_blockEntry ?_
    refine .ite (fun _ _ => Iff.rfl) steady_key ?_
    refine .ite (fun _ _ => Iff.rfl) steady_value ?_
    refine .ite (fun _ _ => Iff.rfl) (steady_property _) ?_
    refine .ite (fun _ _ => Iff.rfl) (steady_property _) ?_
    refine .ite (fun _ _ => Iff.rfl) tag ?_
    refine .ite (fun _ _ => Iff.rfl) (steady_blockScalar true) ?_
    refine .ite (fun _ _ => Iff.rfl) (steady_blockScalar false) ?_
    refine .ite (fun _ _ => Iff.rfl) (steady_quoted true) ?_
    refine .ite (fun _ _ => Iff.rfl) (steady_quoted false) ?_
    exact .ite (fun _ _ => Iff.rfl) steady_plain steady_none
  intro l out dated enough
  have cursor : (retain out l).cursor = l.cursor := rfl
  cases next : l.cursor.peek? with
  | none => simpa only [read?, cursor, next] using steady_endStream l out dated enough
  | some x => simpa only [read?, cursor, next] using chain x _ _ l out dated enough

theorem steady_fetch : Steady fetch? := steady_settle.bind steady_read

/-! ## Stale keys -/

/-- A mark that is not in front of another one. -/
def Follows (earlier later : Mark) : Prop := earlier.line ≤ later.line ∧ earlier.index ≤ later.index

theorem follows_refl (mark : Mark) : Follows mark mark := ⟨Nat.le_refl _, Nat.le_refl _⟩

theorem Follows.trans {a b c : Mark} (first : Follows a b) (second : Follows b c) : Follows a c :=
  ⟨Nat.le_trans first.1 second.1, Nat.le_trans first.2 second.2⟩

theorem follows_skip (c : Cursor) (count : Nat) : Follows c.mark (c.skip count).mark :=
  ⟨Nat.le_refl _, Nat.le_add_right _ _⟩

theorem follows_lineEnd {c next : Cursor} {x : Char} (found : c.lineEnd? = some (x, next)) :
    Follows c.mark next.mark := by
  have down (count : Nat) : Follows c.mark (c.nextLineAfter count).mark :=
    ⟨Nat.le_succ _, Nat.le_add_right _ _⟩
  simp only [Cursor.lineEnd?] at found
  split at found
  · cases found
    exact down 2
  · split at found
    · cases found
      exact down 1
    · split at found
      · cases found
        exact down 1
      · cases found
  · cases found

theorem follows_skipWhile (c : Cursor) (p : Char → Bool) : Follows c.mark (c.skipWhile p).mark :=
  follows_skip c _

theorem follows_ite {start : Mark} {c d : Cursor} (p : Prop) [Decidable p] (yes : Follows start c.mark)
    (no : Follows start d.mark) : Follows start (if p then c else d).mark := by
  split
  · exact yes
  · exact no

theorem follows_toNext (l : Lexer) (fuel : Nat) : Follows l.cursor.mark (l.toNext fuel).cursor.mark := by
  induction fuel generalizing l with
  | zero => exact follows_refl _
  | succ fuel ih =>
    have start := follows_ite (l.cursor.mark.column = 0 ∧ l.cursor.sees '\uFEFF') (follows_skip l.cursor 1)
      (follows_refl _)
    have spaces := start.trans <| follows_skipWhile _ fun x =>
      x == ' ' || (x == '\t' && (l.inFlow || !l.keyAllowed))
    have comment (p : Prop) [Decidable p] :=
      follows_ite p (spaces.trans (follows_skipWhile _ (!isBreak ·))) spaces
    simp only [toNext]
    split
    · rename_i next found
      exact ((comment _).trans (follows_lineEnd found)).trans
        (ih { l with cursor := next, keyAllowed := l.keyAllowed || !l.inFlow })
    · exact comment _

theorem isStale_of_follows {earlier later : Mark} (follows : Follows earlier later) {key : KeyStart}
    (stale : isStale earlier key = true) : isStale later key = true := by
  obtain ⟨line, index⟩ := follows
  simp only [isStale, Bool.or_eq_true, decide_eq_true_eq] at stale ⊢
  omega

theorem recent_recent {earlier later : Mark} (follows : Follows earlier later)
    (keys : List (Option KeyStart)) : recent later (recent earlier keys) = recent later keys := by
  simp only [recent, List.map_map]
  refine List.map_congr_left fun start _ => ?_
  cases start with
  | none => rfl
  | some key =>
    by_cases stale : isStale earlier key = true
    · simp [Option.filter, stale, isStale_of_follows follows stale]
    · simp [Option.filter, stale]

theorem mem_recent {mark : Mark} {keys : List (Option KeyStart)} {key : KeyStart} :
    some key ∈ recent mark keys ↔ some key ∈ keys ∧ isStale mark key = false := by
  simp only [recent, List.mem_map, Option.filter_eq_some_iff, Bool.not_eq_true']
  constructor
  · rintro ⟨_, member, rfl, fresh⟩
    exact ⟨member, fresh⟩
  · rintro ⟨member, fresh⟩
    exact ⟨some key, member, rfl, fresh⟩

theorem misses_iff {mark : Mark} {keys : List (Option KeyStart)} :
    misses mark keys = true ↔ ∃ key, some key ∈ keys ∧ isStale mark key = true ∧ key.required = true := by
  simp only [misses, List.any_eq_true]
  constructor
  · rintro ⟨_ | key, member, missed⟩
    · simp at missed
    · exact ⟨key, member, by simpa using missed⟩
  · rintro ⟨key, member, missed⟩
    exact ⟨some key, member, by simpa using missed⟩

/-- Reading on gives up stale keys in any case. -/
theorem fetch?_recent {l next : Lexer} (fetched : l.fetch? = some next) :
    l.dropStale? = some { l with keys := recent l.cursor.mark l.keys } ∧
      { l with keys := recent l.cursor.mark l.keys }.fetch? = some next := by
  have follows := follows_toNext l (l.cursor.rest.length + 1)
  have moved := toNext_eq l (l.cursor.rest.length + 1)
  have moved' := toNext_eq { l with keys := recent l.cursor.mark l.keys } (l.cursor.rest.length + 1)
  obtain ⟨cursor, allowed⟩ := toNext_congr (l := { l with keys := recent l.cursor.mark l.keys }) (m := l)
    rfl rfl (by simp [inFlow, recent]) (l.cursor.rest.length + 1)
  rw [cursor, allowed] at moved'
  generalize (l.toNext (l.cursor.rest.length + 1)).cursor = c at follows moved moved'
  generalize (l.toNext (l.cursor.rest.length + 1)).keyAllowed = a at moved moved'
  by_cases missed : misses c.mark l.keys = true
  · simp [fetch?, settle?, moved, dropStale?_eq, missed] at fetched
  · have optional : misses l.cursor.mark l.keys = false := by
      rw [← Bool.not_eq_true, misses_iff]
      rintro ⟨key, member, stale, required⟩
      exact missed (misses_iff.mpr ⟨key, member, isStale_of_follows follows stale, required⟩)
    have optional' : misses c.mark (recent l.cursor.mark l.keys) = false := by
      rw [← Bool.not_eq_true, misses_iff]
      rintro ⟨key, member, stale, required⟩
      exact missed (misses_iff.mpr ⟨key, (mem_recent.mp member).1, stale, required⟩)
    refine ⟨by simp [dropStale?_eq, optional], ?_⟩
    rw [← fetched]
    simp only [fetch?, settle?, moved, moved', dropStale?_eq, missed, optional', recent_recent follows]

/-! ## All tokens -/

theorem length_of_fetches {count : Nat} {l last : Lexer} (fetches : Fetches count l last)
    (fresh : l.delivered = 0) : l.queue.length ≤ last.queue.length := by
  induction fetches with
  | done l => exact Nat.le_refl _
  | @more _ l next _ _ fetched _ ih =>
    have later := (steady_fetch l [] (fun _ _ _ _ => by omega) (by simp)).2 next fetched
    exact Nat.le_trans later.longer (ih (later.delivered.trans fresh))

theorem fetches_recent {count : Nat} {l last : Lexer} (fetches : Fetches count l last)
    (none : last.keys = [none]) :
    l.dropStale? = some { l with keys := recent l.cursor.mark l.keys } ∧
      Fetches count { l with keys := recent l.cursor.mark l.keys } last := by
  cases fetches with
  | done =>
    have kept : recent l.cursor.mark l.keys = l.keys := by simp [none, recent]
    have same : { l with keys := recent l.cursor.mark l.keys } = l := by simp [kept]
    refine ⟨by simp [dropStale?_eq, none, misses], ?_⟩
    rw [same]
    exact .done l
  | more going fetched others =>
    obtain ⟨dropped, fetched⟩ := fetch?_recent fetched
    exact ⟨dropped, .more going fetched others⟩

/-- A lexer that has handed tokens out reads on like one that has not. -/
theorem readOn_of_fetches {count : Nat} {l last : Lexer} {out : List Token} (dated : Dated l)
    (handed : l.delivered = out.length) (fetches : Fetches (count + 1) (retain out l) last) :
    ∃ m, l.readOn = .more m ∧ Fetches count (retain out m) last ∧ Dated m ∧ m.delivered = out.length := by
  cases fetches with
  | more going fetched others =>
    obtain ⟨same, later⟩ := steady_fetch l out dated (Nat.le_of_eq handed.symm)
    rw [same] at fetched
    obtain ⟨m, read, rfl⟩ := Option.map_eq_some_iff.mp fetched
    have next := later m read
    exact ⟨m, by simp [readOn, read], others, next.dated, next.delivered.trans handed⟩

theorem step_of_open {l : Lexer} {token : Token} {rest : List Token} (queue : l.queue = token :: rest)
    {k : Lexer} (dropped : l.dropStale? = some k) :
    l.step = if k.headIsOpen then k.readOn
      else .token token { k with queue := rest, delivered := k.delivered + 1 } := by
  simp [step, queue, dropped]

theorem dated_after {l : Lexer} (dated : Dated l) (closed : l.headIsOpen = false) (rest : List Token) :
    Dated { l with queue := rest, delivered := l.delivered + 1 } := by
  intro start member key one
  have before := dated start member key one
  have other : key.number ≠ l.delivered := by
    rintro number
    rw [Option.mem_def] at one
    subst one
    simp only [headIsOpen, List.any_eq_false] at closed
    exact closed (some key) member (by simp [number])
  show l.delivered + 1 ≤ key.number
  omega

/-- Giving up stale keys keeps what is still to be fetched. -/
theorem dropStale?_of_fetches {count : Nat} {l last : Lexer} {out : List Token} (dated : Dated l)
    (handed : l.delivered = out.length) (fetches : Fetches count (retain out l) last)
    (none : last.keys = [none]) :
    ∃ k, l.dropStale? = some k ∧ Fetches count (retain out k) last ∧ Dated k ∧ k.delivered = out.length ∧
      k.queue = l.queue := by
  obtain ⟨dropped, fetches⟩ := fetches_recent fetches none
  obtain ⟨same, later⟩ := steady_dropStale l out dated (Nat.le_of_eq handed.symm)
  rw [same] at dropped
  obtain ⟨k, dropped, retained⟩ := Option.map_eq_some_iff.mp dropped
  rw [← retained] at fetches
  have next := later k dropped
  have queues := congrArg Lexer.queue retained
  exact ⟨k, dropped, fetches, next.dated, next.delivered.trans handed, by simpa [retain] using queues⟩

theorem retain_deliver {k : Lexer} {token : Token} {rest out : List Token} (queue : k.queue = token :: rest)
    (handed : k.delivered = out.length) :
    retain (out ++ [token]) { k with queue := rest, delivered := k.delivered + 1 } = retain out k := by
  simp [retain, queue, handed]

theorem collect_of_fetches (fuel : Nat) (out : List Token) {count : Nat} {l last : Lexer} (dated : Dated l)
    (handed : l.delivered = out.length) (fetches : Fetches count (retain out l) last)
    (ended : last.ended = true) (none : last.keys = [none])
    (enough : count + last.queue.length < fuel + out.length) :
    collect l out.reverse fuel = last.queue := by
  -- Each step reads a token on, which leaves one fetch fewer, or hands one out.
  induction fuel generalizing count l out with
  | zero =>
    have within := length_of_fetches fetches (by simp [retain, handed])
    simp [retain] at within
    omega
  | succ fuel ih =>
    have onward {k : Lexer} (dated : Dated k) (handed : k.delivered = out.length)
        (fetches : Fetches count (retain out k) last) (unfinished : count ≠ 0) :
        ∃ m, k.readOn = .more m ∧ collect m out.reverse fuel = last.queue := by
      obtain ⟨rest, rfl⟩ := Nat.exists_eq_succ_of_ne_zero unfinished
      obtain ⟨m, read, fetches, dated, handed⟩ := readOn_of_fetches dated handed fetches
      exact ⟨m, read, ih out dated handed fetches (by omega)⟩
    cases queue : l.queue with
    | nil =>
      by_cases finished : l.ended = true
      · cases fetches with
        | done => simp [collect, step, queue, finished, retain]
        | more going => exact absurd finished (by simpa [retain] using going)
      · have unfinished : count ≠ 0 := by
          rintro rfl
          cases fetches
          exact finished ended
        obtain ⟨m, read, collected⟩ := onward dated handed fetches unfinished
        simp [collect, step, queue, finished, read, collected]
    | cons token rest =>
      obtain ⟨k, dropped, fetches, dated, handed, kept⟩ := dropStale?_of_fetches dated handed fetches none
      by_cases waits : k.headIsOpen = true
      · have unfinished : count ≠ 0 := by
          rintro rfl
          cases fetches
          simp [headIsOpen, show k.keys = [Option.none] from none] at waits
        obtain ⟨m, read, collected⟩ := onward dated handed fetches unfinished
        simp [collect, step_of_open queue dropped, waits, read, collected]
      · have closed : k.headIsOpen = false := by simpa using waits
        have same := retain_deliver (kept.trans queue) handed
        have collected := ih (out ++ [token]) (dated_after dated closed rest) (by simp [handed])
          (same ▸ fetches) (by simp; omega)
        simpa [collect, step_of_open queue dropped, closed] using collected

end Lexer

end PolicyDiagram.Yaml
