import PolicyDiagram.Yaml.Lexeme
import PolicyDiagram.Yaml.Stream

/-!
From characters to tokens. Block structure is told from columns. A colon turns what was read before it into a key
after the fact, so tokens wait in a queue as long as one of them may still turn out to start a key.
-/

namespace PolicyDiagram.Yaml

structure KeyStart where
  required : Bool
  number : Nat
  mark : Mark
deriving DecidableEq, Repr

structure Lexer where
  cursor : Cursor
  /-- Those of the open brackets and of the block around them, innermost first. -/
  keys : List (Option KeyStart)
  keyAllowed : Bool
  indent : Int
  outer : List Int
  queue : List Token
  delivered : Nat
  ended : Bool

namespace Lexer

def start (stream : Stream) : Lexer where
  cursor := ⟨stream.chars, ⟨0, 0, 0⟩, stream.sound⟩
  keys := [none]
  keyAllowed := true
  indent := -1
  outer := []
  queue := []
  delivered := 0
  ended := false

def inFlow (l : Lexer) : Bool := 1 < l.keys.length

def enqueue (l : Lexer) (token : Token) : Lexer := { l with queue := l.queue ++ [token] }

def insertAt (l : Lexer) (number : Nat) (kind : TokenKind) (mark : Mark) : Lexer :=
  { l with queue := l.queue.insertIdx (number - l.delivered) ⟨kind, mark, mark⟩ }

def nextNumber (l : Lexer) : Nat := l.delivered + l.queue.length

def openBlock (l : Lexer) (column number : Nat) (kind : TokenKind) (mark : Mark) : Lexer :=
  if l.inFlow ∨ (column : Int) ≤ l.indent then l
  else { l with indent := column, outer := l.indent :: l.outer }.insertAt number kind mark

/-- The columns that are left when the blocks to the right of a column are closed, and how many were. -/
def closedTo (column : Int) : Int → List Int → Nat → Int × List Int × Nat
  | indent, [], closed => (indent, [], closed)
  | indent, parent :: rest, closed =>
    if column < indent then closedTo column parent rest (closed + 1)
    else (indent, parent :: rest, closed)

def closeBlocks (l : Lexer) (column : Int) : Lexer :=
  if l.inFlow then l
  else
    let (indent, outer, closed) := closedTo column l.indent l.outer 0
    let mark := l.cursor.mark
    { l with
      indent, outer
      queue := l.queue ++ List.replicate closed ⟨.blockEnd, mark, mark⟩ }

def dropKey? (l : Lexer) : Option Lexer :=
  match l.keys with
  | some key :: rest => if key.required then none else some { l with keys := none :: rest }
  | _ => some l

def noteKey? (l : Lexer) : Option Lexer :=
  if l.keyAllowed then do
    let mark := l.cursor.mark
    let key : KeyStart :=
      ⟨!l.inFlow && l.indent == (mark.column : Int), l.nextNumber, mark⟩
    let l ← l.dropKey?
    some { l with keys := some key :: l.keys.drop 1 }
  else some l

def isStale (mark : Mark) (key : KeyStart) : Bool :=
  key.mark.line < mark.line || key.mark.index + 1024 < mark.index

def dropStale? (l : Lexer) : Option Lexer :=
  let stale := isStale l.cursor.mark
  if !l.keys.any (·.any stale) then some l
  else if l.keys.any fun key => key.any fun k => stale k && k.required then none
  else some { l with keys := l.keys.map fun key => key.filter fun k => !stale k }

/-- Tabs are blank space inside brackets and where no key may start; a byte order mark is, at the start of a
line. -/
def toNext (l : Lexer) : Nat → Lexer
  | 0 => l
  | fuel + 1 =>
    let c := l.cursor
    let c := if c.mark.column = 0 ∧ c.sees '\uFEFF' then c.skip 1 else c
    let c := c.skipWhile fun x => x == ' ' || (x == '\t' && (l.inFlow || !l.keyAllowed))
    let c := if c.sees '#' then c.skipWhile (!isBreak ·) else c
    match c.lineEnd? with
    | some (_, next) =>
      { l with cursor := next, keyAllowed := l.keyAllowed || !l.inFlow }.toNext fuel
    | none => { l with cursor := c }

def take (l : Lexer) (count : Nat) (kind : TokenKind) : Lexer :=
  let next := l.cursor.skip count
  { l with cursor := next }.enqueue ⟨kind, l.cursor.mark, next.mark⟩

def endStream? (l : Lexer) : Option Lexer := do
  let mark := l.cursor.mark
  let mark := if mark.column = 0 then mark else { mark with line := mark.line + 1, column := 0 }
  let l := { l with cursor := { l.cursor with mark } }
  let l ← (l.closeBlocks (-1)).dropKey?
  some ({ l with keyAllowed := false, ended := true }.take 0 .streamEnd)

def documentIndicator? (l : Lexer) (kind : TokenKind) : Option Lexer := do
  let l ← (l.closeBlocks (-1)).dropKey?
  some ({ l with keyAllowed := false }.take 3 kind)

def directive? (l : Lexer) : Option Lexer := do
  let l ← (l.closeBlocks (-1)).dropKey?
  let (token, next) ← l.cursor.directive?
  some ({ l with keyAllowed := false, cursor := next }.enqueue token)

def openFlow? (l : Lexer) (kind : TokenKind) : Option Lexer := do
  let l ← l.noteKey?
  some ({ l with keys := none :: l.keys, keyAllowed := true }.take 1 kind)

def closeFlow? (l : Lexer) (kind : TokenKind) : Option Lexer := do
  let l ← l.dropKey?
  let keys := if l.inFlow then l.keys.drop 1 else l.keys
  some ({ l with keys, keyAllowed := false }.take 1 kind)

def flowEntry? (l : Lexer) : Option Lexer := do
  let l ← l.dropKey?
  some ({ l with keyAllowed := true }.take 1 .flowEntry)

def blockEntry? (l : Lexer) : Option Lexer := do
  let mark := l.cursor.mark
  if ¬l.inFlow ∧ ¬l.keyAllowed then none
  else
    let l ← (l.openBlock mark.column l.nextNumber .blockSequenceStart mark).dropKey?
    some ({ l with keyAllowed := true }.take 1 .blockEntry)

def key? (l : Lexer) : Option Lexer := do
  let mark := l.cursor.mark
  if ¬l.inFlow ∧ ¬l.keyAllowed then none
  else
    let l ← (l.openBlock mark.column l.nextNumber .blockMappingStart mark).dropKey?
    some ({ l with keyAllowed := !l.inFlow }.take 1 .key)

/-- A colon makes a key of what the innermost possible key started, or else belongs to an explicit key. -/
def value? (l : Lexer) : Option Lexer :=
  let mark := l.cursor.mark
  match l.keys with
  | some key :: rest =>
    let l := l.insertAt key.number .key key.mark
    let l := l.openBlock key.mark.column key.number .blockMappingStart key.mark
    some ({ l with keys := none :: rest, keyAllowed := false }.take 1 .value)
  | _ =>
    if ¬l.inFlow ∧ ¬l.keyAllowed then none
    else
      let l := l.openBlock mark.column l.nextNumber .blockMappingStart mark
      some ({ l with keyAllowed := !l.inFlow }.take 1 .value)

def property? (l : Lexer) (read : Cursor → Option (TokenKind × Cursor)) : Option Lexer := do
  let l ← l.noteKey?
  let (kind, next) ← read l.cursor
  some ({ l with keyAllowed := false, cursor := next }.enqueue ⟨kind, l.cursor.mark, next.mark⟩)

def blockScalar? (l : Lexer) (literal : Bool) : Option Lexer := do
  let l ← l.dropKey?
  let (token, next) ← l.cursor.block? literal l.indent
  some ({ l with keyAllowed := true, cursor := next }.enqueue token)

def quoted? (l : Lexer) (single : Bool) : Option Lexer := do
  let l ← l.noteKey?
  let (token, next) ← l.cursor.quoted? single
  some ({ l with keyAllowed := false, cursor := next }.enqueue token)

/-- A key may follow a plain scalar if a line ended behind it. -/
def plain? (l : Lexer) : Option Lexer := do
  let l ← l.noteKey?
  let (token, ended, next) ← l.cursor.plain? l.inFlow (l.indent + 1)
  some ({ l with keyAllowed := ended, cursor := next }.enqueue token)

def indicators : List Char := "-?:,[]\x7b\x7d#&*!|>'\"%@`".toList

/-- A dash, and outside brackets a question mark or a colon, may start one if no space follows. -/
def startsPlain (l : Lexer) : Bool :=
  let c := l.cursor
  (!c.atSpace && !c.seesAny fun x => indicators.contains x) ||
    (c.sees '-' && !(c.skip 1).seesAny isBlank) ||
    (!l.inFlow && (c.sees '?' || c.sees ':') && !c.spacedAfter 1)

def settle? (l : Lexer) : Option Lexer := do
  let l ← (l.toNext (l.cursor.rest.length + 1)).dropStale?
  let c ← l.cursor.ask? 4
  some (l.closeBlocks c.mark.column)

def read? (l : Lexer) : Option Lexer :=
  let c := l.cursor
  match c.peek? with
  | none => l.endStream?
  | some x =>
    if c.mark.column = 0 ∧ x = '%' then l.directive?
    else if c.atTriple '-' then l.documentIndicator? .documentStart
    else if c.atTriple '.' then l.documentIndicator? .documentEnd
    else if x = '[' then l.openFlow? .flowSequenceStart
    else if x = '\x7b' then l.openFlow? .flowMappingStart
    else if x = ']' then l.closeFlow? .flowSequenceEnd
    else if x = '\x7d' then l.closeFlow? .flowMappingEnd
    else if x = ',' then l.flowEntry?
    else if x = '-' ∧ c.spacedAfter 1 then l.blockEntry?
    else if x = '?' ∧ (l.inFlow ∨ c.spacedAfter 1) then l.key?
    else if x = ':' ∧ (l.inFlow ∨ c.spacedAfter 1) then l.value?
    else if x = '*' then l.property? fun c => c.anchorName?.map fun (n, c) => (.alias n, c)
    else if x = '&' then l.property? fun c => c.anchorName?.map fun (n, c) => (.anchor n, c)
    else if x = '!' then l.property? (·.tag? l.inFlow)
    else if x = '|' ∧ ¬l.inFlow then l.blockScalar? true
    else if x = '>' ∧ ¬l.inFlow then l.blockScalar? false
    else if x = '\'' then l.quoted? true
    else if x = '"' then l.quoted? false
    else if l.startsPlain then l.plain?
    else none

def fetch? (l : Lexer) : Option Lexer := do (← l.settle?).read?

def headIsOpen (l : Lexer) : Bool := l.keys.any fun key => key.any (·.number == l.delivered)

inductive Step where
  | fault
  | done
  | token (token : Token) (next : Lexer)
  | more (next : Lexer)

def readOn (l : Lexer) : Step :=
  match l.fetch? with
  | none => .fault
  | some next => .more next

def step (l : Lexer) : Step :=
  match l.queue with
  | [] => if l.ended then .done else l.readOn
  | token :: rest =>
    match l.dropStale? with
    | none => .fault
    | some l =>
      if l.headIsOpen then l.readOn
      else .token token { l with queue := rest, delivered := l.delivered + 1 }

end Lexer

def collect (l : Lexer) (tokens : List Token) : Nat → List Token
  | 0 => tokens.reverse
  | fuel + 1 =>
    match l.step with
    | .fault | .done => tokens.reverse
    | .token token next => collect next (token :: tokens) fuel
    | .more next => collect next tokens fuel

/-- A character makes at most four tokens: a key, a start and an end of its block, and itself; each token is
read and handed out. -/
def Stream.tokens (stream : Stream) : List Token :=
  collect (.start stream) [] (16 * stream.chars.length + 64)

end PolicyDiagram.Yaml
