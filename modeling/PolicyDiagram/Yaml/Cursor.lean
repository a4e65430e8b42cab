import PolicyDiagram.Text.Utf8

/-!
A place in a YAML stream. Lines end at line feeds, carriage returns, the pair of both, next-line characters and
the two Unicode separators. A reader asks for as many characters as it looks at, and fails if a fault comes
before them.
-/

namespace PolicyDiagram.Yaml

/-- Places count from zero; `index` counts bytes, `column` characters. -/
structure Mark where
  index : Nat
  line : Nat
  column : Nat
deriving DecidableEq, Repr, Inhabited

def nextLine : Char := '\x85'

def lineSeparator : Char := '\u2028'

def paragraphSeparator : Char := '\u2029'

def isBreak (c : Char) : Bool :=
  c == '\n' || c == '\r' || c == nextLine || c == lineSeparator || c == paragraphSeparator

def isBlank (c : Char) : Bool := c == ' ' || c == '\t'

def isNameChar (c : Char) : Bool :=
  ('a' ≤ c && c ≤ 'z') || ('A' ≤ c && c ≤ 'Z') || c.isDigit || c == '_' || c == '-'

/-- An unsound stream has a fault behind the last of its characters. -/
structure Cursor where
  rest : List Char
  mark : Mark
  sound : Bool
deriving Repr, Inhabited

namespace Cursor

def holds (c : Cursor) (count : Nat) : Bool := c.sound || !(c.rest.drop (count - 1)).isEmpty

def ask? (c : Cursor) (count : Nat) : Option Cursor := if c.holds count then some c else none

def peek? (c : Cursor) : Option Char := c.rest.head?

def endsOr (c : Cursor) (p : Char → Bool) : Bool := c.peek?.all p

def seesAny (c : Cursor) (p : Char → Bool) : Bool := c.peek?.any p

def sees (c : Cursor) (x : Char) : Bool := c.peek? == some x

def skip (c : Cursor) (count : Nat) : Cursor :=
  let index := c.mark.index + Text.byteCount (c.rest.take count)
  { c with
    rest := c.rest.drop count
    mark := { c.mark with index, column := c.mark.column + count } }

def takeWhile (c : Cursor) (p : Char → Bool) : List Char × Cursor :=
  let run := c.rest.takeWhile p
  (run, c.skip run.length)

def skipWhile (c : Cursor) (p : Char → Bool) : Cursor := (c.takeWhile p).2

def nextLineAfter (c : Cursor) (count : Nat) : Cursor :=
  { c with
    rest := c.rest.drop count
    mark := ⟨c.mark.index + Text.byteCount (c.rest.take count), c.mark.line + 1, 0⟩ }

/-- All line ends but the Unicode separators stand for a line feed. -/
def lineEnd? (c : Cursor) : Option (Char × Cursor) :=
  match c.rest with
  | '\r' :: '\n' :: _ => some ('\n', c.nextLineAfter 2)
  | x :: _ =>
    if x == lineSeparator || x == paragraphSeparator then some (x, c.nextLineAfter 1)
    else if isBreak x then some ('\n', c.nextLineAfter 1)
    else none
  | [] => none

def skipLineEnd (c : Cursor) : Cursor :=
  match c.lineEnd? with
  | some (_, next) => next
  | none => c

def spacedAfter (c : Cursor) (count : Nat) : Bool :=
  (c.rest.drop count).head?.all fun x => isBlank x || isBreak x

def atSpace (c : Cursor) : Bool := c.spacedAfter 0

def atTriple (c : Cursor) (x : Char) : Bool :=
  c.mark.column == 0 && c.rest.take 3 == [x, x, x] && c.spacedAfter 3

def atDocumentIndicator (c : Cursor) : Bool := c.atTriple '-' || c.atTriple '.'

def restOfLine? (c : Cursor) : Option Cursor := do
  let c := c.skipWhile isBlank
  let c := if c.sees '#' then c.skipWhile (!isBreak ·) else c
  if c.endsOr isBreak then some (← c.ask? 2).skipLineEnd else none

end Cursor

end PolicyDiagram.Yaml
