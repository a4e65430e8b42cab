import PolicyDiagram.Data.Tree
import PolicyDiagram.Yaml.Cursor
import PolicyDiagram.Yaml.Scalar
import PolicyDiagram.Yaml.Token

/-!
YAML texts of data trees, in blocks. A text is written plain where it reads back as itself, as a literal
block if it has line feeds, and between quotes otherwise.
-/

namespace PolicyDiagram.Yaml

open Data (Tree)

/-! ## Styles -/

def isPrintable (c : Char) : Bool :=
  let n := c.toNat
  n = 0x0A || (0x20 ≤ n && n ≤ 0x7E) || (0xA0 ≤ n && n ≤ 0xFFFD && n ≠ 0xFEFF) || 0x10000 ≤ n

def hasPair (first second : Char → Bool) : List Char → Bool
  | a :: b :: rest => (first a && second b) || hasPair first second (b :: rest)
  | _ => false

def isEdged (edge : Char → Bool) (text : List Char) : Bool :=
  text.head?.any edge || text.getLast?.any edge

def partsWords (c : Char) : Bool := isBlank c || isBreak c

def leadingIndicators : List Char := "#,[]\x7b\x7d&*!|>'\"%@`".toList

/-- A dash, a question mark and a colon are indicators only where a word ends behind them. -/
def startsWithIndicator (text : List Char) : Bool :=
  text.head?.any leadingIndicators.contains ||
    (text.head?.any "-?:".toList.contains && (text.drop 1).head?.all partsWords) ||
    text.take 3 == ['-', '-', '-'] || text.take 3 == ['.', '.', '.']

def holdsIndicator (text : List Char) : Bool :=
  text.getLast? == some ':' || hasPair (· == ':') partsWords text || hasPair partsWords (· == '#') text

/-- Blanks before a line end count as characters that only escapes can write. -/
def needsEscapes (text : List Char) : Bool :=
  text.any (!isPrintable ·) || hasPair (· == ' ') isBreak text

def isMistakable (text : List Char) : Bool :=
  isZeroLed text || Meaning.ofPlain (String.ofList text) != .text

def styleFor (text : List Char) : Style :=
  if needsEscapes text then .doubleQuoted
  else if text.contains '\n' then (if text.getLast? = some ' ' then .doubleQuoted else .literal)
  else if hasPair isBreak (· == ' ') text then .doubleQuoted
  else if isMistakable text || isEdged (· == ' ') text || text.any isBreak ||
      startsWithIndicator text || holdsIndicator text then .singleQuoted
  else .plain

example : ["a b", "7", "null", "a: b", "a #b", " a", "a\nb", "a\tb"].map (styleFor ·.toList) =
    [.plain, .singleQuoted, .singleQuoted, .singleQuoted, .singleQuoted, .singleQuoted, .literal,
      .doubleQuoted] := by
  decide +kernel

/-! ## Lines -/

/-- The lines of a text with their line ends; the last one may lack its end. -/
def linesWithBreaks : List Char → List (List Char)
  | [] => []
  | c :: rest =>
    if isBreak c then [c] :: linesWithBreaks rest
    else
      match linesWithBreaks rest with
      | [] => [[c]]
      | line :: more => (c :: line) :: more

def ended (line : List Char) : List Char := if line.getLast?.any isBreak then line else line ++ ['\n']

def indent (lines : List (List Char)) : List (List Char) :=
  lines.map fun line => if line.head?.any isBreak then line else ' ' :: ' ' :: line

def hang : List (List Char) → List (List Char)
  | [] => []
  | first :: rest => first :: indent rest

def lead (text : List Char) : List (List Char) → List (List Char)
  | [] => []
  | first :: rest => (text ++ first) :: rest

/-! ## Scalars -/

def hexDigits (n : Nat) : Nat → List Char
  | 0 => []
  | count + 1 => hexDigits (n / 16) count ++ [(Nat.digitChar (n % 16)).toUpper]

def escapeLetters : List (Char × Char) :=
  [('\x00', '0'), ('\x07', 'a'), ('\x08', 'b'), ('\t', 't'), ('\n', 'n'), ('\x0b', 'v'), ('\x0c', 'f'),
   ('\r', 'r'), ('\x1b', 'e'), ('"', '"'), ('\\', '\\'), (nextLine, 'N'), (lineSeparator, 'L'),
   (paragraphSeparator, 'P')]

def escaped (c : Char) : List Char :=
  match escapeLetters.lookup c with
  | some letter => ['\\', letter]
  | none =>
    if isPrintable c then [c]
    else if c.toNat ≤ 0xFF then ['\\', 'x'] ++ hexDigits c.toNat 2
    else if c.toNat ≤ 0xFFFF then ['\\', 'u'] ++ hexDigits c.toNat 4
    else ['\\', 'U'] ++ hexDigits c.toNat 8

/-- An indentation if the text does not show it, and what to do with the line ends behind the last line. -/
def literalHeader (text : List Char) : List Char :=
  let shown := text.head?.all fun c => c != ' ' && !isBreak c
  let strips := !text.getLast?.any isBreak
  let keeps := !strips && (text.dropLast.getLast?.all isBreak)
  ['|'] ++ (if shown then [] else ['2']) ++ (if strips then ['-'] else if keeps then ['+'] else [])

def scalarLines (text : List Char) : List (List Char) :=
  match styleFor text with
  | .doubleQuoted => [['"'] ++ text.flatMap escaped ++ ['"', '\n']]
  | .literal | .folded => ended (literalHeader text) :: indent ((linesWithBreaks text).map ended)
  | .singleQuoted =>
    let quoted := text.flatMap fun c => if c = '\'' then ['\'', '\''] else [c]
    hang ((linesWithBreaks (['\''] ++ quoted ++ ['\''])).map ended)
  | .plain => [ended text]

/-! ## Trees -/

def isInline : Tree → Bool
  | .list items => items.isEmpty
  | .record entries => entries.isEmpty
  | _ => true

mutual

def treeLines : Tree → List (List Char)
  | .null => [ended "null".toList]
  | .boolean value => [ended (if value then "true" else "false").toList]
  | .natural value => [ended (toString value).toList]
  | .text value => scalarLines value.toList
  | .list items => if items.isEmpty then [ended ['[', ']']] else itemLines items
  | .record entries => if entries.isEmpty then [ended ['\x7b', '\x7d']] else entryLines entries

def itemLines : List Tree → List (List Char)
  | [] => []
  | item :: rest =>
    let lines := treeLines item
    lead ['-', ' '] (if isInline item then lines else hang lines) ++ itemLines rest

/-- A list below its key is not indented. -/
def entryLines : List (String × Tree) → List (List Char)
  | [] => []
  | (name, value) :: rest =>
    let lines := treeLines value
    let key := name.toList ++ [':']
    (if isInline value then lead (key ++ [' ']) lines
      else ended key :: (match value with
        | .list _ => lines
        | _ => indent lines)) ++ entryLines rest

end

def print (tree : Tree) : String := String.ofList (treeLines tree).flatten

end PolicyDiagram.Yaml
