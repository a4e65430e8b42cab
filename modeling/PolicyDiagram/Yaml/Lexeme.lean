import PolicyDiagram.Text.Quoted
import PolicyDiagram.Yaml.Token

/-!
The tokens that span several characters: directives, anchors, tags and scalars. Each function starts at the
first character of the token and fails if no such token follows. The number of characters left bounds the fuel
of every loop; texts that are still being read are in reverse.
-/

namespace PolicyDiagram.Yaml.Cursor

/-! ## Tags -/

def isTagChar (verbatim : Bool) (c : Char) : Bool :=
  isNameChar c || ";/?:@&=+$.%!~*'()".toList.contains c || (verbatim && ",[]".toList.contains c)

def percentByte? (c : Cursor) : Option UInt8 :=
  match c.rest with
  | '%' :: a :: b :: _ => (Text.hexNumber? [a, b]).map Nat.toUInt8
  | _ => none

def continuation? (c : Cursor) (bytes : List UInt8) : Nat → Option (List UInt8 × Cursor)
  | 0 => some (bytes, c)
  | count + 1 => do
    let byte ← c.percentByte?
    if byte &&& 0xC0 = 0x80 then (c.skip 3).continuation? (byte :: bytes) count else none

def escapedChar? (c : Cursor) (bytes : List UInt8) : Option (List UInt8 × Cursor) := do
  let first ← c.percentByte?
  let width ← Text.encodedWidth? first
  (c.skip 3).continuation? (first :: bytes) (width - 1)

def tagBytes? (verbatim : Bool) (c : Cursor) (bytes : List UInt8) :
    Nat → Option (List UInt8 × Cursor)
  | 0 => some (bytes, c)
  | fuel + 1 =>
    match c.peek? with
    | some '%' => do
      let (bytes, next) ← c.escapedChar? bytes
      next.tagBytes? verbatim bytes fuel
    | some x =>
      if isTagChar verbatim x then (c.skip 1).tagBytes? verbatim (x.toUInt8 :: bytes) fuel
      else some (bytes, c)
    | none => some (bytes, c)

def tagUri? (verbatim : Bool) (before : List UInt8) (c : Cursor) : Option (Tag × Cursor) := do
  let (bytes, next) ← c.tagBytes? verbatim before.reverse (c.rest.length + 1)
  some (.part bytes.reverse, next)

def tagUriNonempty? (verbatim : Bool) (c : Cursor) : Option (Tag × Cursor) := do
  let (tag, next) ← c.tagUri? verbatim []
  if next.mark.index = c.mark.index then none else some (tag, next)

def tagHandle? (c : Cursor) : Option (String × Cursor) :=
  if c.sees '!' then
    let (name, next) := (c.skip 1).takeWhile isNameChar
    if next.sees '!' then some (String.ofList ('!' :: name ++ ['!']), next.skip 1)
    else some (String.ofList ('!' :: name), next)
  else none

def isClosedHandle (handle : String) : Bool :=
  handle.length ≥ 2 && handle.toList.getLast? == some '!'

def verbatimTag? (c : Cursor) : Option (TokenKind × Cursor) := do
  let (uri, next) ← (c.skip 2).tagUriNonempty? true
  if next.sees '>' then some (.tag "" uri, next.skip 1) else none

/-- A single mark alone, or before no more than a zero byte, is the bare tag. -/
def shortTag? (c : Cursor) : Option (TokenKind × Cursor) := do
  let (handle, next) ← c.tagHandle?
  if isClosedHandle handle then
    let (suffix, next) ← next.tagUriNonempty? false
    some (.tag handle suffix, next)
  else
    let (suffix, next) ← next.tagUri? false ((handle.toList.drop 1).map Char.toUInt8)
    some (if suffix.bytes.isEmpty then .tag "" .bare else .tag "!" suffix, next)

def tag? (inFlow : Bool) (c : Cursor) : Option (TokenKind × Cursor) := do
  let (kind, next) ← if (c.skip 1).sees '<' then c.verbatimTag? else c.shortTag?
  let next ← next.ask? 1
  if next.atSpace || (inFlow && next.sees ',') then some (kind, next) else none

/-! ## Anchors and directives -/

def anchorName? (c : Cursor) : Option (String × Cursor) := do
  let (name, next) := (c.skip 1).takeWhile isNameChar
  let next ← next.ask? 1
  if !name.isEmpty && (next.atSpace || next.seesAny fun x => "?:,]\x7d%@`".toList.contains x) then
    some (String.ofList name, next)
  else none

def versionNumber? (c : Cursor) : Option (Nat × Cursor) :=
  let (digits, next) := c.takeWhile Char.isDigit
  if digits.isEmpty || 9 < digits.length then none
  else some (digits.foldl (fun n d => 10 * n + (d.toNat - '0'.toNat)) 0, next)

def version? (c : Cursor) : Option (TokenKind × Cursor) := do
  let (major, next) ← (c.skipWhile isBlank).versionNumber?
  if next.sees '.' then
    let (minor, next) ← (next.skip 1).versionNumber?
    some (.versionDirective major minor, next)
  else none

def tagExpansion? (c : Cursor) : Option (TokenKind × Cursor) := do
  let (handle, next) ← (c.skipWhile isBlank).tagHandle?
  if ¬(isClosedHandle handle ∨ handle = "!") ∨ ¬next.seesAny isBlank then none
  else
    let (uri, next) ← (next.skipWhile isBlank).tagUriNonempty? true
    if next.atSpace then some (.tagDirective handle uri, next) else none

def directive? (c : Cursor) : Option (Token × Cursor) := do
  let (name, next) := (c.skip 1).takeWhile isNameChar
  if name.isEmpty ∨ ¬next.atSpace then none
  else
    let (kind, next) ←
      match String.ofList name with
      | "YAML" => next.version?
      | "TAG" => next.tagExpansion?
      | _ => none
    let line ← next.restOfLine?
    some (⟨kind, c.mark, next.mark⟩, line)

/-! ## Scalars that fold lines -/

/-- Blanks, or line ends with blanks around them, between two words of a scalar. -/
structure Gap where
  folded : Bool
  blanks : List Char
  first : Option Char
  more : List Char
deriving Repr, Inhabited

def Gap.none : Gap := ⟨false, [], .none, []⟩

/-- A single line end becomes a blank, and of several the first is dropped. -/
def Gap.text (gap : Gap) : List Char :=
  if gap.folded then
    if gap.first = some '\n' then (if gap.more.isEmpty then [' '] else gap.more)
    else gap.more ++ gap.first.toList
  else gap.blanks

/-- Within a gap of several lines a tab before the column `tabLimit` is refused. -/
def gap? (tabLimit : Int) (c : Cursor) (gap : Gap) : Nat → Option (Gap × Cursor)
  | 0 => some (gap, c)
  | fuel + 1 =>
    if c.seesAny isBlank then
      if gap.folded && c.mark.column < tabLimit && c.sees '\t' then none
      else
        let blanks := if gap.folded then gap.blanks else c.rest.take 1 ++ gap.blanks
        (c.skip 1).gap? tabLimit { gap with blanks } fuel
    else
      match c.lineEnd? with
      | some (x, next) =>
        if gap.folded then next.gap? tabLimit { gap with more := x :: gap.more } fuel
        else next.gap? tabLimit ⟨true, [], some x, []⟩ fuel
      | none => (c.ask? 1).map (gap, ·)

def letterEscape? (c : Char) : Option Char :=
  match c with
  | '0' => some '\x00'
  | 'a' => some '\x07'
  | 'b' => some '\x08'
  | 't' | '\t' => some '\t'
  | 'n' => some '\n'
  | 'v' => some '\x0b'
  | 'f' => some '\x0c'
  | 'r' => some '\r'
  | 'e' => some '\x1b'
  | ' ' | '"' | '/' | '\\' => some c
  | 'N' => some nextLine
  | '_' => some '\xa0'
  | 'L' => some lineSeparator
  | 'P' => some paragraphSeparator
  | _ => none

def numericEscape? (c : Char) : Option Nat :=
  match c with
  | 'x' => some 2
  | 'u' => some 4
  | 'U' => some 8
  | _ => none

def escape? (c : Cursor) : Option (Char × Cursor) := do
  let letter ← (c.skip 1).peek?
  match letterEscape? letter with
  | some x => some (x, c.skip 2)
  | none =>
    let count ← numericEscape? letter
    let digits := (c.rest.drop 2).take count
    let code ← Text.hexNumber? digits
    if digits.length = count ∧ code.isValidChar then some (.ofNat code, c.skip (2 + count)) else none

/-- Says also whether the word ends in an escaped line end. -/
def quotedWord? (single : Bool) (c : Cursor) (text : List Char) :
    Nat → Option (List Char × Bool × Cursor)
  | 0 => some (text, false, c)
  | fuel + 1 => do
    let c ← c.ask? 2
    if c.atSpace then some (text, false, c)
    else if single then
      if c.rest.take 2 == ['\'', '\''] then (c.skip 2).quotedWord? single ('\'' :: text) fuel
      else if c.sees '\'' then some (text, false, c)
      else (c.skip 1).quotedWord? single (c.rest.take 1 ++ text) fuel
    else if c.sees '"' then some (text, false, c)
    else if c.sees '\\' then
      match (c.skip 1).lineEnd? with
      | some (_, next) => some (text, true, next)
      | none =>
        let (x, next) ← c.escape?
        next.quotedWord? single (x :: text) fuel
    else (c.skip 1).quotedWord? single (c.rest.take 1 ++ text) fuel

def quotedBody? (single : Bool) (c : Cursor) (text : List Char) : Nat → Option (List Char × Cursor)
  | 0 => none
  | fuel + 1 => do
    let c ← c.ask? 4
    if c.atDocumentIndicator ∨ c.rest.isEmpty then none
    else
      let (text, escaped, next) ← c.quotedWord? single text (c.rest.length + 1)
      if next.sees (if single then '\'' else '"') then some (text, next.skip 1)
      else
        let start := if escaped then { Gap.none with folded := true } else Gap.none
        let (gap, next) ← next.gap? 0 start (next.rest.length + 1)
        next.quotedBody? single (gap.text ++ text) fuel

def quoted? (single : Bool) (c : Cursor) : Option (Token × Cursor) := do
  let (text, next) ← (c.skip 1).quotedBody? single [] (c.rest.length + 1)
  let style := if single then .singleQuoted else .doubleQuoted
  some (⟨.scalar (String.ofList text.reverse) style, c.mark, next.mark⟩, next)

def endsPlain (inFlow : Bool) (c : Cursor) : Bool :=
  (c.sees ':' && c.spacedAfter 1) || (inFlow && c.seesAny fun x => ",[]\x7b\x7d".toList.contains x)

structure PlainText where
  text : List Char
  stop : Mark
  pending : Gap

def plainWord? (inFlow : Bool) (c : Cursor) (plain : PlainText) : Nat → Option (PlainText × Cursor)
  | 0 => some (plain, c)
  | fuel + 1 => do
    let c ← c.ask? 2
    if c.atSpace then some (plain, c)
    else if inFlow && c.sees ':' && (c.skip 1).seesAny fun x => ",?[]\x7b\x7d".toList.contains x then none
    else if c.endsPlain inFlow then some (plain, c)
    else
      let next := c.skip 1
      let text := c.rest.take 1 ++ plain.pending.text ++ plain.text
      next.plainWord? inFlow ⟨text, next.mark, Gap.none⟩ fuel

/-- Outside brackets the scalar ends at a line that is indented less than `indent`. -/
def plainBody? (inFlow : Bool) (indent : Int) (c : Cursor) (plain : PlainText) :
    Nat → Option (PlainText × Cursor)
  | 0 => some (plain, c)
  | fuel + 1 => do
    let c ← c.ask? 4
    if c.atDocumentIndicator ∨ c.sees '#' then some (plain, c)
    else
      let (plain, next) ← c.plainWord? inFlow plain (c.rest.length + 1)
      if next.seesAny fun x => isBlank x || isBreak x then
        let (pending, next) ← next.gap? indent Gap.none (next.rest.length + 1)
        let plain := { plain with pending }
        if ¬inFlow ∧ next.mark.column < indent then some (plain, next)
        else next.plainBody? inFlow indent plain fuel
      else some (plain, next)

def plain? (inFlow : Bool) (indent : Int) (c : Cursor) : Option (Token × Bool × Cursor) := do
  let (plain, next) ← c.plainBody? inFlow indent ⟨[], c.mark, Gap.none⟩ (c.rest.length + 1)
  let text := String.ofList plain.text.reverse
  some (⟨.scalar text .plain, c.mark, plain.stop⟩, plain.pending.folded, next)

/-! ## Block scalars -/

inductive Chomping where
  | strip
  | clip
  | keep
deriving DecidableEq, Repr

def chomping? (c : Cursor) : Option (Chomping × Cursor) :=
  match c.peek? with
  | some '+' => some (.keep, c.skip 1)
  | some '-' => some (.strip, c.skip 1)
  | _ => none

def indentation? (c : Cursor) : Option (Nat × Cursor) :=
  match c.peek? with
  | some d =>
    if d = '0' then none
    else if d.isDigit then some (d.toNat - '0'.toNat, c.skip 1)
    else some (0, c)
  | none => some (0, c)

def blockHeader? (c : Cursor) : Option (Chomping × Nat × Cursor) := do
  match c.chomping? with
  | some (chomping, next) =>
    let (indentation, next) ← next.indentation?
    some (chomping, indentation, next)
  | none =>
    let (indentation, next) ← c.indentation?
    if indentation = 0 then some (.clip, 0, next)
    else
      match next.chomping? with
      | some (chomping, next) => some (chomping, indentation, next)
      | none => some (.clip, indentation, next)

/-- Gives the line ends, and the widest indentation on the way. A tab must not stand in the indentation; zero
stands for one not yet known. -/
def emptyLines? (indent : Nat) (c : Cursor) (breaks : List Char) (widest : Nat) :
    Nat → Option (List Char × Nat × Cursor)
  | 0 => some (breaks, widest, c)
  | fuel + 1 =>
    let spaces := (c.rest.takeWhile (· == ' ')).length
    let c := c.skip (if indent = 0 then spaces else min spaces (indent - c.mark.column))
    let widest := max widest c.mark.column
    if (indent = 0 ∨ c.mark.column < indent) ∧ c.sees '\t' then none
    else
      match c.lineEnd? with
      | some (x, next) => next.emptyLines? indent (x :: breaks) widest fuel
      | none => (c.ask? 1).map (breaks, widest, ·)

/-- The text, the line end behind its last line and those of the empty lines behind that, and whether the last
line started with a blank. -/
structure BlockText where
  text : List Char
  last : List Char
  empty : List Char
  blank : Bool

/-- In a folded scalar a line end between two lines without a leading blank becomes a blank, or is dropped
before empty lines. -/
def BlockText.joined (literal blank : Bool) (block : BlockText) : List Char :=
  if ¬literal ∧ block.last = ['\n'] ∧ ¬block.blank ∧ ¬blank then
    block.empty ++ (if block.empty.isEmpty then [' '] else []) ++ block.text
  else block.empty ++ block.last ++ block.text

def blockLines? (literal : Bool) (indent : Nat) (c : Cursor) (block : BlockText) (stop : Mark) :
    Nat → Option (BlockText × Mark × Cursor)
  | 0 => some (block, stop, c)
  | fuel + 1 => do
    if c.mark.column ≠ indent ∨ c.rest.isEmpty then some (block, stop, c)
    else
      let blank := c.seesAny isBlank
      let (line, next) := c.takeWhile (!isBreak ·)
      let text := line.reverse ++ block.joined literal blank
      let (last, next) :=
        match next.lineEnd? with
        | some (x, next) => ([x], next)
        | none => ([], next)
      let (empty, _, after) ← next.emptyLines? indent [] 0 (next.rest.length + 1)
      after.blockLines? literal indent ⟨text, last, empty, blank⟩ next.mark fuel

def block? (literal : Bool) (parent : Int) (c : Cursor) : Option (Token × Cursor) := do
  let (chomping, indicated, next) ← (c.skip 1).blockHeader?
  let next ← next.restOfLine?
  let given := if indicated = 0 then 0 else (max parent 0).toNat + indicated
  let (empty, widest, first) ← next.emptyLines? given [] 0 (next.rest.length + 1)
  let indent := if given = 0 then max (max widest (parent + 1).toNat) 1 else given
  let (block, stop, after) ←
    first.blockLines? literal indent ⟨[], [], empty, false⟩ next.mark (first.rest.length + 1)
  let text :=
    match chomping with
    | .strip => block.text
    | .clip => block.last ++ block.text
    | .keep => block.empty ++ block.last ++ block.text
  let style := if literal then .literal else .folded
  some (⟨.scalar (String.ofList text.reverse) style, c.mark, stop⟩, after)

end PolicyDiagram.Yaml.Cursor
