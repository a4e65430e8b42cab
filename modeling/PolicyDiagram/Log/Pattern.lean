import PolicyDiagram.Text.Quoted

/-!
Patterns for the values of fields. A value is compared only where a span records it, so what matters here is
whether a text is a pattern at all. The text comes from between braces and commas; what would need a closing
brace, a comma or an equals sign is malformed. Letters have no cases outside of the basic alphabet.
-/

namespace PolicyDiagram.Log

inductive PatternFault where
  | malformed
  | wordEnds
deriving DecidableEq, Repr

namespace Pattern

structure Mode where
  caseless : Bool
  scripts : Bool
  spaced : Bool
deriving DecidableEq, Repr

def skipComments (comment : Bool) : List Char → List Char
  | [] => []
  | c :: rest =>
    if comment then skipComments (c != '\n') rest
    else if Text.isSpace c then skipComments false rest
    else if c = '#' then skipComments true rest
    else c :: rest

def Mode.skip (mode : Mode) (text : List Char) : List Char :=
  if mode.spaced then skipComments false text else text

inductive Atom where
  | literal (c : Char) (byte : Bool)
  | class (negated : Bool)
  | anchor
  | wordEnd
deriving DecidableEq, Repr

def digits? (mode : Mode) (text : List Char) (value : Nat) : Nat → Option (Nat × List Char)
  | 0 => some (value, text)
  | count + 1 =>
    match mode.skip text with
    | [] => none
    | c :: rest => do digits? mode rest (16 * value + (← Text.hexValue? c)) count

def numbered? (mode : Mode) (text : List Char) (count : Nat) : Option (Atom × List Char) := do
  let (code, rest) ← digits? mode text 0 count
  if code.isValidChar then some (.literal (.ofNat code) (count = 2), rest) else none

def escape? (mode : Mode) : List Char → Option (Atom × List Char)
  | [] => none
  | c :: rest =>
    match c with
    | 'x' => numbered? mode rest 2
    | 'u' => numbered? mode rest 4
    | 'U' => numbered? mode rest 8
    | 'd' | 's' | 'w' => some (.class false, rest)
    | 'D' | 'S' | 'W' => some (.class true, rest)
    | 'a' => some (.literal '\x07' false, rest)
    | 'f' => some (.literal '\x0c' false, rest)
    | 't' => some (.literal '\t' false, rest)
    | 'n' => some (.literal '\n' false, rest)
    | 'r' => some (.literal '\r' false, rest)
    | 'v' => some (.literal '\x0b' false, rest)
    | 'A' | 'z' => some (.anchor, rest)
    | 'b' | 'B' | '<' | '>' => some (.wordEnd, rest)
    | _ => if c.toNat < 128 ∧ !c.isAlphanum then some (.literal c false, rest) else none

/-! ## Classes -/

def Mode.knowsInClass (mode : Mode) : Atom → Bool
  | .literal c _ => if mode.scripts then !mode.caseless else c.toNat < 128
  | .class negated => !mode.scripts && !negated
  | .anchor | .wordEnd => false

/-- How many items a class has, how deep they are, and how deep the operand before the last operator is. -/
structure ClassLevel where
  count : Nat
  deepest : Nat
  left : Option Nat

namespace ClassLevel

def empty : ClassLevel := ⟨0, 0, none⟩

def add (level : ClassLevel) (depth : Nat) : ClassLevel :=
  { level with count := level.count + 1, deepest := max level.deepest depth }

def depth (level : ClassLevel) : Nat :=
  let items := if level.count ≤ 1 then level.deepest else level.deepest + 1
  match level.left with
  | some left => max left items + 1
  | none => items

end ClassLevel

/-- Dashes, or a closing bracket, stand for themselves at the start of a class. -/
def leading (level : ClassLevel) : List Char → ClassLevel × List Char
  | '-' :: rest => leading (level.add 0) rest
  | ']' :: rest => if level.count = 0 then (level.add 0, rest) else (level, ']' :: rest)
  | rest => (level, rest)

/-- All but some characters would be too many for a pattern about bytes. -/
def openClass? (mode : Mode) (text : List Char) : Option (ClassLevel × List Char) :=
  let (negated, rest) :=
    match mode.skip text with
    | '^' :: rest => (true, mode.skip rest)
    | rest => (false, rest)
  let (level, rest) := leading .empty rest
  if (negated ∧ !mode.scripts) ∨ (level.count ≠ 0 ∧ !mode.knowsInClass (.literal '-' false)) then none
  else some (level, rest)

def classNames : List String :=
  ["alnum", "alpha", "ascii", "blank", "cntrl", "digit", "graph", "lower", "print", "punct", "space", "upper",
    "word", "xdigit"]

def namedClass? : List Char → Option (Bool × List Char)
  | ':' :: rest =>
    let (negated, rest) :=
      match rest with
      | '^' :: rest => (true, rest)
      | rest => (false, rest)
    match rest.dropWhile (· != ':') with
    | ':' :: ']' :: after =>
      if classNames.contains (String.ofList (rest.takeWhile (· != ':'))) then some (negated, after) else none
    | _ => none
  | _ => none

def classAtom? (mode : Mode) : List Char → Option (Atom × List Char)
  | [] => none
  | '\\' :: rest => escape? mode rest
  | c :: rest => some (.literal c false, rest)

def classItem? (mode : Mode) (text : List Char) : Option (List Char) := do
  let (first, rest) ← classAtom? mode text
  if !mode.knowsInClass first then none
  else
    match mode.skip rest with
    | '-' :: after =>
      let after := mode.skip after
      if after.head? = some ']' ∨ after.head? = some '-' then some ('-' :: after)
      else
        let (last, rest) ← classAtom? mode after
        match first, last with
        | .literal start _, .literal stop _ =>
          if mode.knowsInClass last ∧ start.toNat ≤ stop.toNat then some rest else none
        | _, _ => none
    | rest => some rest

def class? (mode : Mode) (level : ClassLevel) (outer : List ClassLevel) (text : List Char) :
    Nat → Option (Nat × List Char)
  | 0 => none
  | fuel + 1 =>
    match mode.skip text with
    | [] => none
    | '[' :: rest =>
      match namedClass? rest with
      | some (negated, after) =>
        if if mode.scripts then mode.caseless else negated then none
        else class? mode (level.add 0) outer after fuel
      | none => do
        let (inner, after) ← openClass? mode rest
        class? mode inner (level :: outer) after fuel
    | ']' :: rest =>
      match outer with
      | [] => some (level.depth + 1, rest)
      | parent :: outer => class? mode (parent.add (level.depth + 1)) outer rest fuel
    | '&' :: '&' :: rest | '-' :: '-' :: rest | '~' :: '~' :: rest =>
      class? mode ⟨0, 0, some level.depth⟩ outer rest fuel
    | rest => do
      let after ← classItem? mode rest
      class? mode (level.add 0) outer after fuel

/-! ## Sequences and groups -/

/-- How many parts the last alternative has, how deep they are, how deep the very last one is if it may be
repeated, and how deep the alternatives before are. -/
structure Level where
  count : Nat
  deepest : Nat
  last : Option Nat
  before : Option Nat

namespace Level

def empty : Level := ⟨0, 0, none, none⟩

def add (level : Level) (depth : Nat) : Level :=
  { level with count := level.count + 1, deepest := max level.deepest depth, last := some depth }

def addSetting (level : Level) : Level := { level with count := level.count + 1, last := none }

def repeat? (level : Level) : Option Level :=
  level.last.map fun depth =>
    { level with deepest := max level.deepest (depth + 1), last := some (depth + 1) }

def sequenceDepth (level : Level) : Nat :=
  if level.count ≤ 1 then level.deepest else level.deepest + 1

def bar (level : Level) : Level :=
  ⟨0, 0, none, some (max (level.before.getD 0) level.sequenceDepth)⟩

def depth (level : Level) : Nat :=
  match level.before with
  | some before => max before level.sequenceDepth + 1
  | none => level.sequenceDepth

end Level

structure Reader where
  mode : Mode
  level : Level
  groups : List (Mode × Level)
  names : List String
  wordEnds : Bool

/-- Each setting may be named once, and those behind a dash are taken back. -/
def settings? (mode : Mode) (seen : List Char) : List Char → Option (Mode × List Char × Bool)
  | [] => none
  | c :: rest =>
    if c = ':' ∨ c = ')' then
      if seen.head? = some '-' then none else some (mode, c :: rest, !seen.isEmpty)
    else if seen.contains c then none
    else
      let on := !seen.contains '-'
      match c with
      | 'i' => settings? { mode with caseless := on } (c :: seen) rest
      | 'u' => settings? { mode with scripts := on } (c :: seen) rest
      | 'x' => settings? { mode with spaced := on } (c :: seen) rest
      | 'm' | 's' | 'U' | 'R' | '-' => settings? mode (c :: seen) rest
      | _ => none

def groupName? (text : List Char) : Option (String × List Char) :=
  let name := text.takeWhile (· != '>')
  let fits (c : Char) : Bool := Text.isAlphanumeric c || "_.[]".toList.contains c
  match name, text.dropWhile (· != '>') with
  | first :: others, '>' :: rest =>
    if (first = '_' ∨ Text.isAlphabetic first) ∧ others.all fits then some (String.ofList name, rest) else none
  | _, _ => none

def Reader.openGroup (r : Reader) (mode : Mode) : Reader :=
  { r with mode, level := .empty, groups := (r.mode, r.level) :: r.groups }

def Reader.namedGroup? (r : Reader) (text : List Char) : Option (Reader × List Char) := do
  let (name, rest) ← groupName? text
  if r.names.contains name then none
  else some ({ r with names := name :: r.names }.openGroup r.mode, rest)

/-- Groups that only look ahead or back are refused. -/
def Reader.group? (r : Reader) (text : List Char) : Option (Reader × List Char) :=
  match r.mode.skip text with
  | '?' :: '<' :: '!' :: _ | '?' :: '<' :: '=' :: _ => none
  | '?' :: 'P' :: '<' :: rest | '?' :: '<' :: rest => r.namedGroup? rest
  | '?' :: rest =>
    match settings? r.mode [] rest with
    | some (mode, ':' :: rest, _) => some (r.openGroup mode, rest)
    | some (mode, _ :: rest, true) => some ({ r with mode, level := r.level.addSetting }, rest)
    | _ => none
  | rest => some (r.openGroup r.mode, rest)

def Reader.closeGroup? (r : Reader) : Option Reader :=
  match r.groups with
  | (mode, level) :: groups => some { r with mode, level := level.add (r.level.depth + 1), groups }
  | [] => none

def Reader.addAtom? (r : Reader) (atom : Atom) : Option Reader :=
  let r := { r with level := r.level.add 0 }
  match atom with
  | .literal c byte =>
    if if r.mode.scripts then r.mode.caseless else byte && 128 ≤ c.toNat then none else some r
  | .class negated => if r.mode.scripts ∨ negated then none else some r
  | .anchor => some r
  | .wordEnd => some { r with wordEnds := r.wordEnds || r.mode.scripts }

def Reader.step? (r : Reader) (c : Char) (rest : List Char) : Option (Reader × List Char) :=
  match c with
  | '(' => r.group? rest
  | ')' => r.closeGroup?.map (·, rest)
  | '|' => some ({ r with level := r.level.bar }, rest)
  | '[' => do
    let (level, inner) ← openClass? r.mode rest
    let (depth, after) ← class? r.mode level [] inner (inner.length + 1)
    some ({ r with level := r.level.add depth }, after)
  | '?' | '*' | '+' => do
    let level ← r.level.repeat?
    some ({ r with level }, if rest.head? = some '?' then rest.drop 1 else rest)
  | '\x7b' => none
  | '\\' => do
    let (atom, after) ← escape? r.mode rest
    some (← r.addAtom? atom, after)
  | '.' => if r.mode.scripts then some ({ r with level := r.level.add 0 }, rest) else none
  | '^' | '$' => some ({ r with level := r.level.add 0 }, rest)
  | _ => (r.addAtom? (.literal c false)).map (·, rest)

def Reader.run? (r : Reader) (text : List Char) : Nat → Option Reader
  | 0 => none
  | fuel + 1 =>
    match r.mode.skip text with
    | [] => if r.groups.isEmpty then some r else none
    | c :: rest => do
      let (next, after) ← r.step? c rest
      next.run? after fuel

def depthLimit : Nat := 250

def Reader.start : Reader := ⟨⟨false, true, false⟩, .empty, [], [], false⟩

def fault? (text : List Char) : Option PatternFault :=
  match Reader.start.run? text (text.length + 1) with
  | some r =>
    if depthLimit < r.level.depth then some .malformed else if r.wordEnds then some .wordEnds else none
  | none => some .malformed

end Pattern

end PolicyDiagram.Log
