import PolicyDiagram.Yaml.Lexer

/-!
From tokens to events: the grammar of YAML. A document is a node; a node is an alias, a scalar, a sequence
or a mapping, with an anchor and a tag before it. What is left out between indicators is an empty scalar.
-/

namespace PolicyDiagram.Yaml

structure Scalar where
  text : String
  style : Style
  tag : Option Tag
deriving DecidableEq, Repr

inductive EventKind where
  | documentStart
  | documentEnd
  | streamEnd
  | alias (name : String)
  | scalar (anchor : Option String) (scalar : Scalar)
  | sequenceStart (anchor : Option String) (tag : Option Tag)
  | sequenceEnd
  | mappingStart (anchor : Option String) (tag : Option Tag)
  | mappingEnd
deriving DecidableEq, Repr

structure Event where
  kind : EventKind
  mark : Mark
deriving DecidableEq, Repr

inductive Expecting where
  | document (implicit : Bool)
  | content
  | documentEnd
  | blockNode
  | sequenceEntry
  | indentlessEntry
  | mappingKey
  | mappingValue
  | flowEntry (first : Bool)
  | pairKey
  | pairValue
  | pairEnd
  | flowKey (first : Bool)
  | flowValue (skipped : Bool)
  | nothing
deriving DecidableEq, Repr

/-- The tokens that are left, what is expected now and after the open nodes, and the tag handles. -/
structure Grammar where
  tokens : List Token
  expecting : Expecting
  pending : List Expecting
  handles : List (String × Tag)

namespace Grammar

def start (tokens : List Token) : Grammar := ⟨tokens, .document true, [], []⟩

def next (g : Grammar) : Grammar := { g with tokens := g.tokens.drop 1 }

def pop (g : Grammar) : Grammar :=
  { g with expecting := g.pending.head?.getD .nothing, pending := g.pending.drop 1 }

def push (g : Grammar) (after : Expecting) : Grammar := { g with pending := after :: g.pending }

def expect (g : Grammar) (expecting : Expecting) : Grammar := { g with expecting }

def emptyScalar (g : Grammar) (mark : Mark) : Event × Grammar :=
  (⟨.scalar none ⟨"", .plain, none⟩, mark⟩, g)

structure Properties where
  anchor : Option String
  tag : Option (String × Tag)
  start : Option Mark

def properties (g : Grammar) : Properties × Grammar :=
  match g.tokens with
  | ⟨.anchor name, start, _⟩ :: ⟨.tag handle suffix, _, _⟩ :: rest =>
    (⟨some name, some (handle, suffix), some start⟩, { g with tokens := rest })
  | ⟨.tag handle suffix, start, _⟩ :: ⟨.anchor name, _, _⟩ :: rest =>
    (⟨some name, some (handle, suffix), some start⟩, { g with tokens := rest })
  | ⟨.anchor name, start, _⟩ :: rest => (⟨some name, none, some start⟩, { g with tokens := rest })
  | ⟨.tag handle suffix, start, _⟩ :: rest =>
    (⟨none, some (handle, suffix), some start⟩, { g with tokens := rest })
  | _ => (⟨none, none, none⟩, g)

def resolveTag? (g : Grammar) : Option (String × Tag) → Option (Option Tag)
  | none => some none
  | some ("", suffix) => some (some suffix)
  | some (handle, suffix) => (g.handles.lookup handle).map fun expansion => some (expansion.append suffix)

/-- Blocks may open only where `block` says so, and a sequence without indentation only where `indentless`
does. -/
def node? (g : Grammar) (block indentless : Bool) : Option (Event × Grammar) := do
  match g.tokens.head? with
  | some ⟨.alias name, start, _⟩ => some (⟨.alias name, start⟩, g.next.pop)
  | _ =>
    let (props, g) := g.properties
    let token ← g.tokens.head?
    let mark := props.start.getD token.start
    let tag ← g.resolveTag? props.tag
    match token.kind with
    | .scalar text style =>
      some (⟨.scalar props.anchor ⟨text, style, tag⟩, mark⟩, g.next.pop)
    | .flowSequenceStart =>
      some (⟨.sequenceStart props.anchor tag, mark⟩, g.next.expect (.flowEntry true))
    | .flowMappingStart =>
      some (⟨.mappingStart props.anchor tag, mark⟩, g.next.expect (.flowKey true))
    | kind =>
      if indentless ∧ kind = .blockEntry then
        some (⟨.sequenceStart props.anchor tag, mark⟩, g.expect .indentlessEntry)
      else if block ∧ kind = .blockSequenceStart then
        some (⟨.sequenceStart props.anchor tag, mark⟩, g.next.expect .sequenceEntry)
      else if block ∧ kind = .blockMappingStart then
        some (⟨.mappingStart props.anchor tag, mark⟩, g.next.expect .mappingKey)
      else if props.start.isSome then
        some (⟨.scalar props.anchor ⟨"", .plain, tag⟩, mark⟩, g.pop)
      else none

/-- At most one version, which must be known, and no handle twice. -/
def directives? (versioned : Bool) (handles : List (String × Tag)) :
    List Token → Option (List (String × Tag) × List Token)
  | ⟨.versionDirective major minor, _, _⟩ :: rest =>
    if versioned ∨ major ≠ 1 ∨ (minor ≠ 1 ∧ minor ≠ 2) then none
    else directives? true handles rest
  | ⟨.tagDirective handle expansion, _, _⟩ :: rest =>
    if (handles.lookup handle).isSome then none
    else directives? versioned (handles ++ [(handle, expansion)]) rest
  | [] => none
  | tokens => some (handles, tokens)

def standardHandles : List (String × Tag) := [("!", .bare), ("!!", .ofText "tag:yaml.org,2002:")]

/-- Only the first document may lack an explicit start. -/
def document? (g : Grammar) (implicit : Bool) : Option (Event × Grammar) := do
  let tokens := if implicit then g.tokens else g.tokens.dropWhile (·.kind = .documentEnd)
  let token ← tokens.head?
  if token.kind = .streamEnd then
    some (⟨.streamEnd, token.start⟩, { g with tokens }.expect .nothing)
  else
    let (handles, tokens) ← directives? false [] tokens
    let g : Grammar := { g with tokens, handles := handles ++ standardHandles }
    let first ← tokens.head?
    if first.kind = .documentStart then
      some (⟨.documentStart, token.start⟩, (g.next.push .documentEnd).expect .content)
    else if implicit ∧ token = first then
      some (⟨.documentStart, token.start⟩, (g.push .documentEnd).expect .blockNode)
    else none

def endsDocument : TokenKind → Bool
  | .versionDirective .. | .tagDirective .. | .documentStart | .documentEnd | .streamEnd => true
  | _ => false

def sequenceEntry? (g : Grammar) : Option (Event × Grammar) := do
  let token ← g.tokens.head?
  match token.kind with
  | .blockEntry =>
    let g := g.next
    let follower ← g.tokens.head?
    if follower.kind = .blockEntry ∨ follower.kind = .blockEnd then
      some ((g.expect .sequenceEntry).emptyScalar token.stop)
    else (g.push .sequenceEntry).node? true false
  | .blockEnd => some (⟨.sequenceEnd, token.start⟩, g.next.pop)
  | _ => none

def endsEntry (kind : TokenKind) : Bool := kind = .key || kind = .value || kind = .blockEnd

def indentlessEntry? (g : Grammar) : Option (Event × Grammar) := do
  let token ← g.tokens.head?
  if token.kind = .blockEntry then
    let g := g.next
    let follower ← g.tokens.head?
    if follower.kind = .blockEntry ∨ endsEntry follower.kind then
      some ((g.expect .indentlessEntry).emptyScalar token.stop)
    else (g.push .indentlessEntry).node? true false
  else some (⟨.sequenceEnd, token.start⟩, g.pop)

def mappingKey? (g : Grammar) : Option (Event × Grammar) := do
  let token ← g.tokens.head?
  match token.kind with
  | .key =>
    let g := g.next
    let follower ← g.tokens.head?
    if endsEntry follower.kind then some ((g.expect .mappingValue).emptyScalar token.stop)
    else (g.push .mappingValue).node? true true
  | .blockEnd => some (⟨.mappingEnd, token.start⟩, g.next.pop)
  | _ => none

def mappingValue? (g : Grammar) : Option (Event × Grammar) := do
  let token ← g.tokens.head?
  if token.kind = .value then
    let g := g.next
    let follower ← g.tokens.head?
    if endsEntry follower.kind then some ((g.expect .mappingKey).emptyScalar token.stop)
    else (g.push .mappingKey).node? true true
  else some ((g.expect .mappingKey).emptyScalar token.start)

def comma? (g : Grammar) (first : Bool) (close : TokenKind) : Option Grammar := do
  let token ← g.tokens.head?
  if first ∨ token.kind = close then some g
  else if token.kind = .flowEntry then some g.next
  else none

def flowEntry? (g : Grammar) (first : Bool) : Option (Event × Grammar) := do
  let g ← g.comma? first .flowSequenceEnd
  let token ← g.tokens.head?
  if token.kind = .flowSequenceEnd then some (⟨.sequenceEnd, token.start⟩, g.next.pop)
  else if token.kind = .key then
    some (⟨.mappingStart none none, token.start⟩, g.next.expect .pairKey)
  else (g.push (.flowEntry false)).node? false false

def endsItem (kind : TokenKind) : Bool := kind = .flowEntry || kind = .flowSequenceEnd

/-- A token that leaves the key out is used up. -/
def pairKey? (g : Grammar) : Option (Event × Grammar) := do
  let token ← g.tokens.head?
  if token.kind = .value ∨ endsItem token.kind then
    some ((g.next.expect .pairValue).emptyScalar token.stop)
  else (g.push .pairValue).node? false false

def pairValue? (g : Grammar) : Option (Event × Grammar) := do
  let token ← g.tokens.head?
  if token.kind = .value then
    let g := g.next
    let follower ← g.tokens.head?
    if endsItem follower.kind then some ((g.expect .pairEnd).emptyScalar follower.start)
    else (g.push .pairEnd).node? false false
  else some ((g.expect .pairEnd).emptyScalar token.start)

def pairEnd? (g : Grammar) : Option (Event × Grammar) := do
  let token ← g.tokens.head?
  some (⟨.mappingEnd, token.start⟩, g.expect (.flowEntry false))

def endsFlowEntry (kind : TokenKind) : Bool := kind = .flowEntry || kind = .flowMappingEnd

/-- A node that no colon follows is a key without a value. -/
def flowKey? (g : Grammar) (first : Bool) : Option (Event × Grammar) := do
  let g ← g.comma? first .flowMappingEnd
  let token ← g.tokens.head?
  if token.kind = .flowMappingEnd then some (⟨.mappingEnd, token.start⟩, g.next.pop)
  else if token.kind = .key then
    let g := g.next
    let follower ← g.tokens.head?
    if follower.kind = .value ∨ endsFlowEntry follower.kind then
      some ((g.expect (.flowValue false)).emptyScalar follower.start)
    else (g.push (.flowValue false)).node? false false
  else (g.push (.flowValue true)).node? false false

def flowValue? (g : Grammar) (skipped : Bool) : Option (Event × Grammar) := do
  let token ← g.tokens.head?
  if token.kind = .value ∧ ¬skipped then
    let g := g.next
    let follower ← g.tokens.head?
    if endsFlowEntry follower.kind then
      some ((g.expect (.flowKey false)).emptyScalar follower.start)
    else (g.push (.flowKey false)).node? false false
  else some ((g.expect (.flowKey false)).emptyScalar token.start)

def documentEnd? (g : Grammar) : Option (Event × Grammar) := do
  let token ← g.tokens.head?
  let g := if token.kind = .documentEnd then g.next else g
  some (⟨.documentEnd, token.start⟩, { g with handles := [] }.expect (.document false))

def content? (g : Grammar) : Option (Event × Grammar) := do
  let token ← g.tokens.head?
  if endsDocument token.kind then some (g.pop.emptyScalar token.start)
  else g.node? true false

def event? (g : Grammar) : Option (Event × Grammar) :=
  match g.expecting with
  | .document implicit => g.document? implicit
  | .content => g.content?
  | .documentEnd => g.documentEnd?
  | .blockNode => g.node? true false
  | .sequenceEntry => g.sequenceEntry?
  | .indentlessEntry => g.indentlessEntry?
  | .mappingKey => g.mappingKey?
  | .mappingValue => g.mappingValue?
  | .flowEntry first => g.flowEntry? first
  | .pairKey => g.pairKey?
  | .pairValue => g.pairValue?
  | .pairEnd => g.pairEnd?
  | .flowKey first => g.flowKey? first
  | .flowValue skipped => g.flowValue? skipped
  | .nothing => none

def collect (g : Grammar) (events : List Event) : Nat → List Event
  | 0 => events.reverse
  | fuel + 1 =>
    match g.event? with
    | some (event, next) => next.collect (event :: events) fuel
    | none => events.reverse

end Grammar

/-- A token makes at most three events. -/
def Event.ofBytes (bytes : ByteArray) : List Event :=
  let tokens := (Stream.ofBytes bytes).tokens
  (Grammar.start tokens).collect [] (4 * tokens.length + 8)

end PolicyDiagram.Yaml
