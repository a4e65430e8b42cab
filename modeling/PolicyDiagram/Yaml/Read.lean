import PolicyDiagram.Yaml.Node
import PolicyDiagram.Yaml.Scalar
import PolicyDiagram.Data.Slot
import PolicyDiagram.Files.Fault

/-!
Reading values from the tree of a YAML document. Entries that a record does not know are passed over, and so are
the aliases in them.
-/

namespace PolicyDiagram.Yaml

open Data (Shape Fields Slot Partial Mismatch Found)

inductive Step where
  | key (name : String)
  | index (position : Nat)
  | unnamed
deriving DecidableEq, Repr

abbrev Trail := List Step

def Trail.text : Trail → String
  | [] => "."
  | [.key name] => name
  | [.unnamed] => "?"
  | .key name :: parent => Trail.text parent ++ "." ++ name
  | .unnamed :: parent => Trail.text parent ++ ".?"
  | .index position :: parent => Trail.text parent ++ "[" ++ toString position ++ "]"

inductive Error where
  | malformed
  | unknownAnchor (mark : Mark)
  | endOfStream
  | moreDocuments
  | repetition
  | mismatch (problem : Mismatch) (place : Option (Mark × Trail))
  | unreadable (fault : IoFault)
deriving DecidableEq, Repr

def Mark.phrase (mark : Mark) : String :=
  if mark.line = 0 ∧ mark.column = 0 then ""
  else " at line " ++ toString (mark.line + 1) ++ " column " ++ toString (mark.column + 1)

def Error.message : Error → String
  | malformed => "<yaml syntax error>"
  | unknownAnchor mark => "unknown anchor" ++ mark.phrase
  | endOfStream => "EOF while parsing a value"
  | moreDocuments => "deserializing from YAML containing more than one document is not supported"
  | repetition => "repetition limit exceeded"
  | mismatch problem none => problem.message
  | mismatch problem (some (mark, trail)) =>
    (if trail.isEmpty then "" else Trail.text trail ++ ": ") ++ problem.message ++ mark.phrase
  | unreadable fault => fault.message

def Content.error (content : Content) : Error :=
  match content.fault with
  | some (.unknownAnchor mark) => .unknownAnchor mark
  | some .malformed => .malformed
  | none => .endOfStream

/-- The state counts how often an alias has been followed. -/
abbrev Reading := StateT Nat (Except Error)

def fail {α : Type} (problem : Mismatch) : Reading α := throw (.mismatch problem none)

def Error.settle (mark : Mark) (trail : Trail) : Error → Error
  | .mismatch problem none => .mismatch problem (some (mark, trail))
  | error => error

def locate {α : Type} (mark : Mark) (trail : Trail) (reading : Reading α) : Reading α :=
  fun count => (reading count).mapError (Error.settle mark trail)

def repetitionsPerEvent : Nat := 100

/-- An alias stands for the node with its anchor, any other node for itself. -/
def resolve (content : Content) : Node → Reading Node
  | .alias anchor => do
    let count ← get
    set (count + 1)
    if repetitionsPerEvent * content.events < count + 1 then throw .repetition
    else return (content.anchors.lookup anchor).getD .cut
  | node => return node

namespace Scalar

def foundTagged (scalar : Scalar) (tag : Tag) : Except Mismatch Found :=
  let text := scalar.text
  let refuse (expected : String) := .error (.invalidValue (.text text) expected)
  if tag = .boolean then
    match boolean? text with
    | some value => .ok (.boolean value)
    | none => refuse "a boolean"
  else if tag = .integer then
    match integer? text.toList with
    | some (value, wide) => .ok (foundInteger value wide)
    | none => refuse "an integer"
  else if tag = .real then
    match real? text.toList with
    | some value => .ok (.real value.text)
    | none => refuse "a float"
  else if tag = .null then
    if isNullWord text then .ok foundNull else refuse "null"
  else if scalar.style = .plain ∧ tag.isLocal then
    .ok ((Meaning.ofPlain text).found text)
  else .ok (.text text)

def found (scalar : Scalar) : Except Mismatch Found :=
  match scalar.tag with
  | some tag => scalar.foundTagged tag
  | none =>
    if scalar.style = .plain then .ok ((Meaning.ofPlain scalar.text).found scalar.text)
    else .ok (.text scalar.text)

def isBare (scalar : Scalar) : Bool := scalar.style == .plain && scalar.text.isEmpty

/-- Numbers and truth values are plain, or literal with the right tag. -/
def mayBe (scalar : Scalar) (tag : Tag) : Bool :=
  scalar.style == .plain || (scalar.style == .literal && scalar.tag == some tag)

/-- Only plain scalars can be null. A tag other than that of null makes one a value, and the tag of null
demands that it is null. -/
def isAbsent (scalar : Scalar) : Except Mismatch Bool :=
  if scalar.style ≠ .plain then .ok false
  else
    match scalar.tag with
    | some tag =>
      if tag ≠ .null then .ok false
      else if isNullWord scalar.text then .ok true
      else .error (.invalidValue (.text scalar.text) "null")
    | none => .ok (scalar.text.isEmpty || isNullWord scalar.text)

end Scalar

def refuse {α : Type} (content : Content) (trail : Trail) (expected : String) : Node → Reading α
  | .scalar mark scalar =>
    locate mark trail <|
      match scalar.found with
      | .ok found => fail (.invalidType found expected)
      | .error problem => fail problem
  | .sequence mark .. => locate mark trail (fail (.invalidType .sequence expected))
  | .mapping mark .. => locate mark trail (fail (.invalidType .map expected))
  | .nothing _ => throw .endOfStream
  | .alias _ | .cut => throw content.error

def readText (content : Content) (trail : Trail) (expected : String) (node : Node) :
    Reading String := do
  match ← resolve content node with
  | .scalar _ scalar => return scalar.text
  | node => refuse content trail expected node

def readNatural (content : Content) (trail : Trail) (node : Node) : Reading Nat := do
  match ← resolve content node with
  | .scalar mark scalar =>
    match natural? (Data.countRange - 1) scalar.text.toList with
    | some value =>
      if scalar.mayBe .integer then return value
      else refuse content trail "usize" (.scalar mark scalar)
    | none => refuse content trail "usize" (.scalar mark scalar)
  | node => refuse content trail "usize" node

def readBoolean (content : Content) (trail : Trail) (node : Node) : Reading Bool := do
  match ← resolve content node with
  | .scalar mark scalar =>
    match boolean? scalar.text with
    | some value =>
      if scalar.mayBe .boolean then return value
      else refuse content trail "a boolean" (.scalar mark scalar)
    | none => refuse content trail "a boolean" (.scalar mark scalar)
  | node => refuse content trail "a boolean" node

def select {α : Type} (variants : List (String × α)) (name : String) : Reading α :=
  match variants.lookup name with
  | some value => return value
  | none => fail (.unknownVariant name (variants.map Prod.fst))

def readTagged (content : Content) (trail : Trail) : Node → Reading Unit
  | .scalar mark scalar =>
    if scalar.style = .plain ∧ (scalar.text.isEmpty ∨ isNullWord scalar.text) then return ()
    else locate mark trail (fail (.invalidValue (.text scalar.text) "null"))
  | node => refuse content trail "unit" node

def taggedExpected : String := "a YAML tag starting with '!'"

def readChoice {α : Type} (content : Content) (trail : Trail) (variants : List (String × α))
    (node : Node) : Reading α := do
  let node ← resolve content node
  let tag :=
    match node with
    | .scalar _ scalar => scalar.tag
    | .sequence _ tag .. | .mapping _ tag .. => tag
    | _ => none
  match tag.bind Tag.name? with
  | some name =>
    let value ← select variants name
    readTagged content trail node
    return value
  | none =>
    match node with
    | .scalar mark scalar => locate mark trail (select variants scalar.text)
    | node => refuse content trail taggedExpected node

def readAbsent (content : Content) : Node → Reading Bool
  | .scalar _ scalar =>
    match scalar.isAbsent with
    | .ok absent => return absent
    | .error problem => fail problem
  | .nothing _ => return true
  | .cut => throw content.error
  | _ => return false

def pass (content : Content) : Node → Reading Unit
  | .sequence _ _ _ whole | .mapping _ _ _ whole =>
    if whole then return () else throw content.error
  | .cut => throw content.error
  | _ => return ()

abbrev Store (ρ : Type) := Trail → Node → ρ → Reading ρ

def stepOf : Node → Step
  | .scalar _ scalar => .key scalar.text
  | _ => .unnamed

def readEntry {ρ : Type} (content : Content) (trail : Trail) (slots : List (Slot (Store ρ)))
    (state : Partial ρ) (entry : Node × Node) : Reading (Partial ρ) := do
  let key ← readText content trail "field identifier" entry.1
  match slots.find? (·.answers key) with
  | some slot =>
    if state.given.contains slot.name then fail (.duplicateField slot.name)
    else
      let value ← slot.store (stepOf entry.1 :: trail) entry.2 state.value
      return ⟨value, slot.name :: state.given⟩
  | none => do
    pass content entry.2
    return state

def readEntries {ρ : Type} (content : Content) (trail : Trail) (empty : ρ) (slots : List (Slot (Store ρ)))
    (entries : List (Node × Node)) : Reading ρ := do
  let state ← entries.foldlM (readEntry content trail slots) ⟨empty, []⟩
  match Slot.missing slots state.given with
  | some name => fail (.missingField name)
  | none => return state.value

/-- An empty plain scalar is a record without entries. -/
def readRecord {ρ : Type} (content : Content) (trail : Trail) (name : String) (empty : ρ)
    (slots : List (Slot (Store ρ))) (node : Node) : Reading ρ := do
  match ← resolve content node with
  | .mapping mark _ entries _ => locate mark trail (readEntries content trail empty slots entries)
  | .nothing mark => locate mark trail (readEntries content trail empty slots [])
  | .scalar mark scalar =>
    if scalar.isBare then locate mark trail (readEntries content trail empty slots [])
    else refuse content trail ("struct " ++ name) (.scalar mark scalar)
  | node => refuse content trail ("struct " ++ name) node

def readItems {α : Type} (element : Trail → Node → Reading α) (trail : Trail) :
    List Node → Nat → Reading (List α)
  | [], _ => return []
  | item :: rest, position => do
    let value ← element (.index position :: trail) item
    return value :: (← readItems element trail rest (position + 1))

def readList {α : Type} (content : Content) (trail : Trail) (element : Trail → Node → Reading α)
    (node : Node) : Reading (List α) := do
  match ← resolve content node with
  | .sequence mark _ items _ => locate mark trail (readItems element trail items 0)
  | .nothing _ => return []
  | .scalar mark scalar =>
    if scalar.isBare then return []
    else refuse content trail "a sequence" (.scalar mark scalar)
  | node => refuse content trail "a sequence" node

mutual

def read {α : Type} (content : Content) : Shape α → Trail → Node → Reading α
  | .text, trail, node => readText content trail "a string" node
  | .path, trail, node => Path.mk <$> readText content trail "path string" node
  | .natural, trail, node => readNatural content trail node
  | .boolean, trail, node => readBoolean content trail node
  | .choice variants _, trail, node => readChoice content trail variants node
  | .list element, trail, node => readList content trail (read content element) node
  | .optional inner, trail, node => do
    let node ← resolve content node
    if ← readAbsent content node then return none else some <$> read content inner trail node
  | .record name empty fields, trail, node =>
    readRecord content trail name empty (slots content fields) node
  | .via shape ofWritten _, trail, node => ofWritten <$> read content shape trail node

def slots {ρ : Type} (content : Content) : Fields ρ → List (Slot (Store ρ))
  | .done => []
  | .field name others presence shape _ set rest =>
    { name, others, presence
      store := fun trail node value => (fun part => set part value) <$> read content shape trail node }
      :: slots content rest

end

/-- The stream must be sound, and hold at most one document. -/
def decode {α : Type} (shape : Shape α) (bytes : ByteArray) : Except Error α := do
  let content := Content.ofBytes bytes
  let (value, _) ← (read content shape [] content.root).run 0
  if content.fault.isSome then throw content.error
  else if content.followed then throw .moreDocuments
  else return value

end PolicyDiagram.Yaml
