import PolicyDiagram.Json.Parse
import PolicyDiagram.Data.Slot

/-!
Reading values from the tree of a JSON text. A record is read from named members in any order, or from a
list of its fields in declaration order; members that it does not know are only passed over.
-/

namespace PolicyDiagram.Json

open Data (Shape Fields Slot Partial Mismatch Found)

def Node.problem (node : Node) (mismatch : Mismatch) : Fault := ⟨.mismatch mismatch, node.spot⟩

def Node.found (node : Node) : Except Fault Found :=
  match node.content with
  | .absent problem => .error ⟨problem, node.ahead⟩
  | .name name none => .ok name.found
  | .name _ (some fault) => .error fault
  | .number value => value.map Number.found
  | .text value => value.map .text
  | .list .. => .ok .sequence
  | .record .. => .ok .map

def Node.refuse {α : Type} (node : Node) (expected : String) : Except Fault α :=
  match node.found with
  | .error fault => .error fault
  | .ok found => .error (node.problem (.invalidType found expected))

def Node.readText (node : Node) (expected : String) : Except Fault String :=
  match node.content with
  | .text value => value
  | _ => node.refuse expected

def Node.readNatural (node : Node) : Except Fault Nat :=
  match node.content with
  | .number (.ok (.natural value)) => .ok value
  | .number (.ok (.negative value)) => .error (node.problem (.invalidValue (.integer value) "usize"))
  | _ => node.refuse "usize"

def Node.readBoolean (node : Node) : Except Fault Bool :=
  match node.content with
  | .name .true none => .ok true
  | .name .false none => .ok false
  | _ => node.refuse "a boolean"

def Node.readNull (node : Node) : Except Fault Unit :=
  match node.content with
  | .name .null none => .ok ()
  | _ => node.refuse "unit"

def select {α : Type} (variants : List (String × α)) (name : String) (spot : Spot) : Except Fault α :=
  match variants.lookup name with
  | some value => .ok value
  | none => .error ⟨.mismatch (.unknownVariant name (variants.map Prod.fst)), spot⟩

def soleFault (bytes : Bytes) (next : Nat) (more : Bool) : Ending → Option Fault
  | .closed _ => if more then some ⟨.expectedValue, bytes.before next⟩ else none
  | .cut => if more then some ⟨.expectedValue, bytes.before next⟩ else some ⟨.endInObject, .at bytes.size⟩
  | .broken fault => if more then some ⟨.expectedValue, bytes.before next⟩ else some fault
  | _ => some ⟨.expectedValue, bytes.before next⟩

/-- A value is its name, or a record of the name and null. -/
def Node.readChoice {α : Type} (bytes : Bytes) (variants : List (String × α)) (node : Node) :
    Except Fault α :=
  match node.content with
  | .text value => do select variants (← value) node.spot
  | .record (member :: rest) ending => do
    let value ← select variants (← member.key) (.at member.afterKey)
    (← member.value).readNull
    match soleFault bytes member.next (!rest.isEmpty) ending with
    | some fault => .error fault
    | none => .ok value
  | .record [] ending =>
    .error ((ending.recordFault bytes).getD ⟨.expectedValue, .at ending.stop⟩)
  | .absent problem => .error ⟨problem, node.ahead⟩
  | _ => .error ⟨.expectedValue, node.ahead⟩

def Node.isNull (node : Node) : Except Fault Bool :=
  match node.content with
  | .name .null none => .ok true
  | .name .null (some fault) => .error fault
  | _ => .ok false

abbrev Store (ρ : Type) := Node → ρ → Except Fault ρ

def readMember {ρ : Type} (slots : List (Slot (Store ρ))) (state : Partial ρ) (member : Member) :
    Except Fault (Partial ρ) := do
  let key ← member.key
  match slots.find? (·.answers key) with
  | some slot =>
    if state.given.contains slot.name then
      .error ⟨.mismatch (.duplicateField slot.name), member.resumed⟩
    else
      let value ← slot.store (← member.value) state.value
      .ok ⟨value, slot.name :: state.given⟩
  | none =>
    let _ ← (← member.value).passing
    .ok state

def readMembers {ρ : Type} (bytes : Bytes) (empty : ρ) (slots : List (Slot (Store ρ))) (members : List Member)
    (ending : Ending) : Except Fault ρ := do
  let state ← members.foldlM (readMember slots) ⟨empty, []⟩
  match ending.recordFault bytes with
  | some fault => .error fault
  | none =>
    match Slot.missing slots state.given with
    | some name => .error ⟨.mismatch (.missingField name), .at ending.stop⟩
    | none => .ok state.value

def listedName (name : String) (count : Nat) : String :=
  "struct " ++ name ++ " with " ++ toString count ++ (if count = 1 then " element" else " elements")

/-- Fields with a default may be missing at the end. -/
def readItems {ρ : Type} (bytes : Bytes) (expected : String) (ending : Ending) :
    List (Slot (Store ρ)) → List Node → Nat → ρ → Except Fault ρ
  | [], item :: _, _, _ => .error ⟨.trailingCharacters, item.ahead⟩
  | [], [], _, value =>
    match ending.listSurplusFault bytes with
    | some fault => .error fault
    | none => .ok value
  | slot :: slots, item :: items, position, value => do
    readItems bytes expected ending slots items (position + 1) (← slot.store item value)
  | slot :: slots, [], position, value =>
    match ending.listFault bytes with
    | some fault => .error fault
    | none =>
      if slot.presence == .defaulted || slot.presence == .elided then
        readItems bytes expected ending slots [] (position + 1) value
      else .error ⟨.mismatch (.invalidLength position expected), .at ending.stop⟩

def readRecord {ρ : Type} (bytes : Bytes) (name : String) (empty : ρ) (slots : List (Slot (Store ρ)))
    (node : Node) : Except Fault ρ :=
  match node.content with
  | .record members ending => readMembers bytes empty slots members ending
  | .list items ending =>
    readItems bytes (listedName name slots.length) ending slots items 0 empty
  | _ => node.refuse ("struct " ++ name)

def readList {α : Type} (bytes : Bytes) (element : Node → Except Fault α) (node : Node) :
    Except Fault (List α) :=
  match node.content with
  | .list items ending => do
    let values ← items.mapM element
    match ending.listFault bytes with
    | some fault => .error fault
    | none => .ok values
  | _ => node.refuse "a sequence"

mutual

def read {α : Type} (bytes : Bytes) : Shape α → Node → Except Fault α
  | .text, node => node.readText "a string"
  | .path, node => (node.readText "path string").map Path.mk
  | .natural, node => node.readNatural
  | .boolean, node => node.readBoolean
  | .choice variants _, node => node.readChoice bytes variants
  | .list element, node => readList bytes (read bytes element) node
  | .optional content, node => do
    if ← node.isNull then .ok none else (read bytes content node).map some
  | .record name empty fields, node => readRecord bytes name empty (slots bytes fields) node
  | .via shape ofWritten _, node => (read bytes shape node).map ofWritten

def slots {ρ : Type} (bytes : Bytes) : Fields ρ → List (Slot (Store ρ))
  | .done => []
  | .field name others presence shape _ set rest =>
    { name, others, presence
      store := fun node value => (read bytes shape node).map fun part => set part value } ::
      slots bytes rest

end

def readAll {α : Type} (shape : Shape α) (bytes : Bytes) : Except Fault α := do
  let node := bytes.parse
  let value ← read bytes shape node
  let stop ← node.passing
  let next := bytes.skipBlank stop
  if next < bytes.size then .error ⟨.trailingCharacters, bytes.peek next⟩ else .ok value

def decode {α : Type} (source : Source) (shape : Shape α) (bytes : Bytes) : Except Error α :=
  (readAll shape bytes).mapError (·.report source bytes)

end PolicyDiagram.Json
