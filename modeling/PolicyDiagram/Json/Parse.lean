import PolicyDiagram.Json.Node

/-!
Building the tree of a JSON text. Open lists and records are kept on an explicit stack, so that nesting is
bounded by the length of the text alone.
-/

namespace PolicyDiagram.Json

def valueOf {α : Type} (outcome : Except Fault (α × Nat)) : Except Fault α := outcome.map Prod.fst

def placeAfter {α : Type} (read : Except Fault (α × Nat)) (passing : Except Fault Nat) : Nat :=
  match read, passing with
  | .ok (_, stop), _ => stop
  | .error _, .ok stop => stop
  | .error _, .error fault => fault.spot.taken

def Bytes.scalar (bytes : Bytes) (i : Nat) : Node :=
  let ahead := bytes.peek i
  match bytes.byte? i with
  | none => .mk ahead ahead (.error ⟨.endInValue, ahead⟩) (.absent .endInValue)
  | some c =>
    match Name.starting? c with
    | some (name, letters) =>
      match bytes.restOfName (i + 1) letters with
      | .ok stop => .mk ahead (.at stop) (.ok stop) (.name name none)
      | .error fault => .mk ahead fault.spot (.error fault) (.name name (some fault))
    | none =>
      if c = '-' ∨ c.isDigit then
        let read := bytes.number i
        let passing := bytes.passNumber i
        .mk ahead (bytes.before (placeAfter read passing)) passing (.number (valueOf read))
      else if c = '"' then
        let read := bytes.text (i + 1)
        let passing := bytes.passText (i + 1)
        .mk ahead (.at (placeAfter read passing)) passing (.text (valueOf read))
      else .mk ahead ahead (.error ⟨.expectedValue, ahead⟩) (.absent .expectedValue)

/-- The key as it is read, the place after it, the spot of a repeated key, and the place of the value. -/
structure Key where
  read : Except Fault String
  afterKey : Nat
  resumed : Spot
  value : Except Fault Nat

def Bytes.key (bytes : Bytes) (i : Nat) : Key :=
  let read := bytes.text (i + 1)
  match bytes.passText (i + 1) with
  | .error fault => ⟨valueOf read, fault.spot.taken, fault.spot, .error fault⟩
  | .ok stop =>
    let next := bytes.skipBlank stop
    let resumed := if bytes.byte? next = some '\x7d' then .at (next + 1) else bytes.before next
    let value :=
      match bytes.byte? next with
      | some ':' => .ok (next + 1)
      | some _ => .error ⟨.expectedColon, bytes.peek next⟩
      | none => .error ⟨.endInObject, bytes.peek next⟩
    ⟨valueOf read, stop, resumed, value⟩

inductive Frame where
  | list (start : Nat) (items : List Node)
  | record (start : Nat) (members : List Member) (key : Key)

def Bytes.listNode (bytes : Bytes) (start : Nat) (items : List Node) (ending : Ending) : Node :=
  let passing :=
    match ending.listPassFault bytes with
    | some fault => .error fault
    | none => .ok ending.stop
  .mk (bytes.peek start) (bytes.before start) passing (.list items.reverse ending)

def Bytes.recordNode (bytes : Bytes) (start : Nat) (members : List Member) (ending : Ending) :
    Node :=
  let passing :=
    match ending.recordPassFault bytes with
    | some fault => .error fault
    | none => .ok ending.stop
  .mk (bytes.peek start) (bytes.before start) passing (.record members.reverse ending)

inductive Task where
  | find (i : Nat)
  | give (node : Node)

def Bytes.enterKey (bytes : Bytes) (start : Nat) (members : List Member) (i : Nat)
    (frames : List Frame) : Task × List Frame :=
  let key := bytes.key i
  match key.value with
  | .ok place => (.find place, .record start members key :: frames)
  | .error fault =>
    let member := .mk key.read key.afterKey key.resumed (.error fault) bytes.size
    (.give (bytes.recordNode start (member :: members) (.broken fault)), frames)

def Bytes.find (bytes : Bytes) (i : Nat) (frames : List Frame) : Task × List Frame :=
  let start := bytes.skipBlank i
  let inner := bytes.skipBlank (start + 1)
  match bytes.byte? start, bytes.byte? inner with
  | some '[', some ']' => (.give (bytes.listNode start [] (.closed inner)), frames)
  | some '[', none => (.give (bytes.listNode start [] .cut), frames)
  | some '[', some ',' => (.give (bytes.listNode start [] (.leadingComma inner)), frames)
  | some '[', some _ => (.find inner, .list start [] :: frames)
  | some '\x7b', some '\x7d' => (.give (bytes.recordNode start [] (.closed inner)), frames)
  | some '\x7b', none => (.give (bytes.recordNode start [] .cut), frames)
  | some '\x7b', some '"' => bytes.enterKey start [] inner frames
  | some '\x7b', some _ => (.give (bytes.recordNode start [] (.noKey inner)), frames)
  | _, _ => (.give (bytes.scalar start), frames)

def Bytes.giveItem (bytes : Bytes) (start : Nat) (items : List Node) (node : Node)
    (frames : List Frame) : Task × List Frame :=
  let items := node :: items
  match node.passing with
  | .error fault => (.give (bytes.listNode start items (.broken fault)), frames)
  | .ok stop =>
    let next := bytes.skipBlank stop
    let inner := bytes.skipBlank (next + 1)
    match bytes.byte? next with
    | none => (.give (bytes.listNode start items .cut), frames)
    | some ']' => (.give (bytes.listNode start items (.closed next)), frames)
    | some ',' =>
      if bytes.byte? inner = some ']' then
        (.give (bytes.listNode start items (.trailingComma inner)), frames)
      else (.find inner, .list start items :: frames)
    | some _ => (.give (bytes.listNode start items (.noComma next)), frames)

def Bytes.giveValue (bytes : Bytes) (start : Nat) (members : List Member) (key : Key) (node : Node)
    (frames : List Frame) : Task × List Frame :=
  match node.passing with
  | .error fault =>
    let member := .mk key.read key.afterKey key.resumed (.ok node) bytes.size
    (.give (bytes.recordNode start (member :: members) (.broken fault)), frames)
  | .ok stop =>
    let next := bytes.skipBlank stop
    let inner := bytes.skipBlank (next + 1)
    let members := .mk key.read key.afterKey key.resumed (.ok node) next :: members
    match bytes.byte? next with
    | none => (.give (bytes.recordNode start members .cut), frames)
    | some '\x7d' => (.give (bytes.recordNode start members (.closed next)), frames)
    | some ',' =>
      match bytes.byte? inner with
      | some '"' => bytes.enterKey start members inner frames
      | some '\x7d' => (.give (bytes.recordNode start members (.trailingComma inner)), frames)
      | some _ => (.give (bytes.recordNode start members (.noKey inner)), frames)
      | none => (.give (bytes.recordNode start members .cutAfterComma), frames)
    | some _ => (.give (bytes.recordNode start members (.noComma next)), frames)

/-- A find takes a byte or gives a node, and a give closes a frame or goes on behind its node, so twice the
size of the text bounds the fuel. -/
def Bytes.work (bytes : Bytes) (task : Task) (frames : List Frame) : Nat → Node
  | 0 => bytes.scalar bytes.size
  | fuel + 1 =>
    match task, frames with
    | .find i, frames =>
      let (task, frames) := bytes.find i frames
      bytes.work task frames fuel
    | .give node, [] => node
    | .give node, .list start items :: frames =>
      let (task, frames) := bytes.giveItem start items node frames
      bytes.work task frames fuel
    | .give node, .record start members key :: frames =>
      let (task, frames) := bytes.giveValue start members key node frames
      bytes.work task frames fuel

def Bytes.parse (bytes : Bytes) : Node := bytes.work (.find 0) [] (4 * bytes.size + 8)

end PolicyDiagram.Json
