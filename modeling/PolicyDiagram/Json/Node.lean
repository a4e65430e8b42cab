import PolicyDiagram.Json.Literal

/-!
The tree of a JSON text, up to its first fault. A leaf keeps what reading it gives, which can be a fault where
passing over it gives none; a node keeps whether it can be passed over.
-/

namespace PolicyDiagram.Json

inductive Ending where
  | closed (bracket : Nat)
  | trailingComma (bracket : Nat)
  | noComma (position : Nat)
  | cut
  | cutAfterComma
  | noKey (position : Nat)
  | leadingComma (comma : Nat)
  | broken (fault : Fault)

mutual

inductive Node where
  /-- `ahead` is the spot of a reader that looks at the first byte, `spot` the one at which wrongly typed
  data is reported, and `passing` the outcome of passing over the value: the place after it. -/
  | mk (ahead spot : Spot) (passing : Except Fault Nat) (content : Content)

inductive Content where
  | absent (problem : Problem)
  | name (name : Name) (fault : Option Fault)
  | number (value : Except Fault Number)
  | text (value : Except Fault String)
  | list (items : List Node) (ending : Ending)
  | record (members : List Member) (ending : Ending)

inductive Member where
  /-- `afterKey` is the place after the key, `resumed` the spot at which a repeated key is reported, and
  `next` the first place after the value that is not blank. -/
  | mk (key : Except Fault String) (afterKey : Nat) (resumed : Spot) (value : Except Fault Node)
      (next : Nat)

end

namespace Node

def ahead : Node → Spot
  | mk ahead _ _ _ => ahead

def spot : Node → Spot
  | mk _ spot _ _ => spot

def passing : Node → Except Fault Nat
  | mk _ _ passing _ => passing

def content : Node → Content
  | mk _ _ _ content => content

end Node

namespace Member

def key : Member → Except Fault String
  | mk key _ _ _ _ => key

def afterKey : Member → Nat
  | mk _ afterKey _ _ _ => afterKey

def resumed : Member → Spot
  | mk _ _ resumed _ _ => resumed

def value : Member → Except Fault Node
  | mk _ _ _ value _ => value

def next : Member → Nat
  | mk _ _ _ _ next => next

end Member

def isBlank (byte : UInt8) : Bool := byte = 32 || byte = 10 || byte = 9 || byte = 13

def Bytes.skipBlank (bytes : Bytes) (i : Nat) : Nat :=
  if h : i < bytes.size then
    if isBlank bytes[i] then skipBlank bytes (i + 1) else i
  else i
termination_by bytes.size - i

namespace Ending

def listFault (bytes : Bytes) : Ending → Option Fault
  | closed _ => none
  | trailingComma bracket => some ⟨.trailingComma, bytes.peek bracket⟩
  | noComma position => some ⟨.expectedListCommaOrEnd, bytes.peek position⟩
  | noKey position => some ⟨.keyNotText, bytes.peek position⟩
  | leadingComma comma => some ⟨.expectedValue, bytes.peek comma⟩
  | cut => some ⟨.endInList, .at bytes.size⟩
  | cutAfterComma => some ⟨.endInValue, .at bytes.size⟩
  | broken fault => some fault

def listPassFault (bytes : Bytes) : Ending → Option Fault
  | trailingComma bracket => some ⟨.expectedValue, bytes.peek bracket⟩
  | ending => ending.listFault bytes

/-- A reader that wants no further item looks past a comma. -/
def listSurplusFault (bytes : Bytes) : Ending → Option Fault
  | noComma position => some ⟨.trailingCharacters, bytes.peek position⟩
  | leadingComma comma =>
    let next := bytes.skipBlank (comma + 1)
    let problem := if bytes.byte? next = some ']' then .trailingComma else .trailingCharacters
    some ⟨problem, bytes.peek next⟩
  | ending => ending.listFault bytes

def recordFault (bytes : Bytes) : Ending → Option Fault
  | closed _ => none
  | trailingComma bracket => some ⟨.trailingComma, bytes.peek bracket⟩
  | noComma position => some ⟨.expectedObjectCommaOrEnd, bytes.peek position⟩
  | noKey position => some ⟨.keyNotText, bytes.peek position⟩
  | leadingComma comma => some ⟨.keyNotText, bytes.peek comma⟩
  | cut => some ⟨.endInObject, .at bytes.size⟩
  | cutAfterComma => some ⟨.endInValue, .at bytes.size⟩
  | broken fault => some fault

def recordPassFault (bytes : Bytes) : Ending → Option Fault
  | trailingComma bracket => some ⟨.keyNotText, bytes.peek bracket⟩
  | cutAfterComma => some ⟨.endInObject, .at bytes.size⟩
  | ending => ending.recordFault bytes

def stop : Ending → Nat
  | closed bracket => bracket + 1
  | _ => 0

end Ending

end PolicyDiagram.Json
