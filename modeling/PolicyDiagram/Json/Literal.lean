import PolicyDiagram.Json.Number
import PolicyDiagram.Text.Utf8

/-!
String literals and named literals of JSON texts. A string that is read must be well-formed text; one that
is only passed over may hold lone surrogates and invalid UTF-8.
-/

namespace PolicyDiagram.Json

def Bytes.hexUnit (bytes : Bytes) (i : Nat) : Except Fault Nat :=
  match bytes.byte? i, bytes.byte? (i + 1), bytes.byte? (i + 2), bytes.byte? (i + 3) with
  | some a, some b, some c, some d =>
    match Text.hexNumber? [a, b, c, d] with
    | some unit => .ok unit
    | none => .error ⟨.invalidEscape, .at (i + 4)⟩
  | _, _, _, _ => .error ⟨.endInText, .at bytes.size⟩

def letterEscape (c : Char) : Option UInt8 :=
  match c with
  | '"' | '\\' | '/' => some c.toUInt8
  | 'b' => some 8
  | 'f' => some 12
  | 'n' => some 10
  | 'r' => some 13
  | 't' => some 9
  | _ => none

inductive Stroke where
  | close
  | put (content : List UInt8) (next : Nat)

def isLeading (unit : Nat) : Bool := 0xD800 ≤ unit && unit ≤ 0xDBFF

def isTrailing (unit : Nat) : Bool := 0xDC00 ≤ unit && unit ≤ 0xDFFF

def Bytes.unitEscape (bytes : Bytes) (i : Nat) : Except Fault Stroke := do
  let first ← bytes.hexUnit i
  if isTrailing first then .error ⟨.loneSurrogate, .at (i + 4)⟩
  else if ¬isLeading first then .ok (.put (String.utf8EncodeChar (.ofNat first)) (i + 4))
  else
    match bytes.byte? (i + 4), bytes.byte? (i + 5) with
    | none, _ => .error ⟨.endInText, .at bytes.size⟩
    | some '\\', none => .error ⟨.endInText, .at bytes.size⟩
    | some '\\', some 'u' =>
      let second ← bytes.hexUnit (i + 6)
      if isTrailing second then
        let code := 0x10000 + (first - 0xD800) * 0x400 + (second - 0xDC00)
        .ok (.put (String.utf8EncodeChar (.ofNat code)) (i + 10))
      else .error ⟨.loneSurrogate, .at (i + 10)⟩
    | some '\\', some _ => .error ⟨.unexpectedEndOfEscape, .at (i + 6)⟩
    | some _, _ => .error ⟨.unexpectedEndOfEscape, .at (i + 5)⟩

def Bytes.stroke (bytes : Bytes) (i : Nat) : Except Fault Stroke :=
  match bytes[i]? with
  | none => .error ⟨.endInText, .at bytes.size⟩
  | some byte =>
    if byte = 34 then .ok .close
    else if byte = 92 then
      match bytes.byte? (i + 1) with
      | none => .error ⟨.endInText, .at bytes.size⟩
      | some 'u' => bytes.unitEscape (i + 2)
      | some c =>
        match letterEscape c with
        | some byte => .ok (.put [byte] (i + 2))
        | none => .error ⟨.invalidEscape, .at (i + 2)⟩
    else if byte < 32 then .error ⟨.controlCharacter, .at (i + 1)⟩
    else .ok (.put [byte] (i + 1))

/-- A numeric escape needs its digits and nothing more; a control character is looked at and not used up. -/
def Bytes.passStroke (bytes : Bytes) (i : Nat) : Except Fault Stroke :=
  if bytes.byte? i = some '\\' ∧ bytes.byte? (i + 1) = some 'u' then do
    let _ ← bytes.hexUnit (i + 2)
    .ok (.put [] (i + 6))
  else if bytes[i]?.any (· < 32) then .error ⟨.controlCharacter, bytes.before i⟩
  else bytes.stroke i

/-- Every place takes at least one byte, so the size of the text bounds the fuel. -/
def followText (step : Nat → Except Fault Stroke) (i : Nat) (content : ByteArray) :
    Nat → Except Fault (ByteArray × Nat)
  | 0 => .error ⟨.endInText, .at i⟩
  | fuel + 1 =>
    match step i with
    | .error fault => .error fault
    | .ok .close => .ok (content, i + 1)
    | .ok (.put bytes next) => followText step next (bytes.foldl ByteArray.push content) fuel

/-- Malformed UTF-8 is reported as many bytes before the end of the literal as its text has from the first
malformed byte on. -/
def Bytes.text (bytes : Bytes) (i : Nat) : Except Fault (String × Nat) := do
  let (content, stop) ← followText bytes.stroke i .empty (bytes.size + 1)
  match String.fromUTF8? content with
  | some text => .ok (text, stop)
  | none =>
    let good := Text.malformedFrom content 0 content.size content.size
    .error ⟨.invalidCodePoint, .at (stop - (content.size - good))⟩

def Bytes.passText (bytes : Bytes) (i : Nat) : Except Fault Nat := do
  let (_, stop) ← followText bytes.passStroke i .empty (bytes.size + 1)
  .ok stop

inductive Name where
  | null
  | true
  | false
deriving DecidableEq, Repr

def Name.found : Name → Data.Found
  | null => .described "null"
  | true => .boolean Bool.true
  | false => .boolean Bool.false

def Bytes.restOfName (bytes : Bytes) (i : Nat) : List Char → Except Fault Nat
  | [] => .ok i
  | c :: rest =>
    match bytes.byte? i with
    | none => .error ⟨.endInValue, .at i⟩
    | some d => if c = d then bytes.restOfName (i + 1) rest else .error ⟨.expectedIdent, .at (i + 1)⟩

def Name.starting? (c : Char) : Option (Name × List Char) :=
  match c with
  | 'n' => some (null, ['u', 'l', 'l'])
  | 't' => some (true, ['r', 'u', 'e'])
  | 'f' => some (false, ['a', 'l', 's', 'e'])
  | _ => none

end PolicyDiagram.Json
