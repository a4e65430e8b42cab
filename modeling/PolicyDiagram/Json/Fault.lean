import PolicyDiagram.Data.Mismatch
import PolicyDiagram.Files.Fault

/-!
Problems of JSON texts. A reader that takes its bytes one by one reports how many it has seen; a reader that
holds the whole text reports how many it has used up.
-/

namespace PolicyDiagram.Json

open Data (Mismatch)

inductive Problem where
  | endInList
  | endInObject
  | endInText
  | endInValue
  | expectedColon
  | expectedListCommaOrEnd
  | expectedObjectCommaOrEnd
  | expectedIdent
  | expectedValue
  | invalidEscape
  | invalidNumber
  | numberOutOfRange
  | invalidCodePoint
  | controlCharacter
  | keyNotText
  | loneSurrogate
  | unexpectedEndOfEscape
  | trailingComma
  | trailingCharacters
  | mismatch (problem : Mismatch)
deriving DecidableEq, Repr

def Problem.message : Problem → String
  | endInList => "EOF while parsing a list"
  | endInObject => "EOF while parsing an object"
  | endInText => "EOF while parsing a string"
  | endInValue => "EOF while parsing a value"
  | expectedColon => "expected `:`"
  | expectedListCommaOrEnd => "expected `,` or `]`"
  | expectedObjectCommaOrEnd => "expected `,` or `\x7d`"
  | expectedIdent => "expected ident"
  | expectedValue => "expected value"
  | invalidEscape => "invalid escape"
  | invalidNumber => "invalid number"
  | numberOutOfRange => "number out of range"
  | invalidCodePoint => "invalid unicode code point"
  | controlCharacter => "control character (\\u0000-\\u001F) found while parsing a string"
  | keyNotText => "key must be a string"
  | loneSurrogate => "lone leading surrogate in hex escape"
  | unexpectedEndOfEscape => "unexpected end of hex escape"
  | trailingComma => "trailing comma"
  | trailingCharacters => "trailing characters"
  | mismatch problem => problem.message

/-- Bytes used up, and bytes looked at. -/
structure Spot where
  taken : Nat
  seen : Nat
deriving DecidableEq, Repr, Inhabited

def Spot.at (taken : Nat) : Spot := ⟨taken, taken⟩

structure Fault where
  problem : Problem
  spot : Spot
deriving DecidableEq, Repr

inductive Source where
  | streamed
  | held
deriving DecidableEq, Repr

def Source.extent : Source → Spot → Nat
  | streamed, spot => spot.seen
  | held, spot => spot.taken

/-- Lines count from one; columns are bytes of the line. -/
inductive Error where
  | at (problem : Problem) (line column : Nat)
  | unreadable (fault : IoFault)
deriving DecidableEq, Repr

def Error.message : Error → String
  | .at problem line column =>
    problem.message ++ " at line " ++ toString line ++ " column " ++ toString column
  | unreadable fault => fault.message

def lineAndColumn (bytes : ByteArray) (extent : Nat) : Nat × Nat :=
  (bytes.toList.take extent).foldl
    (fun (place : Nat × Nat) (byte : UInt8) =>
      if byte = 10 then (place.1 + 1, 0) else (place.1, place.2 + 1)) (1, 0)

def Fault.report (source : Source) (bytes : ByteArray) (fault : Fault) : Error :=
  let (line, column) := lineAndColumn bytes (source.extent fault.spot)
  .at fault.problem line column

end PolicyDiagram.Json
