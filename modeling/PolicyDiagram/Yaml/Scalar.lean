import PolicyDiagram.Data.Mismatch
import PolicyDiagram.Decimal.Layout

/-!
What plain scalars stand for: null, truth values, numbers, and texts for all the rest. Digits behind a leading
zero are a text.
-/

namespace PolicyDiagram.Yaml

open Data (Found)

inductive Real where
  | finite (value : Decimal.Binary64)
  | infinite (negative : Bool)
  | notANumber
deriving DecidableEq, Repr

inductive Meaning where
  | null
  | boolean (value : Bool)
  | integer (value : Int) (wide : Option String)
  | real (value : Real)
  | text
deriving DecidableEq, Repr

def isNullWord (text : String) : Bool := ["~", "null", "Null", "NULL"].contains text

def boolean? (text : String) : Option Bool :=
  if ["true", "True", "TRUE"].contains text then some true
  else if ["false", "False", "FALSE"].contains text then some false
  else none

def digit? (base : Nat) (c : Char) : Option Nat := (Text.hexValue? c).filter (· < base)

def digits? (base : Nat) (digits : List Char) : Option Nat :=
  if digits.isEmpty then none
  else digits.foldlM (fun value c => (digit? base c).map (base * value + ·)) 0

def marked? : List Char → Option (Nat × List Char)
  | '0' :: 'x' :: rest => some (16, rest)
  | '0' :: 'o' :: rest => some (8, rest)
  | '0' :: 'b' :: rest => some (2, rest)
  | _ => none

def unsigned (text : List Char) : List Char :=
  match text with
  | '-' :: rest => rest
  | '+' :: rest => rest
  | _ => text

def isZeroLed (text : List Char) : Bool :=
  match unsigned text with
  | '0' :: d :: rest => (d :: rest).all Char.isDigit
  | _ => false

/-- Digits, or a marker and digits of its base, with at most one plus sign. -/
def natural? (limit : Nat) (text : List Char) : Option Nat :=
  let body := if text.head? = some '+' then text.drop 1 else text
  match (marked? body).bind fun (base, rest) => (digits? base rest).filter (· ≤ limit) with
  | some value => some value
  | none => if isZeroLed text then none else (digits? 10 body).filter (· ≤ limit)

def negative? (limit : Nat) (text : List Char) : Option Int :=
  match text with
  | '-' :: body =>
    match (marked? body).bind fun (base, rest) => (digits? base rest).filter (· ≤ limit) with
    | some value => some (-value)
    | none => if isZeroLed text then none else ((digits? 10 body).filter (· ≤ limit)).map (- ·)
  | _ => none

def integer? (text : List Char) : Option (Int × Option String) :=
  match natural? (Nat.pow 2 64 - 1) text, negative? (Nat.pow 2 63) text with
  | some value, _ => some (value, none)
  | none, some value => some (value, none)
  | none, none =>
    match natural? (Nat.pow 2 128 - 1) text, negative? (Nat.pow 2 127) text with
    | some value, _ => some (value, some "u128")
    | none, some value => some (value, some "i128")
    | none, none => none

def exponent? (text : List Char) : Option Int :=
  match text with
  | '-' :: rest => (digits? 10 rest).map (- ·)
  | '+' :: rest => (digits? 10 rest).map (·)
  | rest => (digits? 10 rest).map (·)

def decimal? (text : List Char) : Option Decimal.Binary64 := do
  let negative := text.head? = some '-'
  let body := unsigned text
  let whole := body.takeWhile Char.isDigit
  let rest := body.dropWhile Char.isDigit
  let (fraction, rest) :=
    match rest with
    | '.' :: rest => (rest.takeWhile Char.isDigit, rest.dropWhile Char.isDigit)
    | _ => ([], rest)
  let value ← digits? 10 (whole ++ fraction)
  let exponent ←
    match rest with
    | [] => some 0
    | c :: rest => if c = 'e' ∨ c = 'E' then exponent? rest else none
  Decimal.ofDecimal negative value (exponent - fraction.length)

/-- A number that is no integer, or is too wide for one. -/
def real? (text : List Char) : Option Real :=
  let body := if text.head? = some '+' then text.drop 1 else text
  if text.head? = some '+' ∧ (body.head? = some '+' ∨ body.head? = some '-') then none
  else
    match String.ofList body with
    | ".inf" | ".Inf" | ".INF" => some (.infinite false)
    | "-.inf" | "-.Inf" | "-.INF" => some (.infinite true)
    | _ =>
      match String.ofList text with
      | ".nan" | ".NaN" | ".NAN" => some .notANumber
      | _ => (decimal? body).map .finite

def Meaning.ofPlain (text : String) : Meaning :=
  if text.isEmpty ∨ isNullWord text then .null
  else
    match boolean? text with
    | some value => .boolean value
    | none =>
      match integer? text.toList with
      | some (value, wide) => .integer value wide
      | none =>
        if isZeroLed text.toList then .text
        else
          match real? text.toList with
          | some value => .real value
          | none => .text

def Real.text : Real → String
  | finite value => value.text .plain
  | infinite negative => if negative then "-inf" else "inf"
  | notANumber => "NaN"

def foundInteger (value : Int) : Option String → Found
  | none => .integer value
  | some wide => .described ("integer `" ++ toString value ++ "` as " ++ wide)

def foundNull : Found := .described "unit value"

def Meaning.found (text : String) : Meaning → Found
  | null => foundNull
  | boolean value => .boolean value
  | integer value wide => foundInteger value wide
  | real value => .real value.text
  | Meaning.text => .text text

end PolicyDiagram.Yaml
