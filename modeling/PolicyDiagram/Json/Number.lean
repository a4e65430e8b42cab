import PolicyDiagram.Json.Fault
import PolicyDiagram.Decimal.Layout

/-!
Numbers of JSON texts. Integers that fit sixty-four bits are exact; all others are rounded once for their
leading digits and again for their power of ten, which need not give the nearest number.
-/

namespace PolicyDiagram.Json

open Decimal (Binary64)

inductive Number where
  | natural (value : Nat)
  | negative (value : Int)
  | real (value : Binary64)
deriving DecidableEq, Repr

def Number.found : Number → Data.Found
  | natural value => .integer value
  | negative value => .integer value
  | real value => .real (value.text .compact)

abbrev Bytes := ByteArray

def Bytes.byte? (bytes : Bytes) (i : Nat) : Option Char :=
  bytes[i]?.map fun byte => Char.ofNat byte.toNat

def Bytes.hasDigit (bytes : Bytes) (i : Nat) : Bool := (bytes.byte? i).any Char.isDigit

def Bytes.peek (bytes : Bytes) (i : Nat) : Spot := .at (min bytes.size (i + 1))

def Bytes.before (bytes : Bytes) (i : Nat) : Spot := ⟨i, min bytes.size (i + 1)⟩

def Bytes.digitsEnd (bytes : Bytes) (i : Nat) : Nat :=
  if h : i < bytes.size then
    if Char.isDigit (Char.ofNat bytes[i].toNat) then digitsEnd bytes (i + 1) else i
  else i
termination_by bytes.size - i

def Bytes.accumulate (bytes : Bytes) (limit : Nat) (i value : Nat) : Nat × Nat :=
  if h : i < bytes.size then
    let next := 10 * value + (bytes[i].toNat - '0'.toNat)
    if Char.isDigit (Char.ofNat bytes[i].toNat) ∧ next < limit then
      accumulate bytes limit (i + 1) next
    else (value, i)
  else (value, i)
termination_by bytes.size - i

def significandLimit : Nat := Nat.pow 2 64

def greatestPower : Nat := 308

/-- The fuel bounds the divisions by `10 ^ 308` before the number is zero. -/
def scaleByTen (power : Int) (x : Binary64) : Nat → Option Binary64
  | 0 => some x
  | fuel + 1 =>
    if power.natAbs ≤ greatestPower then
      if 0 ≤ power then x.timesPowerOfTen power.natAbs else x.overPowerOfTen power.natAbs
    else if x.mantissa = 0 then some x
    else if 0 ≤ power then none
    else (x.overPowerOfTen greatestPower).bind fun y => scaleByTen (power + greatestPower) y fuel

def Bytes.realOf (bytes : Bytes) (negative : Bool) (significand : Nat) (power : Int) (stop : Nat) :
    Except Fault (Number × Nat) :=
  match scaleByTen power (.ofNatural significand) 8 with
  | some x => .ok (.real { x with negative }, stop)
  | none => .error ⟨.numberOutOfRange, bytes.before stop⟩

def exponentLimit : Nat := Nat.pow 2 31

def Bytes.exponent (bytes : Bytes) (negative : Bool) (significand : Nat) (power : Int) (i : Nat) :
    Except Fault (Number × Nat) :=
  let signed := bytes.byte? (i + 1) = some '+' ∨ bytes.byte? (i + 1) = some '-'
  let down := bytes.byte? (i + 1) = some '-'
  let first := if signed then i + 2 else i + 1
  match bytes.byte? first with
  | none => .error ⟨.endInValue, .at first⟩
  | some c =>
    if c.isDigit then
      let (size, stop) := bytes.accumulate exponentLimit first 0
      if bytes.hasDigit stop then
        if significand ≠ 0 ∧ ¬down then .error ⟨.numberOutOfRange, .at (stop + 1)⟩
        else .ok (.real ⟨negative, 0, Decimal.leastExponent⟩, bytes.digitsEnd stop)
      else bytes.realOf negative significand (if down then power - size else power + size) stop
    else .error ⟨.invalidNumber, .at (first + 1)⟩

def Bytes.hasExponent (bytes : Bytes) (i : Nat) : Bool :=
  (bytes.byte? i).any fun c => c == 'e' || c == 'E'

def Bytes.afterDigits (bytes : Bytes) (negative : Bool) (significand : Nat) (power : Int) (i : Nat) :
    Except Fault (Number × Nat) :=
  if bytes.hasExponent i then bytes.exponent negative significand power i
  else bytes.realOf negative significand power i

/-- Digits that no longer fit the significand are ignored. -/
def Bytes.fraction (bytes : Bytes) (negative : Bool) (significand : Nat) (power : Int) (i : Nat) :
    Except Fault (Number × Nat) :=
  let (value, stop) := bytes.accumulate significandLimit (i + 1) significand
  let power := power - (stop - (i + 1) : Nat)
  if bytes.hasDigit stop then
    bytes.afterDigits negative value power (bytes.digitsEnd stop)
  else if stop = i + 1 then
    .error ⟨if (bytes.byte? stop).isSome then .invalidNumber else .endInValue, bytes.peek stop⟩
  else bytes.afterDigits negative value power stop

/-- Minus zero, and what does not fit sixty-four bits with a sign, becomes a binary number. -/
def integerOf (negative : Bool) (value : Nat) : Number :=
  if ¬negative then .natural value
  else if value = 0 ∨ Nat.pow 2 63 < value then .real { Binary64.ofNatural value with negative := true }
  else .negative (-value)

def Bytes.afterInteger (bytes : Bytes) (negative : Bool) (significand : Nat) (i : Nat) :
    Except Fault (Number × Nat) :=
  if bytes.byte? i = some '.' then bytes.fraction negative significand 0 i
  else if bytes.hasExponent i then bytes.exponent negative significand 0 i
  else .ok (integerOf negative significand, i)

def Bytes.magnitude (bytes : Bytes) (negative : Bool) (i : Nat) : Except Fault (Number × Nat) :=
  match bytes.byte? i with
  | none => .error ⟨.endInValue, .at i⟩
  | some '0' =>
    if bytes.hasDigit (i + 1) then .error ⟨.invalidNumber, bytes.peek (i + 1)⟩
    else bytes.afterInteger negative 0 (i + 1)
  | some c =>
    if c.isDigit then
      let (value, stop) := bytes.accumulate significandLimit i 0
      if bytes.hasDigit stop then
        let past := bytes.digitsEnd stop
        if bytes.byte? past = some '.' then
          bytes.fraction negative value (past - stop : Nat) past
        else bytes.afterDigits negative value (past - stop : Nat) past
      else bytes.afterInteger negative value stop
    else .error ⟨.invalidNumber, .at (i + 1)⟩

def Bytes.number (bytes : Bytes) (i : Nat) : Except Fault (Number × Nat) :=
  if bytes.byte? i = some '-' then bytes.magnitude true (i + 1) else bytes.magnitude false i

def Bytes.passExponent (bytes : Bytes) (i : Nat) : Except Fault Nat :=
  let signed := bytes.byte? (i + 1) = some '+' ∨ bytes.byte? (i + 1) = some '-'
  let first := if signed then i + 2 else i + 1
  if bytes.hasDigit first then .ok (bytes.digitsEnd first)
  else .error ⟨.invalidNumber, bytes.peek first⟩

def Bytes.passFraction (bytes : Bytes) (i : Nat) : Except Fault Nat :=
  if bytes.byte? i = some '.' then
    let stop := bytes.digitsEnd (i + 1)
    if stop = i + 1 then .error ⟨.invalidNumber, bytes.peek stop⟩
    else if bytes.hasExponent stop then bytes.passExponent stop
    else .ok stop
  else if bytes.hasExponent i then bytes.passExponent i
  else .ok i

def Bytes.passNumber (bytes : Bytes) (i : Nat) : Except Fault Nat :=
  let first := if bytes.byte? i = some '-' then i + 1 else i
  match bytes.byte? first with
  | some '0' =>
    if bytes.hasDigit (first + 1) then .error ⟨.invalidNumber, bytes.peek (first + 1)⟩
    else bytes.passFraction (first + 1)
  | some c =>
    if c.isDigit then bytes.passFraction (bytes.digitsEnd first)
    else .error ⟨.invalidNumber, .at (first + 1)⟩
  | none => .error ⟨.invalidNumber, .at first⟩

end PolicyDiagram.Json
