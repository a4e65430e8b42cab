/-!
Finite binary floating-point numbers of sixty-four bits, as exact integers. Products and quotients are rounded
once.
-/

namespace PolicyDiagram.Decimal

/-- The number `± mantissa * 2 ^ exponent`, with a mantissa of at most 53 bits. -/
structure Binary64 where
  negative : Bool
  mantissa : Nat
  exponent : Int
deriving DecidableEq, Repr

def leastExponent : Int := -1074

def greatestExponent : Int := 971

def leastNormal : Nat := Nat.pow 2 52

def mantissaEnd : Nat := Nat.pow 2 53

/-- `numerator / denominator` times `base ^ power`, as a quotient. -/
def scaled (base : Nat) (power : Int) (numerator denominator : Nat) : Nat × Nat :=
  if power < 0 then (numerator, denominator * Nat.pow base power.natAbs)
  else (numerator * Nat.pow base power.natAbs, denominator)

def roundHalfEven (numerator denominator : Nat) : Nat :=
  let whole := numerator / denominator
  let rest := 2 * (numerator % denominator)
  if denominator < rest ∨ (rest = denominator ∧ whole % 2 = 1) then whole + 1 else whole

def exponentOf (numerator denominator : Nat) : Int :=
  let guess : Int := (numerator.log2 : Int) - denominator.log2 - 52
  let (top, bottom) := scaled 2 (-guess) numerator denominator
  max leastExponent (if top / bottom < leastNormal then guess - 1 else guess)

def nearest (negative : Bool) (numerator denominator : Nat) : Option Binary64 :=
  if numerator = 0 then some ⟨negative, 0, leastExponent⟩
  else
    let exponent := exponentOf numerator denominator
    let (top, bottom) := scaled 2 (-exponent) numerator denominator
    let mantissa := roundHalfEven top bottom
    let (mantissa, exponent) :=
      if mantissa = mantissaEnd then (leastNormal, exponent + 1) else (mantissa, exponent)
    if greatestExponent < exponent then none else some ⟨negative, mantissa, exponent⟩

namespace Binary64

def quotient (x : Binary64) : Nat × Nat := scaled 2 x.exponent x.mantissa 1

def ofNatural (n : Nat) : Binary64 := (nearest false n 1).getD ⟨false, 0, leastExponent⟩

def timesPowerOfTen (x : Binary64) (power : Nat) : Option Binary64 :=
  (nearest false (Nat.pow 10 power) 1).bind fun factor =>
    let (top, bottom) := x.quotient
    let (factorTop, factorBottom) := factor.quotient
    nearest x.negative (top * factorTop) (bottom * factorBottom)

def overPowerOfTen (x : Binary64) (power : Nat) : Option Binary64 :=
  (nearest false (Nat.pow 10 power) 1).bind fun factor =>
    let (top, bottom) := x.quotient
    let (factorTop, factorBottom) := factor.quotient
    nearest x.negative (top * factorBottom) (bottom * factorTop)

end Binary64

/-- Powers far out of range are settled without computing them: `n` digits lie between `10 ^ (n - 1)` and `10
^ n`. -/
def ofDecimal (negative : Bool) (digits : Nat) (power : Int) : Option Binary64 :=
  let magnitude : Int := (Nat.toDigits 10 digits).length + power
  if digits = 0 ∨ magnitude < -400 then some ⟨negative, 0, leastExponent⟩
  else if 400 < magnitude then none
  else
    let (top, bottom) := scaled 10 power digits 1
    nearest negative top bottom

end PolicyDiagram.Decimal
