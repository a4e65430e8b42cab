import PolicyDiagram.Decimal.Binary64

/-!
The shortest decimal of a binary number: the fewest significant digits that read back as the same number,
and of several such decimals the nearest one.
-/

namespace PolicyDiagram.Decimal

structure Digits where
  digits : List Char
  point : Int
deriving DecidableEq, Repr

/-- The reals that round to a positive number, over one denominator. The ends are among them if the mantissa
is even. -/
structure Interval where
  value : Nat
  low : Nat
  high : Nat
  denominator : Nat
  closed : Bool

def Binary64.interval (x : Binary64) : Interval :=
  let gap := if x.mantissa = leastNormal ∧ leastExponent < x.exponent then 1 else 2
  let (unit, denominator) := scaled 2 (x.exponent - 2) 1 1
  { value := 4 * x.mantissa * unit
    low := (4 * x.mantissa - gap) * unit
    high := (4 * x.mantissa + 2) * unit
    denominator
    closed := x.mantissa % 2 = 0 }

namespace Interval

def contains (interval : Interval) (power : Int) (n : Nat) : Bool :=
  let (top, bottom) := scaled 10 power n 1
  let point := top * interval.denominator
  if interval.closed then interval.low * bottom ≤ point && point ≤ interval.high * bottom
  else interval.low * bottom < point && point < interval.high * bottom

def nearestOn (interval : Interval) (power : Int) : Option Nat :=
  let (top, bottom) := scaled 10 (-power) interval.value interval.denominator
  let below := top / bottom
  let nearer := roundHalfEven top bottom
  let farther := if nearer = below then below + 1 else below
  if interval.contains power nearer then some nearer
  else if interval.contains power farther then some farther
  else none

end Interval

/-- The least `k` with `numerator / denominator < 10 ^ k`. The fuel bounds the zeros after the point. -/
def pointOf (numerator denominator : Nat) : Nat → Int
  | 0 => 0
  | fuel + 1 =>
    if denominator ≤ numerator then (Nat.toDigits 10 (numerator / denominator)).length
    else if denominator ≤ 10 * numerator then 0
    else pointOf (10 * numerator) denominator fuel - 1

def Digits.ofGrid (n : Nat) (power : Int) : Digits :=
  let digits := Nat.toDigits 10 n
  { digits := (digits.reverse.dropWhile (· == '0')).reverse, point := digits.length + power }

def shortestFrom (interval : Interval) (point : Int) (count : Nat) : Nat → Digits
  | 0 => ⟨['0'], 1⟩
  | fuel + 1 =>
    match interval.nearestOn (point - count) with
    | some n => .ofGrid n (point - count)
    | none => shortestFrom interval point (count + 1) fuel

def shortest (x : Binary64) : Digits :=
  if x.mantissa = 0 then ⟨['0'], 1⟩
  else
    let interval := x.interval
    shortestFrom interval (pointOf interval.value interval.denominator 400) 1 18

end PolicyDiagram.Decimal
