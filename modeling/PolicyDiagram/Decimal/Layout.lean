import PolicyDiagram.Decimal.Shortest

/-!
Texts of decimals. A layout says where positional notation ends; the point always has a digit on both
sides, and an exponent is written with its sign.
-/

namespace PolicyDiagram.Decimal

structure Layout where
  positional : Int → Bool

def Layout.plain : Layout := ⟨fun _ => true⟩

def Layout.compact : Layout := ⟨fun point => -5 < point && point ≤ 16⟩

def Digits.positional (d : Digits) : List Char :=
  if d.point ≤ 0 then ['0', '.'] ++ List.replicate d.point.natAbs '0' ++ d.digits
  else if d.digits.length ≤ d.point.toNat then
    d.digits ++ List.replicate (d.point.toNat - d.digits.length) '0' ++ ['.', '0']
  else d.digits.take d.point.toNat ++ ['.'] ++ d.digits.drop d.point.toNat

def Digits.scientific (d : Digits) : List Char :=
  let fraction := d.digits.drop 1
  d.digits.take 1 ++ (if fraction.isEmpty then [] else '.' :: fraction) ++
    ['e', if d.point ≤ 0 then '-' else '+'] ++ (toString (d.point - 1).natAbs).toList

def Binary64.text (layout : Layout) (x : Binary64) : String :=
  let d := shortest x
  let magnitude := if layout.positional d.point then d.positional else d.scientific
  String.ofList (if x.negative then '-' :: magnitude else magnitude)

example : (Binary64.ofNatural (Nat.pow 10 16)).text .plain = "10000000000000000.0" := by decide +kernel

example : (Binary64.ofNatural (Nat.pow 10 16)).text .compact = "1e+16" := by decide +kernel

example : (ofDecimal true 125 (-8)).map (·.text .compact) = some "-1.25e-6" := by decide +kernel

end PolicyDiagram.Decimal
