import Bitcoin.Curve.Parameters
import Bitcoin.Integer.Bezout

/-! # Coordinates

Elements of the field that the curve is defined over. Sums, differences, opposites and products are
those of the integers modulo the prime; inverses come from Euclid's algorithm, square roots from a
power, which is one because the prime is three modulo four.
-/

namespace Bitcoin

/-- The representative below `modulus` of an inverse of `a`, when there is one. -/
def inverseBelow (modulus a : Nat) : Nat :=
  ((bezout a modulus).factor % modulus).toNat

/-- An integer modulo the field prime. -/
abbrev FieldElement := Fin fieldPrime

namespace FieldElement

def inverse (a : FieldElement) : FieldElement :=
  Fin.ofNat fieldPrime (inverseBelow fieldPrime a.val)

def power (a : FieldElement) (exponent : Nat) : FieldElement :=
  if _h : exponent = 0 then 1
  else
    let squared := power (a * a) (exponent / 2)
    if exponent % 2 = 1 then squared * a else squared
termination_by exponent
decreasing_by omega

/-- A square root, when the element has one. -/
def sqrt? (a : FieldElement) : Option FieldElement :=
  let root := a.power ((fieldPrime + 1) / 4)
  if root * root = a then some root else none

def isOdd (a : FieldElement) : Bool :=
  a.val % 2 = 1

end FieldElement

end Bitcoin
