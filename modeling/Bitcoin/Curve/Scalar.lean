import Bitcoin.Curve.Field
import Bitcoin.Error

/-! # Scalars

Integers modulo the group order: secrets, nonces and the factors of points. Sums, differences,
opposites and products are those of `Fin groupOrder`.
-/

namespace Bitcoin

/-- An integer modulo the group order. -/
abbrev Scalar := Fin groupOrder

namespace Scalar

def ofInt (x : Int) : Scalar :=
  Fin.ofNat groupOrder (x % groupOrder).toNat

/-- Read 32 octets whose value is below the group order. -/
def ofBytes (bs : Bytes) : Result Scalar :=
  if bs.length ≠ 32 then .error (.invalidKey (.scalarLength bs.length))
  else if h : Bytes.toNat bs < groupOrder then .ok ⟨Bytes.toNat bs, h⟩
  else .error (.invalidKey .scalarRange)

/-- The scalar that the value of 32 octets is congruent to. -/
def reduce (octets : Octets 32) : Scalar :=
  Fin.ofNat groupOrder octets.toNat

def toOctets (k : Scalar) : Octets 32 :=
  Octets.ofNat 32 k.val

def inverse (k : Scalar) : Scalar :=
  Fin.ofNat groupOrder (inverseBelow groupOrder k.val)

/-- The inverse, which zero lacks. -/
def invert (k : Scalar) : Result Scalar :=
  if k = 0 then .error (.arithmetic .zeroScalar) else .ok k.inverse

/-- The quotient of two scalars, the second one not zero. -/
def divide (a b : Scalar) : Result Scalar := do
  return a * (← b.invert)

def isHigh (k : Scalar) : Bool :=
  halfOrder < k.val

/-- A scalar shows nothing of itself, since it may be a secret. -/
def describe (_k : Scalar) : String :=
  "CurveScalar(..)"

end Scalar

end Bitcoin
