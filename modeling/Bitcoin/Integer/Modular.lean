import Bitcoin.Curve.Scalar

/-! # Arithmetic of integers

Integers of any size: reading them from text, division, arithmetic modulo a number of the caller's
choice, and the way to and from octets and scalars.
-/

namespace Bitcoin.Integer

/-- Read an integer in a radix from 2 to 36. -/
def parse (radix : Nat) (text : String) : Result Int :=
  if radix < 2 ∨ 36 < radix then .error (.arithmetic (.unsupportedRadix radix))
  else match ofText? radix text with
    | some x => .ok x
    | none => .error (.arithmetic (.notANumber radix text))

/-- The quotient rounded towards zero, and the remainder, which has the sign of the dividend. -/
def divideWithRemainder (x divisor : Int) : Result (Int × Int) :=
  if divisor = 0 then .error (.arithmetic .divisionByZero)
  else .ok (Int.tdiv x divisor, Int.tmod x divisor)

/-- The integer from zero up to the modulus that `x` is congruent to. -/
def modulo (x modulus : Int) : Result Int :=
  if 0 < modulus then .ok (x % modulus) else .error (.arithmetic (.nonPositiveModulus modulus))

def addMod (x y modulus : Int) : Result Int :=
  modulo (x + y) modulus

def subtractMod (x y modulus : Int) : Result Int :=
  modulo (x - y) modulus

def multiplyMod (x y modulus : Int) : Result Int :=
  modulo (x * y) modulus

/-- The inverse of an integer that has no divisor in common with the modulus. -/
def inverseMod (x modulus : Int) : Result Int := do
  let reduced ← modulo x modulus
  let found := bezout reduced.toNat modulus.toNat
  if found.gcd ≠ 1 then throw (.arithmetic (.notInvertible x modulus))
  modulo found.factor modulus

def divideMod (x y modulus : Int) : Result Int := do
  multiplyMod x (← inverseMod y modulus) modulus

/-- The shortest octets of the magnitude; zero has none. -/
def toBytes (x : Int) : Bytes :=
  Bytes.ofNat x.natAbs

def ofBytes (bs : Bytes) : Int :=
  Bytes.toNat bs

/-- The 32 octets of an integer that is not negative and fits. -/
def toOctets32 (x : Int) : Result (Octets 32) :=
  if x < 0 then .error (.arithmetic .negativeOctets)
  else if 32 < (toBytes x).length then .error (.arithmetic .tooWide)
  else .ok (Octets.padLeft 32 (toBytes x))

/-- The scalar of an integer from zero up to the group order. -/
def toScalar (x : Int) : Result Scalar := do
  Scalar.ofBytes (← toOctets32 x).toList

def ofScalar (k : Scalar) : Int :=
  k.val

/-- An integer among other values: its text in radix sixteen. -/
def describe (x : Int) : String :=
  s!"BigNumber(0x{toHex x})"

end Bitcoin.Integer
