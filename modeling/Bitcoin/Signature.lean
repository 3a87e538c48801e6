import Bitcoin.Bytes.Subtract
import Bitcoin.Curve.Scalar

/-! # Signatures

A signature is a pair of numbers of 32 octets. The octets may hold any value; `components?` tells
whether both are possible in a valid signature. Of `s` and `n - s`, which are valid together, the
smaller one is called low.
-/

namespace Bitcoin

/-- The numbers `r` and `s`, as octets. -/
structure Signature where
  r : Octets 32
  s : Octets 32
  deriving DecidableEq

namespace Signature

def orderOctets : Octets 32 :=
  Octets.ofNat 32 groupOrder

/-- Whether `s` is at most half the group order. -/
def isLowS (sig : Signature) : Bool :=
  sig.s.toNat ≤ halfOrder

/-- The same signature with `n - s` for an `s` that is not low. -/
def normalizeS (sig : Signature) : Signature :=
  if sig.isLowS then sig else { sig with s := orderOctets.subtract sig.s }

/-- The scalar of octets whose value is from one up to the group order. -/
def component? (octets : Octets 32) : Option Scalar :=
  if h : octets.toNat < groupOrder then
    if octets.toNat = 0 then none else some ⟨octets.toNat, h⟩
  else none

/-- Both numbers as scalars, when neither is zero or too large. -/
def components? (sig : Signature) : Option (Scalar × Scalar) := do
  return (← component? sig.r, ← component? sig.s)

def ofScalars (r s : Scalar) : Signature :=
  ⟨r.toOctets, s.toOctets⟩

end Signature

end Bitcoin
