import Bitcoin.Curve.Encoding
import Bitcoin.Signature
import Bitcoin.Signature.Nonce

/-! # Signing, verifying and recovering

A signature of `z` by the secret `d` is made of the first coordinate `r` of the nonce's point and of
`s = (z + r d) / k`. Anyone verifies it with the point `d G`, and finds that point from the signature
when told which of up to four points has the coordinate `r`.
-/

namespace Bitcoin

/-- Which of the points whose first coordinate is `r` modulo the group order belongs to a signature. -/
structure RecoveryId where
  oddY : Bool
  /-- The first coordinate is not below the group order. -/
  overflow : Bool
  deriving DecidableEq, Repr

namespace RecoveryId

/-- The number from zero to three. -/
def toOctet (id : RecoveryId) : UInt8 :=
  (if id.overflow then 2 else 0) + (if id.oddY then 1 else 0)

/-- The two low bits of an octet. -/
def ofOctet (octet : UInt8) : RecoveryId :=
  { oddY := octet &&& 1 ≠ 0, overflow := octet &&& 2 ≠ 0 }

def mirror (id : RecoveryId) : RecoveryId :=
  { id with oddY := !id.oddY }

end RecoveryId

namespace Ecdsa

/-- The first coordinate of a point modulo the group order. -/
def xScalar? : Point → Option Scalar
  | .infinity => none
  | .affine x _ => some (Fin.ofNat groupOrder x.val)

/-- A low-`s` signature of a hash with a given nonce. -/
def signWith? (secret nonce : Scalar) (hash : Octets 32) : Option (Signature × RecoveryId) :=
  match Point.generator.multiply nonce with
  | .infinity => none
  | .affine x y =>
      let r : Scalar := Fin.ofNat groupOrder x.val
      let s := nonce.inverse * (Scalar.reduce hash + r * secret)
      let id : RecoveryId := { oddY := y.isOdd, overflow := groupOrder ≤ x.val }
      if r = 0 ∨ s = 0 then none
      else if s.isHigh then some (Signature.ofScalars r (-s), id.mirror)
      else some (Signature.ofScalars r s, id)

/-- The low-`s` signature of a hash with the nonce that secret and hash determine. There is none if no nonce is
    found, or if the nonce gives a zero. -/
def sign? (secret : Scalar) (hash : Octets 32) : Option (Signature × RecoveryId) := do
  signWith? secret (← Nonce.derive? secret hash) hash

/-- The point whose first coordinate a valid signature repeats: `(z / s) G + (r / s) Q`. -/
def witness (q : Point) (r s z : Scalar) : Point :=
  let w := s.inverse
  (Point.generator.multiply (z * w)).add (q.multiply (r * w))

/-- Whether a signature of a hash is valid for a point, which infinity never is. -/
def verify (q : Point) (sig : Signature) (hash : Octets 32) : Bool :=
  match sig.normalizeS.components? with
  | none => false
  | some (r, s) => q ≠ .infinity ∧ xScalar? (witness q r s (Scalar.reduce hash)) = some r

/-- The coordinate that a recovery id and `r` name, when it is one. -/
def restoreX? (r : Scalar) (overflow : Bool) : Option FieldElement :=
  let x := if overflow then r.val + groupOrder else r.val
  if h : x < fieldPrime then some ⟨x, h⟩ else none

/-- The point for which a signature of a hash is valid and which the recovery id singles out. -/
def recover? (sig : Signature) (id : RecoveryId) (hash : Octets 32) : Option Point := do
  let (r, s) ← sig.components?
  let (s, id) := if s.isHigh then (-s, id.mirror) else (s, id)
  let nonce ← Point.lift? (← restoreX? r id.overflow) id.oddY
  let w := r.inverse
  let q := (Point.generator.multiply (-(w * Scalar.reduce hash))).add (nonce.multiply (w * s))
  if verify q (Signature.ofScalars r s) hash then some q else none

end Ecdsa

end Bitcoin
