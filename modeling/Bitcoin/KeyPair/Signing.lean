import Bitcoin.KeyPair
import Bitcoin.Signature.Der
import Bitcoin.Signature.Ecdsa

/-! # Signing with key pairs

Deterministic low-`s` signatures of hashes, alone, with a hash type, or in the compact form from which
the signer can be recovered: a header octet and both numbers.
-/

namespace Bitcoin.KeyPair

def signingSecret (key : KeyPair) : Result Scalar := do
  let secret ← key.requireSecret
  if secret = 0 then throw (.invalidKey .zeroSigner)
  return secret

/-- Sign a hash, and tell which point the signer is recovered from. -/
def signRecoverable (key : KeyPair) (hash : Octets 32) : Result (Signature × RecoveryId) := do
  let secret ← key.signingSecret
  match Ecdsa.sign? secret hash with
  | some signed => return signed
  | none => throw (.invalidSignature .unsolvable)

def sign (key : KeyPair) (hash : Octets 32) : Result Signature := do
  return (← key.signRecoverable hash).1

/-- Sign a hash and write the signature in DER, followed by a hash type. -/
def signWithHashType (key : KeyPair) (hash : Octets 32) (hashType : UInt8) : Result Bytes := do
  return (← key.sign hash).toDerWithHashType hashType

/-- Whether a signature of a hash is valid for the point. A high `s` is no obstacle. -/
def verify (key : KeyPair) (sig : Signature) (hash : Octets 32) : Bool :=
  Ecdsa.verify key.point sig hash

/-- Whether a signature in DER is valid for the point. -/
def verifyDer (key : KeyPair) (der : Bytes) (hash : Octets 32) : Bool :=
  match Signature.ofDer der with
  | .ok sig => key.verify sig hash
  | .error _ => false

/-- The header of a compact signature: 27, the recovery id, and four more for a compressed key. -/
def compactHeader (id : RecoveryId) (compressed : Bool) : UInt8 :=
  27 + id.toOctet + (if compressed then 4 else 0)

def signCompact (key : KeyPair) (hash : Octets 32) : Result Bytes := do
  let (sig, id) ← key.signRecoverable hash
  return compactHeader id key.compressed :: sig.r.toList ++ sig.s.toList

/-- The recovery id and the form of the key that a header stands for. -/
def readHeader (header : UInt8) : Except SignatureFault (RecoveryId × Bool) :=
  if 27 ≤ header ∧ header < 35 then
    let flags := header - 27
    .ok (RecoveryId.ofOctet flags, flags &&& 4 ≠ 0)
  else .error (.compactHeader header)

def readCompact (compact : Bytes) : Except SignatureFault (Signature × RecoveryId × Bool) :=
  if h : compact.length = 65 then do
    let (id, compressed) ← readHeader compact[0]
    let numbers : Octets (32 + 32) := ⟨compact.drop 1, by simp [h]⟩
    return (⟨numbers.left, numbers.right⟩, id, compressed)
  else .error (.compactLength compact.length)

/-- The public key of whoever signed a hash in compact form. -/
def recoverCompact (compact : Bytes) (hash : Octets 32) : Result KeyPair := do
  let (sig, id, compressed) ← (readCompact compact).mapError .invalidSignature
  match Ecdsa.recover? sig id hash with
  | none => throw (.invalidSignature .unsolvable)
  | some point => return (← ofPoint point).withCompressed compressed

/-- Whether a compact signature of a hash comes from this pair's secret. -/
def isValidCompact (key : KeyPair) (compact : Bytes) (hash : Octets 32) : Bool :=
  match recoverCompact compact hash with
  | .ok signer => signer.point = key.point
  | .error _ => false

end Bitcoin.KeyPair
