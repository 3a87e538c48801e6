import Bitcoin.KeyPair.Signing
import Bitcoin.Wire.VarInt

/-! # Signed messages

A message is signed in compact form over the hash of a fixed phrase and the message, each after its
length.
-/

namespace Bitcoin

namespace Message

/-- The phrase that keeps signed messages apart from signed transactions. -/
def magic : Bytes :=
  "Bitcoin Signed Message:\n".toList.map fun c => UInt8.ofNat c.toNat

def hash (message : Bytes) : Octets 32 :=
  Hash.sha256d (Wire.varBytes magic ++ Wire.varBytes message)

end Message

namespace KeyPair

def signMessage (key : KeyPair) (message : Bytes) : Result Bytes :=
  key.signCompact (Message.hash message)

/-- The public key of whoever signed a message. -/
def recoverMessageSigner (compact message : Bytes) : Result KeyPair :=
  recoverCompact compact (Message.hash message)

/-- Whether a message was signed by this pair, with a public key of the same form and so from the same
    address. -/
def verifyMessage (key : KeyPair) (compact message : Bytes) : Bool :=
  match recoverMessageSigner compact message with
  | .ok signer => signer.point = key.point ∧ signer.compressed = key.compressed
  | .error _ => false

end KeyPair

end Bitcoin
