import Bitcoin.KeyPair

/-! # Wallet import format

A secret as Base58Check text: an octet for the network, the 32 octets of the secret, and one more octet
if its public key is compressed.
-/

namespace Bitcoin.KeyPair

def toWif (key : KeyPair) (network : Network) : Result String := do
  let secret ← key.requireSecret
  let marker : Bytes := if key.compressed then [1] else []
  return Base58Check.encode (network.secretVersion :: secret.toOctets.toList ++ marker)

/-- Whether the payload of a secret marks its public key as compressed. -/
def wifForm (payload : Bytes) : Except WifFault Bool :=
  if payload.length = 33 then .ok false
  else if payload.length = 34 ∧ payload.getLast? = some 1 then .ok true
  else .error (.payloadLength payload.length)

/-- Read the text of a secret for either network. -/
def ofWif (text : String) : Result (KeyPair × Network) := do
  let payload ← Base58Check.decode text
  match payload.head?.bind Network.ofSecretVersion? with
  | none => throw (.invalidWif .unknownNetwork)
  | some network =>
      let compressed ← (wifForm payload).mapError .invalidWif
      let key ← ofSecret ((payload.drop 1).take 32)
      return (key.withCompressed compressed, network)

end Bitcoin.KeyPair
