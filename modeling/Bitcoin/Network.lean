import Bitcoin.Error

/-! # Networks

The only thing that tells networks apart is which octets stand in front of addresses, secrets and
extended keys.
-/

namespace Bitcoin

inductive Network where
  | mainnet
  | testnet
  deriving DecidableEq, Repr

namespace Network

instance : Inhabited Network := ⟨.mainnet⟩

/-- The four octets in front of a private or public extended key. -/
def extendedKeyVersion : Network → Bool → Octets 4
  | .mainnet, true => Octets.ofNat 4 0x0488ade4
  | .mainnet, false => Octets.ofNat 4 0x0488b21e
  | .testnet, true => Octets.ofNat 4 0x04358394
  | .testnet, false => Octets.ofNat 4 0x043587cf

/-- The network of the octets in front of an extended key, and whether the key is private. -/
def ofExtendedKeyVersion (version : Octets 4) : Result (Network × Bool) :=
  if version = extendedKeyVersion .mainnet true then .ok (.mainnet, true)
  else if version = extendedKeyVersion .mainnet false then .ok (.mainnet, false)
  else if version = extendedKeyVersion .testnet true then .ok (.testnet, true)
  else if version = extendedKeyVersion .testnet false then .ok (.testnet, false)
  else .error (.unsupportedVersion version)

/-- The octet in front of a secret in wallet import format. -/
def secretVersion : Network → UInt8
  | .mainnet => 0x80
  | .testnet => 0xef

/-- The network of the octet in front of a secret. -/
def ofSecretVersion? (octet : UInt8) : Option Network :=
  if octet = secretVersion .mainnet then some .mainnet
  else if octet = secretVersion .testnet then some .testnet
  else none

/-- The octet in front of the key hash of an address. -/
def addressVersion : Network → UInt8
  | .mainnet => 0x00
  | .testnet => 0x6f

/-- The network of the octet in front of a key hash. -/
def ofAddressVersion? (octet : UInt8) : Option Network :=
  if octet = addressVersion .mainnet then some .mainnet
  else if octet = addressVersion .testnet then some .testnet
  else none

end Network

end Bitcoin
