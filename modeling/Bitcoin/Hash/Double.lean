import Bitcoin.Hash.Ripemd160
import Bitcoin.Hash.Sha2

/-! # Composed hashes

Checksums, transaction ids and signature hashes use SHA-256 twice; keys are identified by RIPEMD-160
of SHA-256.
-/

namespace Bitcoin.Hash

def sha256d (message : Bytes) : Octets 32 :=
  sha256 (sha256 message).toList

def hash160 (message : Bytes) : Octets 20 :=
  ripemd160 (sha256 message).toList

end Bitcoin.Hash
