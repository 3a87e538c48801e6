import Bitcoin.Hash.Sha2

/-! # Keyed hashes

HMAC over any hash function: the key, brought to the length of a block, is mixed into two nested
hashes.
-/

namespace Bitcoin.Hash

/-- The key as one block: hashed if it is too long, then followed by zeros. -/
def hmacKey {n : Nat} (hash : Bytes → Octets n) (blockSize : Nat) (key : Bytes) : Bytes :=
  let short := if blockSize < key.length then (hash key).toList else key
  short ++ List.replicate (blockSize - short.length) 0

def hmac {n : Nat} (hash : Bytes → Octets n) (blockSize : Nat) (key message : Bytes) : Octets n :=
  let block := hmacKey hash blockSize key
  let inner := hash (block.map (· ^^^ 0x36) ++ message)
  hash (block.map (· ^^^ 0x5c) ++ inner.toList)

def hmacSha256 (key message : Bytes) : Octets 32 :=
  hmac sha256 64 key message

def hmacSha512 (key message : Bytes) : Octets 64 :=
  hmac sha512 128 key message

end Bitcoin.Hash
