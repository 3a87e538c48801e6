import Bitcoin.Error
import Bitcoin.Hash.Double

/-! # Base58 text with a checksum

A payload is followed by the first four octets of its double SHA-256 and written in Base58. Addresses,
secrets in wallet import format and extended keys are texts of this kind.
-/

namespace Bitcoin.Base58Check

/-- The four octets that follow a payload. -/
def checksum (payload : Bytes) : Bytes :=
  (Hash.sha256d payload).toList.take 4

def encode (payload : Bytes) : String :=
  Base58.encode (payload ++ checksum payload)

/-- The payload of a text whose last four octets are its checksum. -/
def decode (text : String) : Result Bytes := do
  let octets ← (Base58.decode text).mapError .invalidBase58
  if octets.length < 4 then throw (.invalidBase58 .noChecksum)
  let payload := octets.take (octets.length - 4)
  if octets.drop (octets.length - 4) ≠ checksum payload then throw .checksumMismatch
  return payload

end Bitcoin.Base58Check
