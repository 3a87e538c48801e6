import Bitcoin.Integer.Text
import Bitcoin.Signature.Canonical
import Bitcoin.Text.Base58

/-! # Errors

Every way in which an operation on keys, numbers, signatures or encodings fails. A cause is a value;
its wording is in `message` alone.
-/

namespace Bitcoin

/-- Why arithmetic has no result. -/
inductive ArithmeticFault where
  | unsupportedRadix (radix : Nat)
  | notANumber (radix : Nat) (text : String)
  | negativeOctets
  | tooWide
  | divisionByZero
  | nonPositiveModulus (modulus : Int)
  | notInvertible (x modulus : Int)
  | zeroScalar
  deriving DecidableEq, Repr

inductive KeyFault where
  | scalarLength (length : Nat)
  | scalarRange
  /-- The octets have no length and first octet of a point. -/
  | malformedPoint (length : Nat)
  | offCurve
  | infinityEncoding
  | zeroSecret
  | infinityKey
  | zeroSigner
  deriving DecidableEq, Repr

inductive DerFault where
  | tooShort
  | noSequence
  | wrongTotal
  | badInteger (part : SignaturePart)
  | trailing
  deriving DecidableEq, Repr

/-- Why something is not a signature, or a signature has no answer. -/
inductive SignatureFault where
  | malformed (fault : DerFault)
  | tooWide
  | zero (part : SignaturePart)
  | outOfRange (part : SignaturePart)
  | compactLength (length : Nat)
  | compactHeader (octet : UInt8)
  /-- The equations of the signature have no solution, or no nonce was found for them. -/
  | unsolvable
  deriving DecidableEq, Repr

/-- Why 78 octets are not an extended key. -/
inductive ExtendedKeyFault where
  /-- A master key with a parent or an index. -/
  | masterWithParent
  /-- A private key without its leading zero octet. -/
  | privateMarker
  /-- A public key that is not compressed. -/
  | publicMarker
  deriving DecidableEq, Repr

/-- Why a payload is not that of a secret in wallet import format. -/
inductive WifFault where
  | unknownNetwork
  | payloadLength (length : Nat)
  deriving DecidableEq, Repr

inductive Error where
  | arithmetic (fault : ArithmeticFault)
  | invalidKey (fault : KeyFault)
  | noSecretKey
  | invalidSignature (fault : SignatureFault)
  | cleared
  | hardenedNeedsSecret
  /-- The child at this index does not exist; the next index has one with near certainty. -/
  | invalidChild (index : UInt32)
  | maxDepthExceeded
  | unsupportedVersion (version : Octets 4)
  | invalidChildIndex (index : UInt32)
  | extendedKeyLength (length : Nat)
  | invalidExtendedKey (fault : ExtendedKeyFault)
  | invalidPath (path : String)
  | keyNotFound (limit : UInt32)
  | nonCanonical (fault : Canonical.Fault)
  | invalidWif (fault : WifFault)
  | invalidHex (fault : Hex.Fault)
  | invalidBase58 (fault : Base58.Fault)
  | checksumMismatch
  | unexpectedEnd
  deriving DecidableEq

namespace ArithmeticFault

def message : ArithmeticFault → String
  | .unsupportedRadix radix => s!"unsupported radix {radix}"
  | .notANumber radix text => s!"invalid base-{radix} number: {Quoted.text text}"
  | .negativeOctets => "negative value has no 32-byte form"
  | .tooWide => "value exceeds 256 bits"
  | .divisionByZero => "division by zero"
  | .nonPositiveModulus modulus => s!"modulus must be positive, got {Integer.toDecimal modulus}"
  | .notInvertible x modulus =>
      s!"{Integer.toHex x} has no inverse modulo {Integer.toHex modulus}"
  | .zeroScalar => "zero has no inverse modulo n"

end ArithmeticFault

namespace KeyFault

def message : KeyFault → String
  | .scalarLength length => s!"scalar must be 32 bytes, got {length}"
  | .scalarRange => "scalar is not below the group order"
  | .malformedPoint length => s!"malformed public key encoding ({length} bytes)"
  | .offCurve => "point is not on the curve"
  | .infinityEncoding => "point at infinity has no encoding"
  | .zeroSecret => "secret is zero"
  | .infinityKey => "public point is at infinity"
  | .zeroSigner => "zero scalar cannot sign"

end KeyFault

namespace DerFault

def message : DerFault → String
  | .tooShort => "too short"
  | .noSequence => "missing sequence tag"
  | .wrongTotal => "sequence length does not match"
  | .badInteger part => s!"bad {part.name} integer"
  | .trailing => "trailing bytes"

end DerFault

namespace SignatureFault

def message : SignatureFault → String
  | .malformed fault => s!"malformed DER: {fault.message}"
  | .tooWide => "integer wider than 32 bytes"
  | .zero part => s!"signature {part.name} is zero"
  | .outOfRange part => s!"signature {part.name} is >= n"
  | .compactLength length => s!"compact signature must be 65 bytes, got {length}"
  | .compactHeader octet => s!"bad compact header {Hex.octet octet}"
  | .unsolvable => "signature error"

end SignatureFault

namespace ExtendedKeyFault

def message : ExtendedKeyFault → String
  | .masterWithParent => "master key with non-zero parent fingerprint or index"
  | .privateMarker => "private key data must start with 0x00"
  | .publicMarker => "public key data must be compressed"

end ExtendedKeyFault

namespace WifFault

def message : WifFault → String
  | .unknownNetwork => "unknown prefix"
  | .payloadLength length => s!"unexpected length {length}"

end WifFault

namespace Error

def message : Error → String
  | .arithmetic fault => s!"arithmetic error: {fault.message}"
  | .invalidKey fault => s!"invalid key: {fault.message}"
  | .noSecretKey => "operation requires a secret key"
  | .invalidSignature fault => s!"invalid signature: {fault.message}"
  | .cleared => "keychain has been cleared"
  | .hardenedNeedsSecret => "hardened derivation requires a private key"
  | .invalidChild index => s!"invalid child at index {index}, retry with the next index"
  | .maxDepthExceeded => "maximum derivation depth exceeded"
  | .unsupportedVersion version =>
      s!"unsupported extended key version: {Hex.encode version.toList}"
  | .invalidChildIndex index => s!"child index {index} exceeds 0x7fffffff"
  | .extendedKeyLength length => s!"invalid extended key length: expected 78, got {length}"
  | .invalidExtendedKey fault => s!"invalid extended key: {fault.message}"
  | .invalidPath path => s!"invalid derivation path: {path}"
  | .keyNotFound limit => s!"no matching child within {limit} indices"
  | .nonCanonical fault => s!"non-canonical encoding: {fault.message}"
  | .invalidWif fault => s!"invalid WIF: {fault.message}"
  | .invalidHex fault => s!"invalid hex: {fault.message}"
  | .invalidBase58 fault => s!"invalid base58: {fault.message}"
  | .checksumMismatch => "checksum mismatch"
  | .unexpectedEnd => "unexpected end of data"

/-- Whether trying the next child index is worth while. -/
def isRetryable : Error → Bool
  | .invalidChild _ => true
  | _ => false

end Error

/-- A value, or why there is none. -/
abbrev Result (α : Type) := Except Error α

end Bitcoin
