import Bitcoin.Bytes.Number
import Bitcoin.Curve.Parameters
import Bitcoin.Text.Hex

/-! # Canonical encodings

Strict checks of the shape of public keys and of signatures with their hash type. Only octets are
looked at: a key that passes may be off the curve, and a signature that passes may not verify.
-/

namespace Bitcoin

inductive SignaturePart where
  | r
  | s
  deriving DecidableEq, Repr

def SignaturePart.name : SignaturePart → String
  | .r => "R"
  | .s => "S"

namespace Canonical

inductive Fault where
  /-- The public key has a length that its first octet does not go with. -/
  | keyLength (length : Nat)
  /-- The public key starts with an octet that marks no form. -/
  | keyTag (octet : UInt8)
  | tooShort (length : Nat)
  | tooLong (length : Nat)
  | undefinedHashType (octet : UInt8)
  | wrongTag
  | wrongTotal
  /-- The length of `s` would lie behind the end. -/
  | misplacedS
  | lengthMismatch
  | notInteger (part : SignaturePart)
  | empty (part : SignaturePart)
  | negative (part : SignaturePart)
  /-- A number has a leading zero that its sign does not need. -/
  | padded (part : SignaturePart)
  | highS
  deriving DecidableEq, Repr

def Fault.message : Fault → String
  | .keyLength length => s!"public key has wrong length {length}"
  | .keyTag octet => s!"public key has unknown prefix {Hex.octet octet}"
  | .tooShort length => s!"signature too short ({length} bytes)"
  | .tooLong length => s!"signature too long ({length} bytes)"
  | .undefinedHashType octet => s!"undefined hash type {Hex.octet octet}"
  | .wrongTag => "wrong sequence tag"
  | .wrongTotal => "sequence length does not match signature size"
  | .misplacedS => "S length is misplaced"
  | .lengthMismatch => "R and S lengths do not add up to the signature size"
  | .notInteger part => s!"{part.name} is not an integer"
  | .empty part => s!"{part.name} has zero length"
  | .negative part => s!"{part.name} is negative"
  | .padded part => s!"{part.name} has excess padding"
  | .highS => "S is above half the group order"

/-- Check that a public key has 33 octets and starts with 2 or 3, or has 65 and starts with 4. -/
def checkPublicKey (key : Bytes) : Except Fault Unit :=
  if h : key.length < 33 then .error (.keyLength key.length)
  else if key[0] = 4 then
    if key.length = 65 then .ok () else .error (.keyLength key.length)
  else if key[0] = 2 ∨ key[0] = 3 then
    if key.length = 33 then .ok () else .error (.keyLength key.length)
  else .error (.keyTag key[0])

/-- Without its high bit, a hash type is 1, 2 or 3. -/
def isDefinedHashType (octet : UInt8) : Bool :=
  let base := octet &&& 0x7f
  1 ≤ base ∧ base ≤ 3

/-- Check the content of an integer: not empty, not negative, and without a needless leading zero. -/
def checkInteger (part : SignaturePart) : Bytes → Except Fault Unit
  | [] => .error (.empty part)
  | first :: rest =>
      if 0x80 ≤ first then .error (.negative part)
      else match first, rest with
        | 0, second :: _ => if second < 0x80 then .error (.padded part) else .ok ()
        | _, _ => .ok ()

/-- Check the tag and then the content of an integer. -/
def checkElement (part : SignaturePart) (tag : UInt8) (content : Bytes) : Except Fault Unit :=
  if tag = 2 then checkInteger part content else .error (.notInteger part)

/-- Check a signature with its hash type, and on demand that `s` is low. The octets are a sequence tag
    and length, for each number a tag, a length and the content, and the hash type. -/
def checkSignature (sig : Bytes) (requireLowS : Bool) : Except Fault Unit :=
  if h : sig.length < 9 then .error (.tooShort sig.length)
  else if 73 < sig.length then .error (.tooLong sig.length)
  else if ¬ isDefinedHashType sig[sig.length - 1] then
    .error (.undefinedHashType sig[sig.length - 1])
  else if sig[0] ≠ 0x30 then .error .wrongTag
  else if sig[1].toNat ≠ sig.length - 3 then .error .wrongTotal
  else if hs : sig.length ≤ 5 + sig[3].toNat then .error .misplacedS
  else
    let lengthR := sig[3].toNat
    let lengthS := sig[5 + sig[3].toNat].toNat
    let r := (sig.drop 4).take lengthR
    let s := (sig.drop (6 + lengthR)).take lengthS
    if lengthR + lengthS + 7 ≠ sig.length then .error .lengthMismatch
    else do
      checkElement .r sig[2] r
      checkElement .s sig[4 + sig[3].toNat] s
      if requireLowS ∧ halfOrder < Bytes.toNat s then throw .highS

end Canonical

end Bitcoin
