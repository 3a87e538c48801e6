import Bitcoin.Signature

/-! # Signatures in DER

A sequence of two integers, each with a tag, a length and the shortest content whose first bit is the
sign. Reading tolerates needless leading zeros, but neither octets after the sequence nor numbers that
no valid signature has.
-/

namespace Bitcoin.Signature

/-- Drop leading zeros, but not the last octet. -/
def trimZeros (octets : Bytes) : Bytes :=
  match octets.dropWhile (· = 0) with
  | [] => octets.drop (octets.length - 1)
  | trimmed => trimmed

/-- The content of an integer: no needless leading zero, but one in front of a set high bit. -/
def derContent (octets : Octets 32) : Bytes :=
  let trimmed := trimZeros octets.toList
  if 0x80 ≤ trimmed.headD 0 then 0 :: trimmed else trimmed

def derInteger (octets : Octets 32) : Bytes :=
  let content := derContent octets
  2 :: UInt8.ofNat content.length :: content

/-- The sequence of both numbers as they are stored. -/
def toDer (sig : Signature) : Bytes :=
  let content := derInteger sig.r ++ derInteger sig.s
  0x30 :: UInt8.ofNat content.length :: content

/-- The sequence followed by the octet that tells what was signed. -/
def toDerWithHashType (sig : Signature) (hashType : UInt8) : Bytes :=
  sig.toDer ++ [hashType]

/-- Split an integer off: its content and what follows. -/
def splitInteger? : Bytes → Option (Bytes × Bytes)
  | 2 :: length :: rest =>
      if 0 < length.toNat ∧ length.toNat ≤ rest.length then
        some (rest.take length.toNat, rest.drop length.toNat)
      else none
  | _ => none

/-- The 32 octets of an integer's content, with or without leading zeros. -/
def widen (content : Bytes) : Result (Octets 32) :=
  let trimmed := content.dropWhile (· = 0)
  if 32 < trimmed.length then .error (.invalidSignature .tooWide)
  else .ok (Octets.padLeft 32 trimmed)

/-- Refuse a number that is zero or not below the group order, whose octets it is compared with. -/
def checkRange (part : SignaturePart) (octets : Octets 32) : Result Unit :=
  if octets.toList.all (· = 0) then .error (.invalidSignature (.zero part))
  else if orderOctets.toList ≤ octets.toList then .error (.invalidSignature (.outOfRange part))
  else .ok ()

/-- Split the contents of both integers off a sequence. -/
def splitSequence (der : Bytes) : Except DerFault (Bytes × Bytes) :=
  if h : der.length < 8 then .error .tooShort
  else if der[0] ≠ 0x30 then .error .noSequence
  else if der[1].toNat + 2 ≠ der.length then .error .wrongTotal
  else match splitInteger? (der.drop 2) with
    | none => .error (.badInteger .r)
    | some (r, rest) =>
        match splitInteger? rest with
        | none => .error (.badInteger .s)
        | some (s, []) => .ok (r, s)
        | some (_, _ :: _) => .error .trailing

/-- Read a sequence without a hash type. -/
def ofDer (der : Bytes) : Result Signature := do
  let (r, s) ← (splitSequence der).mapError (.invalidSignature ∘ .malformed)
  let r ← widen r
  let s ← widen s
  checkRange .r r
  checkRange .s s
  return ⟨r, s⟩

end Bitcoin.Signature
