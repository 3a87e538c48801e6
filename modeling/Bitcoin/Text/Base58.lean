import Bitcoin.Bytes.Number
import Bitcoin.Text.Hex

/-! # Base58 text

An octet string as a number in base 58, over an alphabet without `0`, `O`, `I` and `l`. Every leading
zero octet is one leading `1`, so no octet is lost.
-/

namespace Bitcoin.Base58

/-- Why a text is not Base58, or what it holds is not what was asked for. -/
inductive Fault where
  | badCharacter (character : Char) (position : Nat)
  | nonAscii (position : Nat)
  | noChecksum
  /-- The payload of an address has another length than a version and a hash. -/
  | addressLength (length : Nat)
  /-- The version octet belongs to no address of a key hash. -/
  | addressVersion (version : UInt8)
  deriving DecidableEq, Repr

def Fault.message : Fault → String
  | .badCharacter c position =>
      s!"provided string contained invalid character {Quoted.character c} at byte {position}"
  | .nonAscii position =>
      s!"provided string contained non-ascii character starting at byte {position}"
  | .noChecksum => "data too short for checksum"
  | .addressLength length => s!"address payload must be 21 bytes, got {length}"
  | .addressVersion version => s!"version byte {Hex.octet version} is not a P2PKH address"

def alphabet : List Char :=
  "123456789ABCDEFGHJKLMNPQRSTUVWXYZabcdefghijkmnopqrstuvwxyz".toList

def digit (value : Nat) : Char :=
  alphabet.getD value '1'

def value? (c : Char) : Option Nat :=
  alphabet.findIdx? (· = c)

def encode (bs : Bytes) : String :=
  let zeros := bs.takeWhile (· = 0)
  let digits := Digits.ofNat 58 (Bytes.toNat bs)
  String.ofList (zeros.map (fun _ => '1') ++ digits.map digit)

/-- The values of a text's digits. The first character that is none is reported with its position,
    which counts characters and octets alike because all before it are ASCII. -/
def values (position : Nat) : List Char → Except Fault (List Nat)
  | [] => .ok []
  | c :: rest =>
      match value? c with
      | some v => do
          let tail ← values (position + 1) rest
          return v :: tail
      | none => .error (if c.toNat < 128 then .badCharacter c position else .nonAscii position)

def decode (text : String) : Except Fault Bytes := do
  let digits ← values 0 text.toList
  let zeros := digits.takeWhile (· = 0)
  return zeros.map (fun _ => 0) ++ Bytes.ofNat (Digits.toNat 58 digits)

end Bitcoin.Base58
