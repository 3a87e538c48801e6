import Bitcoin.Bytes
import Bitcoin.Text.Quoted

/-! # Hexadecimal text

Two digits for each octet. Writing uses lower case; reading takes both cases and looks at the octets
of the text's UTF-8 form, so that positions and the parity of the length count octets.
-/

namespace Bitcoin.Hex

/-- Why a text is not hexadecimal. -/
inductive Fault where
  | oddLength
  /-- The octet at `position` of the text is no hexadecimal digit. -/
  | badDigit (octet : UInt8) (position : Nat)
  deriving DecidableEq, Repr

/-- The reason in words. A bad octet is shown as the character of the same number. -/
def Fault.message : Fault → String
  | .oddLength => "Odd number of digits"
  | .badDigit octet position =>
      s!"Invalid character {Quoted.character (Char.ofNat octet.toNat)} at position {position}"

def digit (value : Nat) : Char :=
  Nat.digitChar value

/-- The two digits of every octet, in lower case. -/
def encode (bs : Bytes) : String :=
  String.ofList (bs.flatMap fun b => [digit (b.toNat / 16), digit (b.toNat % 16)])

/-- One octet as a number with its base marked. -/
def octet (b : UInt8) : String :=
  "0x" ++ encode [b]

/-- The value of a digit, given as an octet of the text. -/
def value? (octet : UInt8) : Option Nat :=
  if 48 ≤ octet ∧ octet ≤ 57 then some (octet.toNat - 48)
  else if 97 ≤ octet ∧ octet ≤ 102 then some (octet.toNat - 87)
  else if 65 ≤ octet ∧ octet ≤ 70 then some (octet.toNat - 55)
  else none

/-- Read pairs of digits; `position` is the place of the first one in the whole text. -/
def decodeFrom (position : Nat) : Bytes → Except Fault Bytes
  | [] => .ok []
  | [_] => .error .oddLength
  | high :: low :: rest =>
      match value? high, value? low with
      | none, _ => .error (.badDigit high position)
      | some _, none => .error (.badDigit low (position + 1))
      | some h, some l => do
          let tail ← decodeFrom (position + 2) rest
          return UInt8.ofNat (16 * h + l) :: tail

def octetsOf (text : String) : Bytes :=
  text.toList.flatMap String.utf8EncodeChar

/-- Read a hexadecimal text. An odd number of octets is reported before any bad digit. -/
def decode (text : String) : Except Fault Bytes :=
  let octets := octetsOf text
  if octets.length % 2 = 1 then .error .oddLength else decodeFrom 0 octets

end Bitcoin.Hex
