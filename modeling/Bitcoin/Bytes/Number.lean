import Bitcoin.Bytes
import Bitcoin.Digits

/-! # Numbers as octet strings

Big-endian order unless a name says otherwise. `Bytes.ofNat` is the shortest form, `Octets.ofNat` the
form of a given width, which drops what does not fit.
-/

namespace Bitcoin

namespace Bytes

/-- The value of an octet string, most significant octet first. -/
def toNat (bs : Bytes) : Nat :=
  Digits.toNat 256 (bs.map UInt8.toNat)

/-- The shortest octet string of `n`; zero is the empty string. -/
def ofNat (n : Nat) : Bytes :=
  (Digits.ofNat 256 n).map UInt8.ofNat

end Bytes

namespace Octets

variable {n : Nat}

/-- The value of the octets, most significant first. -/
def toNat (a : Octets n) : Nat :=
  Bytes.toNat a.toList

/-- The value of the octets, least significant first. -/
def toNatLE (a : Octets n) : Nat :=
  a.reverse.toNat

/-- The last `n` octets of `value`, most significant first. -/
def ofNat (n value : Nat) : Octets n :=
  ⟨(Digits.fixed 256 n value).map UInt8.ofNat, by simp⟩

/-- The last `n` octets of `value`, least significant first. -/
def ofNatLE (n value : Nat) : Octets n :=
  (ofNat n value).reverse

end Octets

end Bitcoin
