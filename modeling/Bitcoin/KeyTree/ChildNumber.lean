import Bitcoin.Error

/-! # Child numbers

A child of a key is named by an index of 31 bits and a flag that says whether its derivation is
hardened. On the wire the flag is the high bit of the index.
-/

namespace Bitcoin

structure ChildNumber where
  index : Fin 0x80000000
  hardened : Bool
  deriving DecidableEq, Repr

namespace ChildNumber

/-- The child number of an index of 31 bits. -/
def ofIndex (index : UInt32) (hardened : Bool) : Result ChildNumber :=
  if h : index.toNat < 0x80000000 then .ok ⟨⟨index.toNat, h⟩, hardened⟩
  else .error (.invalidChildIndex index)

def word (child : ChildNumber) : UInt32 :=
  UInt32.ofNat child.index.val

/-- The index with the flag in the high bit. -/
def toWire (child : ChildNumber) : UInt32 :=
  UInt32.ofNat (child.index.val + if child.hardened then 0x80000000 else 0)

def ofWire (wire : UInt32) : ChildNumber :=
  { index := Fin.ofNat 0x80000000 wire.toNat, hardened := 0x80000000 ≤ wire.toNat }

/-- The index, followed by an apostrophe if derivation is hardened. -/
def toChars (child : ChildNumber) : List Char :=
  Nat.toDigits 10 child.index.val ++ if child.hardened then ['\''] else []

def toText (child : ChildNumber) : String :=
  String.ofList child.toChars

end ChildNumber

end Bitcoin
