import Bitcoin.Bytes.Number

/-! # Subtraction of octet strings

Column by column from the last octet, with a borrow. The result is the difference modulo `256 ^ n`.
-/

namespace Bitcoin

/-- The difference of two octets and a borrow, before it is brought into the range of an octet. -/
def columnDifference (a b : UInt8) (borrow : Bool) : Int :=
  a.toNat - b.toNat - borrow.toNat

/-- Subtract column by column, least significant octet first. -/
def subtractColumns (borrow : Bool) : Bytes → Bytes → Bytes
  | a :: as, b :: bs =>
      let difference := columnDifference a b borrow
      let short := difference < 0
      let octet := if short then difference + 256 else difference
      UInt8.ofNat octet.toNat :: subtractColumns short as bs
  | _, _ => []

theorem length_subtractColumns (borrow : Bool) (as bs : Bytes) (h : as.length = bs.length) :
    (subtractColumns borrow as bs).length = as.length := by
  induction as generalizing borrow bs with
  | nil => simp [subtractColumns]
  | cons a as ih =>
      cases bs with
      | nil => simp at h
      | cons b bs => simp [subtractColumns, ih _ bs (by simpa using h)]

/-- The octets of the difference, which wraps around below zero. -/
def Octets.subtract {n : Nat} (a b : Octets n) : Octets n :=
  ⟨(subtractColumns false a.toList.reverse b.toList.reverse).reverse, by
    simp [length_subtractColumns]⟩

end Bitcoin
