import Bitcoin.Text.Hex

/-! # Hexadecimal text, there and back

The digits that are written are single octets with the values that they stand for, so the text of octets is
read back as these octets.
-/

namespace Bitcoin.Hex

/-- A digit as an octet of the text. -/
def digitOctet (value : Nat) : UInt8 :=
  UInt8.ofNat (digit value).toNat

theorem utf8EncodeChar_digit : ∀ v < 16, String.utf8EncodeChar (digit v) = [digitOctet v] := by
  decide

theorem value?_digitOctet : ∀ v < 16, value? (digitOctet v) = some v := by
  decide

theorem octetsOf_encode (bs : Bytes) :
    octetsOf (encode bs) = bs.flatMap fun b => [digitOctet (b.toNat / 16), digitOctet (b.toNat % 16)] := by
  unfold octetsOf encode
  rw [String.toList_ofList, List.flatMap_assoc]
  congr 1
  funext b
  have small := b.toNat_lt
  simp only [List.flatMap_cons, List.flatMap_nil, utf8EncodeChar_digit (b.toNat / 16) (by omega),
    utf8EncodeChar_digit (b.toNat % 16) (by omega), List.append_nil, List.singleton_append]

theorem decodeFrom_octetsOf_encode (position : Nat) (bs : Bytes) :
    decodeFrom position (octetsOf (encode bs)) = .ok bs := by
  rw [octetsOf_encode]
  induction bs generalizing position with
  | nil => rfl
  | cons b bs ih =>
      have small := b.toNat_lt
      have whole : 16 * (b.toNat / 16) + b.toNat % 16 = b.toNat := Nat.div_add_mod b.toNat 16
      rw [List.flatMap_cons, List.cons_append, List.cons_append, List.nil_append, decodeFrom,
        value?_digitOctet _ (by omega), value?_digitOctet _ (by omega)]
      dsimp only
      rw [ih, whole, UInt8.ofNat_toNat]
      rfl

/-- The text of octets is read back as these octets. -/
theorem decode_encode (bs : Bytes) : decode (encode bs) = .ok bs := by
  have even : (octetsOf (encode bs)).length % 2 ≠ 1 := by
    rw [octetsOf_encode, List.length_flatMap]
    simp [List.map_const']
  unfold decode
  rw [if_neg even, decodeFrom_octetsOf_encode]

end Bitcoin.Hex
