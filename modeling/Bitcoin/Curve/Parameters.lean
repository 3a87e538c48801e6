/-! # Parameters of the curve secp256k1

The curve is `y² = x³ + 7` over the integers modulo the prime `fieldPrime`. Its points form a group
of prime order `groupOrder`.
-/

namespace Bitcoin

/-- The prime of the field of coordinates. -/
def fieldPrime : Nat :=
  0xfffffffffffffffffffffffffffffffffffffffffffffffffffffffefffffc2f

/-- The number of points of the curve, the point at infinity among them. -/
def groupOrder : Nat :=
  0xfffffffffffffffffffffffffffffffebaaedce6af48a03bbfd25e8cd0364141

/-- The largest integer that is at most half the group order. -/
def halfOrder : Nat :=
  0x7fffffffffffffffffffffffffffffff5d576e7357a4501ddfe92f46681b20a0

theorem halfOrder_eq : halfOrder = groupOrder / 2 := by decide

def generatorX : Nat :=
  0x79be667ef9dcbbac55a06295ce870b07029bfcdb2dce28d959f2815b16f81798

def generatorY : Nat :=
  0x483ada7726a3c4655da4fbfc0e1108a8fd17b448a68554199c47d08ffb10d4b8

instance : @NeZero Nat Zero.ofOfNat0 fieldPrime :=
  @NeZero.mk Nat Zero.ofOfNat0 fieldPrime (by decide)

instance : @NeZero Nat Zero.ofOfNat0 groupOrder :=
  @NeZero.mk Nat Zero.ofOfNat0 groupOrder (by decide)

end Bitcoin
