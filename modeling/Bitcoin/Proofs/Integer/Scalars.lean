import Bitcoin.Proofs.Curve.Encoding
import Bitcoin.Proofs.Curve.Order
import Bitcoin.Proofs.Integer.Modular
import Bitcoin.Proofs.Signature.Components

/-! # Scalars as integers

Scalars are the integers from zero up to the group order, and what is computed with them is what is computed
with the integers modulo the group order. Both are related to one residue class, so a remainder is a scalar's
number exactly when the classes are equal.
-/

namespace Bitcoin.Integer

variable {x : Int} {a b k : Scalar}

theorem ofScalar_nonneg (k : Scalar) : 0 ≤ ofScalar k :=
  Int.natCast_nonneg k.val

theorem ofScalar_lt (k : Scalar) : ofScalar k < groupOrder :=
  Int.ofNat_lt.2 k.isLt

@[simp] theorem cast_ofScalar (k : Scalar) : (ofScalar k : ZMod groupOrder) = residue k := by
  simp [ofScalar, residue]

/-- A scalar's number is what an integer leaves exactly when they have the same class. -/
theorem modulo_eq_ofScalar : modulo x groupOrder = .ok (ofScalar k) ↔ residue k = (x : ZMod groupOrder) := by
  rw [modulo_eq_ok, ← cast_ofScalar, ZMod.intCast_eq_intCast_iff]
  exact ⟨IsRemainder.congruent, fun congruent => ⟨ofScalar_nonneg k, ofScalar_lt k, congruent⟩⟩

theorem isInverse_ofScalar : IsInverse groupOrder (ofScalar a) (ofScalar b) ↔ residue a * residue b = 1 := by
  have classes : residue a * residue b = 1 ↔ ((ofScalar a * ofScalar b : Int) : ZMod groupOrder) = (1 : Int) := by
    simp
  rw [classes, ZMod.intCast_eq_intCast_iff]
  exact ⟨IsInverse.congruent, fun congruent => ⟨ofScalar_nonneg b, ofScalar_lt b, congruent⟩⟩

/-- The numbers of scalars are the remainders modulo the group order. -/
theorem exists_ofScalar : (∃ k, x = ofScalar k) ↔ 0 ≤ x ∧ x < groupOrder := by
  constructor
  · rintro ⟨k, rfl⟩
    exact ⟨ofScalar_nonneg k, ofScalar_lt k⟩
  · rintro ⟨nonneg, lt⟩
    exact ⟨⟨x.toNat, by omega⟩, (Int.toNat_of_nonneg nonneg).symm⟩

theorem toScalar_eq_ok : toScalar x = .ok k ↔ x = ofScalar k := by
  simp only [toScalar, Outcome.bind_eq_ok, toOctets32_eq_ok, Scalar.ofBytes_eq_ok]
  constructor
  · rintro ⟨octets, rfl, same⟩
    rw [Octets.ext same, Scalar.toNat_toOctets]
    rfl
  · rintro rfl
    exact ⟨k.toOctets, by simp [ofScalar], rfl⟩

theorem exists_toScalar : (∃ k, toScalar x = .ok k) ↔ 0 ≤ x ∧ x < groupOrder := by
  simp only [toScalar_eq_ok, exists_ofScalar]

/-! ## Operations -/

theorem addMod_ofScalar (a b : Scalar) :
    addMod (ofScalar a) (ofScalar b) groupOrder = .ok (ofScalar (a + b)) := by
  apply modulo_eq_ofScalar.2
  simp

theorem subtractMod_ofScalar (a b : Scalar) :
    subtractMod (ofScalar a) (ofScalar b) groupOrder = .ok (ofScalar (a - b)) := by
  apply modulo_eq_ofScalar.2
  simp

theorem multiplyMod_ofScalar (a b : Scalar) :
    multiplyMod (ofScalar a) (ofScalar b) groupOrder = .ok (ofScalar (a * b)) := by
  apply modulo_eq_ofScalar.2
  simp

theorem subtractMod_zero_ofScalar (a : Scalar) :
    subtractMod 0 (ofScalar a) groupOrder = .ok (ofScalar (-a)) := by
  apply modulo_eq_ofScalar.2
  simp

/-- An inverse is what gives one, and only zero is without. -/
theorem invert_eq_ok : a.invert = .ok b ↔ residue a * residue b = 1 := by
  unfold Scalar.invert
  split_ifs with zero
  · simp [zero]
  · have nonzero : residue a ≠ 0 := residue_eq_zero.not.2 zero
    rw [Except.ok.injEq, ← residue_inj, Scalar.residue_inverse, mul_eq_one_iff_inv_eq₀ nonzero]

theorem exists_invert : (∃ b, a.invert = .ok b) ↔ a ≠ 0 := by
  unfold Scalar.invert
  split_ifs with zero <;> simp [zero]

/-- Both inverses exist together and are the same number. -/
theorem inverseMod_ofScalar :
    inverseMod (ofScalar a) groupOrder = .ok x ↔ ∃ inverse, a.invert = .ok inverse ∧ x = ofScalar inverse := by
  simp only [inverseMod_eq_ok, invert_eq_ok]
  constructor
  · intro inverse
    obtain ⟨b, rfl⟩ := exists_ofScalar.2 ⟨inverse.nonneg, inverse.lt⟩
    exact ⟨b, isInverse_ofScalar.1 inverse, rfl⟩
  · rintro ⟨b, unit, rfl⟩
    exact isInverse_ofScalar.2 unit

theorem divide_eq_ok : a.divide b = .ok k ↔ ∃ inverse, b.invert = .ok inverse ∧ k = a * inverse :=
  Outcome.bind_pure_eq_ok

theorem divideMod_ofScalar : divideMod (ofScalar a) (ofScalar b) groupOrder = .ok x ↔
    ∃ quotient, a.divide b = .ok quotient ∧ x = ofScalar quotient := by
  simp only [divideMod, Outcome.bind_eq_ok, inverseMod_ofScalar, divide_eq_ok]
  constructor
  · rintro ⟨_, ⟨inverse, inverted, rfl⟩, h⟩
    rw [multiplyMod_ofScalar] at h
    cases h
    exact ⟨_, ⟨inverse, inverted, rfl⟩, rfl⟩
  · rintro ⟨_, ⟨inverse, inverted, rfl⟩, rfl⟩
    exact ⟨_, ⟨inverse, inverted, rfl⟩, multiplyMod_ofScalar a inverse⟩

theorem mul_of_invert (h : a.invert = .ok b) : a * b = 1 := by
  rw [← residue_inj, residue_mul, invert_eq_ok.1 h, residue_one]

theorem mul_of_divide (h : a.divide b = .ok k) : k * b = a := by
  obtain ⟨inverse, inverted, rfl⟩ := divide_eq_ok.1 h
  have unit := invert_eq_ok.1 inverted
  rw [← residue_inj, residue_mul, residue_mul, mul_assoc, mul_comm (residue inverse), unit, mul_one]

theorem exists_divide : (∃ k, a.divide b = .ok k) ↔ b ≠ 0 := by
  simp only [divide_eq_ok, ← exists_invert]
  constructor
  · rintro ⟨_, inverse, inverted, -⟩
    exact ⟨inverse, inverted⟩
  · rintro ⟨inverse, inverted⟩
    exact ⟨_, inverse, inverted, rfl⟩

/-- The sides of the order on which a scalar and a signature's second number lie are the same ones. -/
theorem isHigh_eq_not_isLowS (k : Scalar) (r : Octets 32) : k.isHigh = !(Signature.mk r k.toOctets).isLowS := by
  have low : (Signature.mk r k.toOctets).isLowS = !k.isHigh := Signature.isLowS_ofScalars 0 k
  rw [low, Bool.not_not]

theorem isHigh_iff : k.isHigh = true ↔ groupOrder / 2 < k.val := by
  simp [Scalar.isHigh, halfOrder_eq]

theorem exists_ofBytes {octets : Bytes} :
    (∃ k, Scalar.ofBytes octets = .ok k) ↔ octets.length = 32 ∧ Bytes.toNat octets < groupOrder := by
  simp only [Scalar.ofBytes_eq_ok]
  constructor
  · rintro ⟨k, rfl⟩
    have value : Bytes.toNat k.toOctets.toList = k.val := Scalar.toNat_toOctets k
    exact ⟨k.toOctets.length_eq, value ▸ k.isLt⟩
  · rintro ⟨length, lt⟩
    exact ⟨⟨_, lt⟩, (Octets.toList_ofNat_toNat length).symm⟩

theorem val_of_ofBytes {octets : Bytes} (h : Scalar.ofBytes octets = .ok k) :
    k.val = Bytes.toNat octets ∧ k.toOctets.toList = octets := by
  obtain rfl := Scalar.ofBytes_eq_ok.1 h
  exact ⟨(Scalar.toNat_toOctets k).symm, rfl⟩

theorem ofBytes_toBytes (x : Int) : ofBytes (toBytes x) = |x| := by
  rw [ofBytes, toNat_toBytes, Int.natCast_natAbs]

/-! ## Agreement -/

/-- What is computed with two scalars is what is computed with their numbers modulo the group order. -/
structure Agree (a b : Scalar) : Prop where
  add : addMod (ofScalar a) (ofScalar b) groupOrder = .ok (ofScalar (a + b))
  subtract : subtractMod (ofScalar a) (ofScalar b) groupOrder = .ok (ofScalar (a - b))
  multiply : multiplyMod (ofScalar a) (ofScalar b) groupOrder = .ok (ofScalar (a * b))
  negate : subtractMod 0 (ofScalar a) groupOrder = .ok (ofScalar (-a))
  invertible : (∃ inverse, a.invert = .ok inverse) ↔ a ≠ 0
  invert : ∀ inverse, a.invert = .ok inverse → a * inverse = 1
  inverse : ∀ x, inverseMod (ofScalar a) groupOrder = .ok x ↔
    ∃ inverse, a.invert = .ok inverse ∧ x = ofScalar inverse
  divisible : (∃ quotient, a.divide b = .ok quotient) ↔ b ≠ 0
  divide : ∀ quotient, a.divide b = .ok quotient → quotient * b = a
  quotient : ∀ x, divideMod (ofScalar a) (ofScalar b) groupOrder = .ok x ↔
    ∃ quotient, a.divide b = .ok quotient ∧ x = ofScalar quotient

theorem agree (a b : Scalar) : Agree a b where
  add := addMod_ofScalar a b
  subtract := subtractMod_ofScalar a b
  multiply := multiplyMod_ofScalar a b
  negate := subtractMod_zero_ofScalar a
  invertible := exists_invert
  invert _ := mul_of_invert
  inverse _ := inverseMod_ofScalar
  divisible := exists_divide
  divide _ := mul_of_divide
  quotient _ := divideMod_ofScalar

/-- Scalars and integers agree on all operations, on which scalars are high, and on which octets and integers
    are scalars. None is reduced unasked, and a scalar, its octets and its integer determine each other. -/
theorem scalars_agree :
    (∀ a b : Scalar, Agree a b) ∧
      (∀ (k : Scalar) (r : Octets 32), (k.isHigh = true ↔ groupOrder / 2 < k.val) ∧
        k.isHigh = !(Signature.mk r k.toOctets).isLowS) ∧
      (∀ octets, (∃ k, Scalar.ofBytes octets = .ok k) ↔
        octets.length = 32 ∧ Bytes.toNat octets < groupOrder) ∧
      (∀ octets k, Scalar.ofBytes octets = .ok k →
        k.val = Bytes.toNat octets ∧ k.toOctets.toList = octets) ∧
      (∀ octets : Octets 32, (Scalar.reduce octets).val = octets.toNat % groupOrder) ∧
      (∀ x, (∃ octets, toOctets32 x = .ok octets) ↔ 0 ≤ x ∧ x < 2 ^ 256) ∧
      (∀ x octets, toOctets32 x = .ok octets → octets.toNat = x) ∧
      (∀ x, (∃ k, toScalar x = .ok k) ↔ 0 ≤ x ∧ x < groupOrder) ∧
      (∀ x k, toScalar x = .ok k ↔ ofScalar k = x) ∧
      ∀ x, ofBytes (toBytes x) = |x| := by
  refine ⟨agree, fun k r => ⟨isHigh_iff, isHigh_eq_not_isLowS k r⟩, fun octets => exists_ofBytes,
    fun octets k => val_of_ofBytes, fun octets => rfl, fun x => exists_toOctets32, ?_, fun x => exists_toScalar,
    fun x k => toScalar_eq_ok.trans eq_comm, ofBytes_toBytes⟩
  intro x octets written
  exact (toOctets32_eq_ok.1 written).symm

/-- Two has an inverse, one can be halved, the octets of three are read, and three is written. -/
theorem scalars_agree_two :
    (∃ inverse, (2 : Scalar).invert = .ok inverse ∧ 2 * inverse = 1) ∧
      (∃ quotient, (1 : Scalar).divide 2 = .ok quotient ∧ quotient * 2 = 1) ∧
      (Scalar.ofBytes (3 : Scalar).toOctets.toList = .ok 3 ∧
        (3 : Scalar).val = Bytes.toNat (3 : Scalar).toOctets.toList) ∧
      ∃ octets, toOctets32 3 = .ok octets ∧ octets.toNat = (3 : Int) := by
  obtain ⟨arithmetic, -, -, reading, -, wide, writing, -⟩ := scalars_agree
  have nonzero : (2 : Scalar) ≠ 0 := by decide
  have read : Scalar.ofBytes (3 : Scalar).toOctets.toList = .ok 3 := Scalar.ofBytes_eq_ok.2 rfl
  obtain ⟨inverse, inverted⟩ := (arithmetic 2 1).invertible.2 nonzero
  obtain ⟨quotient, divided⟩ := (arithmetic 1 2).divisible.2 nonzero
  obtain ⟨octets, written⟩ := (wide 3).2 (by decide)
  exact ⟨⟨inverse, inverted, (arithmetic 2 1).invert inverse inverted⟩,
    ⟨quotient, divided, (arithmetic 1 2).divide quotient divided⟩,
    ⟨read, (reading _ 3 read).1⟩, octets, written, writing 3 octets written⟩

end Bitcoin.Integer
