import Bitcoin.Proofs.Curve.Residue
import Bitcoin.Proofs.Octets
import Bitcoin.Signature

/-! # The numbers of a signature

The octets of a signature that can be valid are those of two scalars other than zero. Of such a signature and
the one with `n - s` exactly one is low, and normalizing chooses it. Octets that are no scalar stay so.
-/

namespace Bitcoin

namespace Scalar

variable {k : Scalar}

@[simp] theorem toNat_toOctets (k : Scalar) : k.toOctets.toNat = k.val :=
  Octets.toNat_ofNat_of_lt (k.isLt.trans (by decide))

theorem val_pos (nonzero : k ≠ 0) : 0 < k.val :=
  Nat.pos_of_ne_zero (Fin.val_ne_zero_iff.2 nonzero)

theorem val_neg (nonzero : k ≠ 0) : (-k).val = groupOrder - k.val := by
  have positive := val_pos nonzero
  have below := k.isLt
  rw [Fin.val_neg', Nat.mod_eq_of_lt (by omega)]

theorem neg_ne_zero (nonzero : k ≠ 0) : -k ≠ 0 := by
  intro zero
  have value := congrArg Fin.val zero
  have below := k.isLt
  rw [val_neg nonzero, Fin.val_zero] at value
  omega

theorem neg_neg (k : Scalar) : -(-k) = k := by
  rw [← residue_inj]
  simp

/-- The order is odd, so exactly one of two opposite scalars is in the upper half. -/
theorem isHigh_neg (nonzero : k ≠ 0) : (-k).isHigh = !k.isHigh := by
  have order : groupOrder = 2 * halfOrder + 1 := by decide
  have below := k.isLt
  unfold isHigh
  rw [val_neg nonzero, ← decide_not, decide_eq_decide]
  omega

/-- The one of a scalar and its opposite that is in the lower half. -/
def lower (k : Scalar) : Scalar :=
  if k.isHigh then -k else k

theorem lower_ne_zero (nonzero : k ≠ 0) : k.lower ≠ 0 := by
  unfold lower
  split_ifs
  · exact neg_ne_zero nonzero
  · exact nonzero

theorem isHigh_lower (nonzero : k ≠ 0) : k.lower.isHigh = false := by
  unfold lower
  split_ifs with high
  · rw [isHigh_neg nonzero, high]
    rfl
  · exact eq_false_of_ne_true high

end Scalar

namespace Signature

variable {sig : Signature} {octets : Octets 32} {r s : Scalar}

/-- Octets that stand for a scalar other than zero. -/
def InRange (octets : Octets 32) : Prop :=
  1 ≤ octets.toNat ∧ octets.toNat < groupOrder

instance (octets : Octets 32) : Decidable (InRange octets) :=
  inferInstanceAs (Decidable (_ ∧ _))

theorem toNat_orderOctets : orderOctets.toNat = groupOrder :=
  Octets.toNat_ofNat_of_lt (by decide)

theorem component?_eq_some {k : Scalar} :
    component? octets = some k ↔ k ≠ 0 ∧ octets = k.toOctets := by
  unfold component?
  constructor
  · intro h
    split_ifs at h with below zero
    cases h
    exact ⟨fun none => zero (congrArg Fin.val none), (Octets.ofNat_toNat octets).symm⟩
  · rintro ⟨nonzero, rfl⟩
    have value := Scalar.toNat_toOctets k
    rw [dif_pos (value ▸ k.isLt), if_neg (value ▸ (Scalar.val_pos nonzero).ne')]
    exact congrArg some (Fin.ext value)

/-- The scalar of octets in range. -/
theorem InRange.exists_scalar (inRange : InRange octets) : ∃ k : Scalar, k ≠ 0 ∧ octets = k.toOctets := by
  refine ⟨⟨octets.toNat, inRange.2⟩, fun zero => ?_, (Octets.ofNat_toNat octets).symm⟩
  have value : octets.toNat = 0 := congrArg Fin.val zero
  have positive := inRange.1
  omega

theorem inRange_toOctets {k : Scalar} (nonzero : k ≠ 0) : InRange k.toOctets := by
  unfold InRange
  rw [Scalar.toNat_toOctets]
  exact ⟨Scalar.val_pos nonzero, k.isLt⟩

/-- The signatures with both numbers possible are those of two scalars other than zero. -/
theorem components?_eq_some :
    sig.components? = some (r, s) ↔ r ≠ 0 ∧ s ≠ 0 ∧ sig = ofScalars r s := by
  unfold components?
  constructor
  · intro h
    obtain ⟨a, first, h⟩ := Option.bind_eq_some_iff.1 h
    obtain ⟨b, second, h⟩ := Option.bind_eq_some_iff.1 h
    cases h
    obtain ⟨rNonzero, left⟩ := component?_eq_some.1 first
    obtain ⟨sNonzero, right⟩ := component?_eq_some.1 second
    refine ⟨rNonzero, sNonzero, ?_⟩
    cases sig
    cases left
    cases right
    rfl
  · rintro ⟨rNonzero, sNonzero, rfl⟩
    have first : component? (ofScalars r s).r = some r := component?_eq_some.2 ⟨rNonzero, rfl⟩
    have second : component? (ofScalars r s).s = some s := component?_eq_some.2 ⟨sNonzero, rfl⟩
    rw [first, second]
    rfl

theorem exists_ofScalars (rInRange : InRange sig.r) (sInRange : InRange sig.s) :
    ∃ r s : Scalar, r ≠ 0 ∧ s ≠ 0 ∧ sig = ofScalars r s := by
  obtain ⟨r, rNonzero, first⟩ := rInRange.exists_scalar
  obtain ⟨s, sNonzero, second⟩ := sInRange.exists_scalar
  refine ⟨r, s, rNonzero, sNonzero, ?_⟩
  cases sig
  cases first
  cases second
  rfl

theorem isLowS_ofScalars (r s : Scalar) : (ofScalars r s).isLowS = !s.isHigh := by
  unfold isLowS Scalar.isHigh ofScalars
  rw [Scalar.toNat_toOctets, ← decide_not, decide_eq_decide]
  omega

/-! ## The other of two signatures -/

/-- The signature with `n - s` in the place of `s`. -/
def opposite (sig : Signature) : Signature :=
  { sig with s := Octets.ofNat 32 (groupOrder - sig.s.toNat) }

theorem opposite_ofScalars (r : Scalar) (nonzero : s ≠ 0) :
    (ofScalars r s).opposite = ofScalars r (-s) := by
  unfold opposite ofScalars
  rw [Scalar.toNat_toOctets, ← Scalar.val_neg nonzero]
  rfl

theorem opposite_opposite (inRange : InRange sig.s) : sig.opposite.opposite = sig := by
  have below : groupOrder < 256 ^ 32 := by decide
  have difference : sig.opposite.s.toNat = groupOrder - sig.s.toNat :=
    Octets.toNat_ofNat_of_lt (by omega)
  have value : groupOrder - sig.opposite.s.toNat = sig.s.toNat := by
    have upper := inRange.2
    omega
  rw [opposite, value, Octets.ofNat_toNat]
  rfl

theorem normalizeS_ofScalars (r : Scalar) (nonzero : s ≠ 0) :
    (ofScalars r s).normalizeS = ofScalars r s.lower := by
  unfold normalizeS Scalar.lower
  rw [isLowS_ofScalars]
  cases high : s.isHigh with
  | false => rfl
  | true =>
      have sum : orderOctets.subtract s.toOctets = (-s).toOctets := by
        rw [← Octets.toNat_inj, Octets.toNat_subtract, toNat_orderOctets, Scalar.toNat_toOctets, if_pos s.isLt.le,
          Scalar.toNat_toOctets, Scalar.val_neg nonzero]
      simp only [Bool.not_true, Bool.false_eq_true, if_false, if_true, ofScalars, sum]

/-- Octets from the order up wrap around to octets above the order, or to zero. -/
theorem inRange_of_inRange_normalizeS (inRange : InRange sig.normalizeS.s) : InRange sig.s := by
  unfold normalizeS at inRange
  split_ifs at inRange with low
  · exact inRange
  · have small := sig.s.toNat_lt
    have high : halfOrder < sig.s.toNat := by
      unfold isLowS at low
      simpa using low
    unfold InRange at inRange ⊢
    rw [Octets.toNat_subtract, toNat_orderOctets] at inRange
    split_ifs at inRange with below <;> omega

/-- Normalizing keeps a signature possible or impossible, and puts `s` into the lower half. -/
theorem components?_normalizeS (sig : Signature) :
    sig.normalizeS.components? = sig.components?.map fun (r, s) => (r, s.lower) := by
  cases possible : sig.components? with
  | some pair =>
      obtain ⟨r, s⟩ := pair
      obtain ⟨rNonzero, sNonzero, rfl⟩ := components?_eq_some.1 possible
      rw [normalizeS_ofScalars r sNonzero]
      exact components?_eq_some.2 ⟨rNonzero, Scalar.lower_ne_zero sNonzero, rfl⟩
  | none =>
      rw [Option.map_none, Option.eq_none_iff_forall_ne_some]
      rintro ⟨r, s⟩ h
      obtain ⟨rNonzero, sNonzero, value⟩ := components?_eq_some.1 h
      have first : sig.r = r.toOctets := by
        have kept : sig.normalizeS.r = sig.r := by
          unfold normalizeS
          split_ifs <;> rfl
        rw [← kept, value]
        rfl
      have second : InRange sig.normalizeS.s := by
        rw [value]
        exact inRange_toOctets sNonzero
      obtain ⟨k, nonzero, octets⟩ := (inRange_of_inRange_normalizeS second).exists_scalar
      have all : sig.components? = some (r, k) := by
        refine components?_eq_some.2 ⟨rNonzero, nonzero, ?_⟩
        cases sig
        cases first
        cases octets
        rfl
      rw [possible] at all
      cases all

/-- What normalizing leaves possible is low. -/
theorem isHigh_of_components?_normalizeS (h : sig.normalizeS.components? = some (r, s)) : s.isHigh = false := by
  rw [components?_normalizeS] at h
  obtain ⟨⟨r', s'⟩, possible, h⟩ := Option.map_eq_some_iff.1 h
  cases h
  obtain ⟨-, nonzero, -⟩ := components?_eq_some.1 possible
  exact Scalar.isHigh_lower nonzero

end Signature

end Bitcoin
