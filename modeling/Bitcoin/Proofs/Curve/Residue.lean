import Bitcoin.Curve.Scalar
import Bitcoin.Proofs.Curve.Primes
import Mathlib.FieldTheory.Finite.Basic

/-! # Representatives and residues

Coordinates and scalars are representatives of residue classes modulo a prime, and the classes are a field.
What is computed on representatives, inverses and square roots among it, is what the field says.
-/

namespace Bitcoin

instance : Fact fieldPrime.Prime := ⟨fieldPrime_prime⟩

instance : Fact groupOrder.Prime := ⟨groupOrder_prime⟩

/-- The residue class of a representative. -/
def residue {m : Nat} (x : Fin m) : ZMod m :=
  (x.val : ZMod m)

section Ring

variable {m : Nat}

theorem residue_val (x : Fin m) : (residue x).val = x.val :=
  ZMod.val_cast_of_lt x.isLt

@[simp] theorem residue_inj {x y : Fin m} : residue x = residue y ↔ x = y := by
  constructor
  · intro same
    exact Fin.ext (by rw [← residue_val x, same, residue_val])
  · rintro rfl
    rfl

@[simp] theorem residue_add (x y : Fin m) : residue (x + y) = residue x + residue y := by
  rw [residue, Fin.val_add, ZMod.natCast_mod, Nat.cast_add]
  rfl

@[simp] theorem residue_mul (x y : Fin m) : residue (x * y) = residue x * residue y := by
  rw [residue, Fin.val_mul, ZMod.natCast_mod, Nat.cast_mul]
  rfl

@[simp] theorem residue_neg (x : Fin m) : residue (-x) = -residue x := by
  rw [residue, Fin.val_neg', ZMod.natCast_mod, Nat.cast_sub x.isLt.le, ZMod.natCast_self, zero_sub]
  rfl

@[simp] theorem residue_sub (x y : Fin m) : residue (x - y) = residue x - residue y := by
  rw [residue, Fin.sub_def, ZMod.natCast_mod, Nat.cast_add, Nat.cast_sub y.isLt.le,
    ZMod.natCast_self, zero_sub, neg_add_eq_sub]
  rfl

variable [NeZero m]

/-- Every residue class has a representative. -/
theorem exists_residue_eq (a : ZMod m) : ∃ x : Fin m, residue x = a :=
  ⟨⟨a.val, ZMod.val_lt a⟩, ZMod.natCast_zmod_val a⟩

@[simp] theorem residue_ofNat (n : Nat) : residue (Fin.ofNat m n) = n :=
  ZMod.natCast_mod n m

@[simp] theorem residue_zero : residue (0 : Fin m) = 0 := by
  simp [residue]

@[simp] theorem residue_one : residue (1 : Fin m) = 1 :=
  (residue_ofNat 1).trans Nat.cast_one

@[simp] theorem residue_numeral (n : Nat) [n.AtLeastTwo] :
    residue (no_index (OfNat.ofNat n) : Fin m) = OfNat.ofNat n :=
  ZMod.natCast_mod n m

@[simp] theorem residue_eq_zero {x : Fin m} : residue x = 0 ↔ x = 0 := by
  rw [← residue_zero, residue_inj]

end Ring

theorem bezout_zero {m : Nat} (pos : 0 < m) : bezout 0 m = ⟨m, 0⟩ := by
  rw [bezout, Bezout.step, dif_neg pos.ne', Nat.zero_mod, Bezout.step, dif_pos rfl]

/-- Euclid's factor inverts modulo a prime. Zero is its own inverse on both sides. -/
theorem cast_inverseBelow {m : Nat} [Fact m.Prime] (x : Fin m) :
    (inverseBelow m x.val : ZMod m) = (residue x)⁻¹ := by
  have prime : m.Prime := Fact.out
  have factor : (inverseBelow m x.val : ZMod m) = (bezout x.val m).factor := by
    have nonneg : 0 ≤ (bezout x.val m).factor % m :=
      Int.emod_nonneg _ (by exact_mod_cast prime.ne_zero)
    rw [inverseBelow, ← Int.cast_natCast, Int.toNat_of_nonneg nonneg, ZMod.intCast_mod]
  rw [factor]
  by_cases zero : x.val = 0
  · rw [zero, bezout_zero prime.pos, residue, zero, Int.cast_zero, Nat.cast_zero, inv_zero]
  · have coprime : Nat.gcd x.val m = 1 :=
      Nat.coprime_comm.1 (Nat.coprime_of_lt_prime zero x.isLt prime)
    have divides := (ZMod.intCast_zmod_eq_zero_iff_dvd _ m).2 (dvd_bezout x.val m)
    rw [gcd_bezout, coprime] at divides
    push_cast at divides
    exact eq_inv_of_mul_eq_one_right (sub_eq_zero.1 divides)

namespace FieldElement

@[simp] theorem residue_inverse (a : FieldElement) : residue a.inverse = (residue a)⁻¹ := by
  rw [inverse, residue_ofNat, cast_inverseBelow]

@[simp] theorem residue_power (a : FieldElement) (exponent : Nat) :
    residue (a.power exponent) = residue a ^ exponent := by
  fun_induction power a exponent with
  | case1 => simp
  | case2 a exponent _ squared odd ih =>
      rw [residue_mul, ih, residue_mul, ← sq, ← pow_mul, ← pow_succ]
      congr 1
      omega
  | case3 a exponent _ squared even ih =>
      rw [ih, residue_mul, ← sq, ← pow_mul]
      congr 1
      omega

theorem mul_self_of_sqrt? {a root : FieldElement} (h : a.sqrt? = some root) : root * root = a := by
  simp only [sqrt?] at h
  split_ifs at h with square
  cases h
  exact square

theorem mul_self_inj {a b : FieldElement} : a * a = b * b ↔ a = b ∨ a = -b := by
  rw [← residue_inj, residue_mul, residue_mul, mul_self_eq_mul_self_iff, ← residue_neg, residue_inj,
    residue_inj]

/-- The prime is three modulo four, so a power of a square is one of its roots. -/
theorem sqrt?_mul_self (a : FieldElement) :
    ∃ root, (a * a).sqrt? = some root ∧ (root = a ∨ root = -a) := by
  have square : (a * a).power ((fieldPrime + 1) / 4) * (a * a).power ((fieldPrime + 1) / 4) = a * a := by
    have exponent : (fieldPrime + 1) / 4 + (fieldPrime + 1) / 4 = (fieldPrime + 1) / 2 := by decide
    have even : 2 * ((fieldPrime + 1) / 2) = fieldPrime + 1 := by decide
    rw [← residue_inj, residue_mul, residue_power, ← pow_add, exponent, residue_mul, ← sq, ← pow_mul,
      even, pow_succ, ZMod.pow_card, sq]
  exact ⟨_, if_pos square, mul_self_inj.1 square⟩

/-- The prime is odd, so of two opposite elements other than zero one is odd and one is even. -/
theorem isOdd_neg {a : FieldElement} (nonzero : a ≠ 0) : (-a).isOdd = !a.isOdd := by
  have positive : 0 < a.val := Nat.pos_of_ne_zero (Fin.val_ne_zero_iff.2 nonzero)
  have below := a.isLt
  have value : (-a).val = fieldPrime - a.val := by
    rw [Fin.val_neg', Nat.mod_eq_of_lt (by omega)]
  have odd : fieldPrime % 2 = 1 := by decide
  unfold isOdd
  rw [value]
  rcases Nat.mod_two_eq_zero_or_one a.val with parity | parity <;> simp [parity] <;> omega

end FieldElement

end Bitcoin
