import Bitcoin.Integer.Modular
import Bitcoin.Proofs.Octets
import Bitcoin.Proofs.Outcome
import Mathlib.Data.Int.GCD
import Mathlib.Data.Int.ModEq
import Mathlib.RingTheory.Coprime.Lemmas

/-! # Arithmetic modulo a number

What is computed modulo a positive number is the one remainder below it that is congruent to the exact result,
and an inverse is the one remainder whose product with the integer is congruent to one. So each operation is
described by a congruence, however its result was found.
-/

namespace Bitcoin.Integer

variable {x y m r : Int}

/-- The number below the modulus, and not below zero, that is congruent to `x`. -/
structure IsRemainder (m x r : Int) : Prop where
  nonneg : 0 ≤ r
  lt : r < m
  congruent : r ≡ x [ZMOD m]

theorem IsRemainder.pos (remainder : IsRemainder m x r) : 0 < m :=
  remainder.nonneg.trans_lt remainder.lt

theorem IsRemainder.eq_emod (remainder : IsRemainder m x r) : r = x % m := by
  rw [← Int.emod_eq_of_lt remainder.nonneg remainder.lt]
  exact remainder.congruent

theorem isRemainder_emod (positive : 0 < m) (x : Int) : IsRemainder m x (x % m) where
  nonneg := Int.emod_nonneg x positive.ne'
  lt := Int.emod_lt_of_pos x positive
  congruent := Int.mod_modEq x m

theorem modulo_eq_ok : modulo x m = .ok r ↔ IsRemainder m x r := by
  unfold modulo
  constructor
  · intro h
    split_ifs at h with positive
    cases h
    exact isRemainder_emod positive x
  · intro remainder
    rw [if_pos remainder.pos, remainder.eq_emod]

/-! ## Inverses -/

theorem gcd_bezout_emod (positive : 0 < m) (x : Int) :
    (bezout (x % m).toNat m.toNat).gcd = Int.gcd x m := by
  rw [gcd_bezout, ← Int.gcd_natCast_natCast, Int.toNat_of_nonneg positive.le,
    Int.toNat_of_nonneg (Int.emod_nonneg x positive.ne'), Int.gcd_emod]

/-- The factor that Euclid's algorithm finds makes `x` congruent to the greatest common divisor. -/
theorem mul_factor_congruent (positive : 0 < m) (x : Int) :
    x * (bezout (x % m).toNat m.toNat).factor ≡ Int.gcd x m [ZMOD m] := by
  have divides := dvd_bezout (x % m).toNat m.toNat
  rw [gcd_bezout_emod positive, Int.toNat_of_nonneg positive.le,
    Int.toNat_of_nonneg (Int.emod_nonneg x positive.ne')] at divides
  calc
    x * _ ≡ x % m * _ [ZMOD m] := (Int.mod_modEq x m).symm.mul_right _
    _ ≡ Int.gcd x m [ZMOD m] := (Int.modEq_iff_dvd.2 divides).symm

theorem inverseMod_eq (positive : 0 < m) (x : Int) :
    inverseMod x m = if Int.gcd x m = 1 then .ok ((bezout (x % m).toNat m.toNat).factor % m)
      else .error (.arithmetic (.notInvertible x m)) := by
  simp only [inverseMod, modulo, if_pos positive, Outcome.ok_bind, gcd_bezout_emod positive]
  by_cases coprime : Int.gcd x m = 1
  · simp [coprime]
  · rw [if_pos coprime, if_neg coprime]
    rfl

/-- An inverse exists for what has no divisor in common with the modulus. -/
theorem exists_inverseMod : (∃ y, inverseMod x m = .ok y) ↔ 0 < m ∧ Int.gcd x m = 1 := by
  by_cases positive : 0 < m
  · rw [inverseMod_eq positive]
    split_ifs with coprime <;> simp [positive, coprime]
  · have refused : inverseMod x m = .error (.arithmetic (.nonPositiveModulus m)) := by
      simp [inverseMod, modulo, positive]
    simp [refused, positive]

/-- The number below the modulus, and not below zero, whose product with `x` is congruent to one. -/
structure IsInverse (m x y : Int) : Prop where
  nonneg : 0 ≤ y
  lt : y < m
  congruent : x * y ≡ 1 [ZMOD m]

namespace IsInverse

theorem coprime (inverse : IsInverse m x y) : Int.gcd x m = 1 := by
  obtain ⟨quotient, exact⟩ := Int.modEq_iff_dvd.1 inverse.congruent
  apply Int.isCoprime_iff_gcd_eq_one.1
  exact ⟨y, quotient, by linarith⟩

theorem unique (first : IsInverse m x y) (second : IsInverse m x r) : y = r := by
  have congruent : y ≡ r [ZMOD m] := by
    calc
      y = 1 * y := (one_mul y).symm
      _ ≡ x * r * y [ZMOD m] := second.congruent.symm.mul_right y
      _ = x * y * r := by ring
      _ ≡ 1 * r [ZMOD m] := first.congruent.mul_right r
      _ = r := one_mul r
  rw [← Int.emod_eq_of_lt first.nonneg first.lt, ← Int.emod_eq_of_lt second.nonneg second.lt]
  exact congruent

theorem of_inverseMod (h : inverseMod x m = .ok y) : IsInverse m x y := by
  obtain ⟨positive, coprime⟩ := exists_inverseMod.1 ⟨y, h⟩
  rw [inverseMod_eq positive, if_pos coprime] at h
  cases h
  obtain ⟨nonneg, lt, congruent⟩ := isRemainder_emod positive (bezout (x % m).toNat m.toNat).factor
  refine ⟨nonneg, lt, (congruent.mul_left x).trans ?_⟩
  simpa [coprime] using mul_factor_congruent positive x

end IsInverse

theorem inverseMod_eq_ok : inverseMod x m = .ok y ↔ IsInverse m x y := by
  constructor
  · exact .of_inverseMod
  · intro inverse
    have positive : 0 < m := inverse.nonneg.trans_lt inverse.lt
    obtain ⟨found, h⟩ := exists_inverseMod.2 ⟨positive, inverse.coprime⟩
    rw [h, inverse.unique (.of_inverseMod h)]

/-! ## Octets -/

theorem toNat_toBytes (x : Int) : Bytes.toNat (toBytes x) = x.natAbs :=
  Bytes.toNat_ofNat x.natAbs

theorem toOctets32_eq_ok {octets : Octets 32} : toOctets32 x = .ok octets ↔ x = octets.toNat := by
  have fits : (toBytes x).length ≤ 32 ↔ x.natAbs < 256 ^ 32 := Bytes.length_ofNat_le
  unfold toOctets32
  constructor
  · intro h
    split_ifs at h with negative wide
    cases h
    rw [Octets.toNat_padLeft (Nat.not_lt.1 wide), toNat_toBytes]
    omega
  · intro value
    have bound := octets.toNat_lt
    have small : x.natAbs = octets.toNat := by omega
    have short : (toBytes x).length ≤ 32 := fits.2 (small ▸ bound)
    rw [if_neg (by omega), if_neg (Nat.not_lt.2 short)]
    congr 1
    rw [← Octets.toNat_inj, Octets.toNat_padLeft short, toNat_toBytes, small]

theorem exists_toOctets32 : (∃ octets, toOctets32 x = .ok octets) ↔ 0 ≤ x ∧ x < 2 ^ 256 := by
  simp only [toOctets32_eq_ok]
  constructor
  · rintro ⟨octets, rfl⟩
    have bound := octets.toNat_lt
    exact ⟨by omega, by exact_mod_cast bound⟩
  · rintro ⟨nonneg, lt⟩
    refine ⟨Octets.ofNat 32 x.toNat, ?_⟩
    rw [Octets.toNat_ofNat_of_lt (by omega), Int.toNat_of_nonneg nonneg]

end Bitcoin.Integer
