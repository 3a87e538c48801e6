import Bitcoin.Proofs.Curve.Encoding
import Bitcoin.Proofs.Curve.Generator
import Mathlib.Algebra.Module.ZMod
import Mathlib.GroupTheory.Perm.Cycle.Type

/-! # How many points there are

The curve has exactly `groupOrder` points. A first coordinate and a parity determine a point, so there are
fewer than three times as many points as the generator has multiples; and there are not twice as many, since
then some point would be its own mirror image. Hence every point vanishes when taken `groupOrder` times, and
the scalars, as a field, act on the points.
-/

namespace Bitcoin

namespace Point

variable {p : Point}

/-- Every element of the group is a point on the curve. -/
theorem exists_toGroup_eq (g : curve.Point) : ∃ p : Point, p.OnCurve ∧ p.toGroup = g := by
  cases g with
  | zero => exact ⟨.infinity, trivial, rfl⟩
  | some x y regular =>
      obtain ⟨x, rfl⟩ := exists_residue_eq x
      obtain ⟨y, rfl⟩ := exists_residue_eq y
      have onCurve := (equation_iff x y).1 regular.1
      exact ⟨.affine x y, onCurve, toGroup_affine onCurve⟩

/-- The element with a given first coordinate and parity, where there is one; zero for none. -/
def lifted : Option (FieldElement × Bool) → curve.Point
  | none => 0
  | some (x, odd) => ((lift? x odd).map toGroup).getD 0

theorem lifted_surjective : Function.Surjective lifted := by
  intro g
  obtain ⟨p, onCurve, rfl⟩ := exists_toGroup_eq g
  cases p with
  | infinity => exact ⟨none, rfl⟩
  | affine x y =>
      refine ⟨some (x, y.isOdd), ?_⟩
      rw [lifted, lift?_eq_some_iff.2 ⟨y, onCurve, rfl, rfl⟩]
      rfl

instance : Finite curve.Point :=
  Finite.of_surjective lifted lifted_surjective

theorem card_le : Nat.card curve.Point ≤ 2 * fieldPrime + 1 := by
  have bound := Nat.card_le_card_of_surjective lifted lifted_surjective
  have codes : Nat.card (Option (FieldElement × Bool)) = 2 * fieldPrime + 1 := by
    rw [Finite.card_option, Nat.card_prod, Nat.card_fin, Nat.card_eq_fintype_card, Fintype.card_bool,
      Nat.mul_comm]
  rwa [codes] at bound

/-- No element has order two: a point that is its own mirror image has height zero. -/
theorem eq_zero_of_add_self {g : curve.Point} (twice : g + g = 0) : g = 0 := by
  obtain ⟨p, onCurve, rfl⟩ := exists_toGroup_eq g
  cases p with
  | infinity => rfl
  | affine x y =>
      rw [← toGroup_add onCurve onCurve, toGroup_eq_zero (onCurve_add onCurve onCurve)] at twice
      have mirrored : y = -y := by
        by_contra slanted
        rw [add_slanted fun mirrored => slanted mirrored.2] at twice
        cases twice
      exact absurd (eq_neg_self_iff.1 mirrored) (height_ne_zero onCurve)

theorem not_two_dvd_card : ¬2 ∣ Nat.card curve.Point := by
  intro even
  obtain ⟨g, order⟩ := exists_prime_addOrderOf_dvd_card' 2 even
  have twice : g + g = 0 := by
    rw [← two_nsmul, ← order, addOrderOf_nsmul_eq_zero]
  rw [eq_zero_of_add_self twice, addOrderOf_zero] at order
  exact absurd order (by decide)

/-- The curve has as many points as the generator has multiples. -/
theorem card_eq : Nat.card curve.Point = groupOrder := by
  have divides : groupOrder ∣ Nat.card curve.Point := by
    rw [← addOrderOf_generator]
    exact addOrderOf_dvd_natCard generator.toGroup
  obtain ⟨cofactor, value⟩ := divides
  have positive : 0 < Nat.card curve.Point := Nat.card_pos
  have bound := card_le
  have odd := not_two_dvd_card
  have below : 2 * fieldPrime + 1 < groupOrder * 3 := by decide
  rw [value] at positive bound odd ⊢
  have small : cofactor < 3 := Nat.lt_of_mul_lt_mul_left (bound.trans_lt below)
  interval_cases cofactor
  · exact absurd positive (by simp)
  · rfl
  · exact absurd ⟨groupOrder, Nat.mul_comm _ _⟩ odd

theorem groupOrder_nsmul (g : curve.Point) : groupOrder • g = 0 := by
  rw [← card_eq]
  exact card_nsmul_eq_zero'

/-- Residues modulo the group order act on the points. -/
noncomputable instance : Module (ZMod groupOrder) curve.Point :=
  AddCommGroup.zmodModule groupOrder_nsmul

theorem residue_smul (k : Scalar) (g : curve.Point) : residue k • g = k.val • g :=
  Nat.cast_smul_eq_nsmul (ZMod groupOrder) k.val g

/-- The multiple of a point by a scalar is what the scalar's residue makes of it. -/
theorem toGroup_multiply_residue (onCurve : p.OnCurve) (k : Scalar) :
    (p.multiply k).toGroup = residue k • p.toGroup := by
  rw [toGroup_multiply onCurve, residue_smul]

theorem onCurve_negate (onCurve : p.OnCurve) : p.negate.OnCurve := by
  cases p with
  | infinity => trivial
  | affine x y => exact (FieldElement.neg_mul_self y).trans onCurve

theorem toGroup_negate (onCurve : p.OnCurve) : p.negate.toGroup = -p.toGroup := by
  cases p with
  | infinity => exact neg_zero.symm
  | affine x y =>
      have sum : (affine x y).negate.add (affine x y) = .infinity := add_mirrored x y
      have zero := toGroup_add (onCurve_negate onCurve) onCurve
      rw [sum] at zero
      exact eq_neg_of_add_eq_zero_left zero.symm

end Point

namespace Scalar

@[simp] theorem residue_inverse (k : Scalar) : residue k.inverse = (residue k)⁻¹ := by
  rw [inverse, residue_ofNat, cast_inverseBelow]

end Scalar

end Bitcoin
