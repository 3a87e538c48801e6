import Bitcoin.Curve.Point
import Bitcoin.Proofs.Curve.Residue
import Mathlib.AlgebraicGeometry.EllipticCurve.Affine.Point

/-! # The group of points

Points on the curve are the points of the elliptic curve over the residues, and the chord and tangent rule
is its addition. So points on the curve are closed under addition and obey the laws of a commutative group.
-/

namespace Bitcoin

open WeierstrassCurve

/-- The elliptic curve over the residues modulo the field prime. -/
def curve : Affine (ZMod fieldPrime) :=
  ⟨0, 0, 0, 0, 7⟩

theorem curve_Δ_ne_zero : curve.Δ ≠ 0 := by
  have value : curve.Δ = -(27 * 28 ^ 2 : Nat) := by
    simp only [WeierstrassCurve.Δ, WeierstrassCurve.b₂, WeierstrassCurve.b₄, WeierstrassCurve.b₆,
      WeierstrassCurve.b₈, curve]
    push_cast
    ring
  rw [value, neg_ne_zero, Ne, ZMod.natCast_eq_zero_iff]
  exact Nat.not_dvd_of_pos_of_lt (by decide) (by decide)

theorem curve_equation_iff (x y : ZMod fieldPrime) : curve.Equation x y ↔ y * y = x * x * x + 7 := by
  rw [Affine.equation_iff]
  simp [curve, pow_succ]

@[simp] theorem curve_negY (x y : ZMod fieldPrime) : curve.negY x y = -y := by
  simp [Affine.negY, curve]

@[simp] theorem curve_addX (x₁ x₂ s : ZMod fieldPrime) : curve.addX x₁ x₂ s = s * s - x₁ - x₂ := by
  simp [Affine.addX, curve, sq]

@[simp] theorem curve_addY (x₁ x₂ y s : ZMod fieldPrime) :
    curve.addY x₁ x₂ y s = s * (x₁ - (s * s - x₁ - x₂)) - y := by
  rw [Affine.addY, Affine.negAddY, curve_negY, curve_addX]
  ring

namespace Point

theorem equation_iff (x y : FieldElement) :
    curve.Equation (residue x) (residue y) ↔ (affine x y).OnCurve := by
  rw [curve_equation_iff, OnCurve, cubic, ← residue_inj]
  simp

theorem nonsingular {x y : FieldElement} (onCurve : (affine x y).OnCurve) :
    curve.Nonsingular (residue x) (residue y) :=
  (Affine.equation_iff_nonsingular_of_Δ_ne_zero curve_Δ_ne_zero).1 ((equation_iff x y).2 onCurve)

/-- The element of the group that a point on the curve is; other pairs of coordinates are no elements. -/
def toGroup : Point → curve.Point
  | .infinity => 0
  | .affine x y => if h : (affine x y).OnCurve then .some _ _ (nonsingular h) else 0

@[simp] theorem toGroup_infinity : toGroup .infinity = 0 := rfl

theorem toGroup_affine {x y : FieldElement} (onCurve : (affine x y).OnCurve) :
    toGroup (affine x y) = .some _ _ (nonsingular onCurve) :=
  dif_pos onCurve

theorem toGroup_inj {p q : Point} (hp : p.OnCurve) (hq : q.OnCurve) :
    p.toGroup = q.toGroup ↔ p = q := by
  constructor
  · intro same
    cases p with
    | infinity =>
        cases q with
        | infinity => rfl
        | affine x y =>
            rw [toGroup_affine hq] at same
            exact absurd same.symm (Affine.Point.some_ne_zero _)
    | affine x y =>
        rw [toGroup_affine hp] at same
        cases q with
        | infinity => exact absurd same (Affine.Point.some_ne_zero _)
        | affine x' y' =>
            rw [toGroup_affine hq, Affine.Point.some.injEq, residue_inj, residue_inj] at same
            rw [same.1, same.2]
  · rintro rfl
    rfl

theorem toGroup_eq_zero {p : Point} (onCurve : p.OnCurve) : p.toGroup = 0 ↔ p = .infinity :=
  toGroup_inj (q := .infinity) onCurve trivial

theorem residue_slope {x₁ y₁ x₂ y₂ : FieldElement} (slanted : ¬(x₁ = x₂ ∧ y₁ = -y₂)) :
    residue (slope x₁ y₁ x₂ y₂) = curve.slope (residue x₁) (residue x₂) (residue y₁) (residue y₂) := by
  unfold slope
  split_ifs with vertical
  · subst vertical
    have apart : residue y₁ ≠ curve.negY (residue x₁) (residue y₂) := by
      rw [curve_negY, ← residue_neg]
      exact residue_inj.not.2 fun mirrored => slanted ⟨rfl, mirrored⟩
    rw [Affine.slope_of_Y_ne rfl apart, curve_negY, sub_neg_eq_add, ← two_mul]
    simp [curve, div_eq_mul_inv, sq]
  · rw [Affine.slope_of_X_ne (residue_inj.not.2 vertical)]
    simp [div_eq_mul_inv]

theorem add_mirrored (x y : FieldElement) : (affine x (-y)).add (affine x y) = .infinity :=
  if_pos ⟨rfl, rfl⟩

theorem add_slanted {x₁ y₁ x₂ y₂ : FieldElement} (slanted : ¬(x₁ = x₂ ∧ y₁ = -y₂)) :
    (affine x₁ y₁).add (affine x₂ y₂) =
      .affine (slope x₁ y₁ x₂ y₂ * slope x₁ y₁ x₂ y₂ - x₁ - x₂)
        (slope x₁ y₁ x₂ y₂ * (x₁ - (slope x₁ y₁ x₂ y₂ * slope x₁ y₁ x₂ y₂ - x₁ - x₂)) - y₁) :=
  if_neg slanted

/-- The chord and tangent rule stays on the curve and is the addition of the group. -/
theorem add_spec {p q : Point} (hp : p.OnCurve) (hq : q.OnCurve) :
    (p.add q).OnCurve ∧ (p.add q).toGroup = p.toGroup + q.toGroup := by
  cases p with
  | infinity => exact ⟨hq, (zero_add _).symm⟩
  | affine x₁ y₁ =>
      cases q with
      | infinity => exact ⟨hp, (add_zero _).symm⟩
      | affine x₂ y₂ =>
          rw [toGroup_affine hp, toGroup_affine hq]
          by_cases mirrored : x₁ = x₂ ∧ y₁ = -y₂
          · obtain ⟨rfl, rfl⟩ := mirrored
            rw [add_mirrored, Affine.Point.add_of_Y_eq rfl (by rw [curve_negY, residue_neg])]
            exact ⟨trivial, rfl⟩
          · have slanted : ¬(residue x₁ = residue x₂ ∧
                residue y₁ = curve.negY (residue x₂) (residue y₂)) := by
              rw [curve_negY, ← residue_neg, residue_inj, residue_inj]
              exact mirrored
            have sum := Affine.nonsingular_add (nonsingular hp) (nonsingular hq) slanted
            rw [add_slanted mirrored, Affine.Point.add_some slanted]
            simp only [curve_addX, curve_addY, ← residue_slope mirrored, ← residue_mul,
              ← residue_sub] at sum ⊢
            have onCurve := (equation_iff _ _).1 sum.1
            exact ⟨onCurve, toGroup_affine onCurve⟩

theorem onCurve_add {p q : Point} (hp : p.OnCurve) (hq : q.OnCurve) : (p.add q).OnCurve :=
  (add_spec hp hq).1

theorem toGroup_add {p q : Point} (hp : p.OnCurve) (hq : q.OnCurve) :
    (p.add q).toGroup = p.toGroup + q.toGroup :=
  (add_spec hp hq).2

end Point

end Bitcoin
