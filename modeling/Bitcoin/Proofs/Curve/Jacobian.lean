import Bitcoin.Curve.Jacobian
import Bitcoin.Proofs.Curve.Group
import Mathlib.Tactic.LinearCombination

/-! # Multiples in the group

A triple represents a point when its coordinates are those of the point over the powers of its denominator.
Doubling and adding on triples is doubling and adding on the points that they represent, so by induction on
the bits of a number the ladder ends at that multiple of the point.
-/

namespace Bitcoin

theorem two_residue_ne_zero : (2 : ZMod fieldPrime) ≠ 0 := by
  rw [← residue_numeral, Ne, residue_eq_zero]
  decide

namespace Point

theorem slope_tangent (x : FieldElement) {y : FieldElement} (height : y ≠ 0) :
    residue (slope x y x y) * (2 * residue y) = 3 * residue x ^ 2 := by
  have nonzero : residue y ≠ 0 := residue_eq_zero.not.2 height
  have two := two_residue_ne_zero
  simp only [slope, if_true, residue_mul, residue_numeral, FieldElement.residue_inverse]
  field_simp

theorem slope_chord {x₁ x₂ : FieldElement} (apart : x₁ ≠ x₂) (y₁ y₂ : FieldElement) :
    residue (slope x₁ y₁ x₂ y₂) * (residue x₁ - residue x₂) = residue y₁ - residue y₂ := by
  have nonzero : residue x₁ - residue x₂ ≠ 0 := sub_ne_zero.2 (residue_inj.not.2 apart)
  simp only [slope, if_neg apart, residue_mul, residue_sub, FieldElement.residue_inverse]
  field_simp

theorem eq_neg_self_iff {y : FieldElement} : y = -y ↔ y = 0 := by
  rw [← residue_inj, residue_neg, eq_neg_iff_add_eq_zero, ← two_mul, mul_eq_zero,
    or_iff_right two_residue_ne_zero, residue_eq_zero]

end Point

namespace Jacobian

/-- The triple stands for the point. -/
def Represents (t : Jacobian) : Point → Prop
  | .infinity => t.z = 0
  | .affine x y => t.z ≠ 0 ∧ t.x = x * (t.z * t.z) ∧ t.y = y * (t.z * t.z * t.z)

namespace Represents

variable {t : Jacobian} {p : Point} {x y x₂ y₂ : FieldElement}

theorem affine_iff : t.Represents (.affine x y) ↔ residue t.z ≠ 0 ∧
    residue t.x = residue x * residue t.z ^ 2 ∧ residue t.y = residue y * residue t.z ^ 3 := by
  simp only [Represents, Ne, residue_eq_zero, ← residue_inj (x := t.x), ← residue_inj (x := t.y),
    residue_mul, pow_succ, pow_zero, one_mul]

theorem toPoint (h : t.Represents p) : t.toPoint = p := by
  cases p with
  | infinity => exact if_pos h
  | affine x y =>
      obtain ⟨nonzero, hx, hy⟩ := affine_iff.1 h
      refine (if_neg h.1).trans (congrArg₂ Point.affine ?_ ?_) <;> rw [← residue_inj]
      · simp only [residue_mul, FieldElement.residue_inverse, hx]
        field_simp
      · simp only [residue_mul, FieldElement.residue_inverse, hy]
        field_simp

theorem double (h : t.Represents p) : t.double.Represents (p.add p) := by
  cases p with
  | infinity =>
      have zero : residue t.z = 0 := residue_eq_zero.2 h
      show 2 * (t.y * t.z) = 0
      rw [← residue_eq_zero, residue_mul, residue_mul, zero, mul_zero, mul_zero]
  | affine x y =>
      obtain ⟨nonzero, hx, hy⟩ := affine_iff.1 h
      by_cases flat : y = 0
      · have sum : (Point.affine x y).add (.affine x y) = .infinity :=
          if_pos ⟨rfl, Point.eq_neg_self_iff.2 flat⟩
        rw [sum]
        show 2 * (t.y * t.z) = 0
        rw [← residue_eq_zero, residue_mul, residue_mul, hy, flat, residue_zero, zero_mul, zero_mul,
          mul_zero]
      · have tangent := Point.slope_tangent x flat
        have height : residue y ≠ 0 := residue_eq_zero.not.2 flat
        rw [Point.add_slanted fun mirrored => flat (Point.eq_neg_self_iff.1 mirrored.2), affine_iff]
        simp only [Jacobian.double, residue_mul, residue_sub, residue_numeral, hx, hy]
        -- What is left are identities in a field, up to multiples of the equation of the tangent.
        generalize residue (Point.slope x y x y) = s at tangent ⊢
        generalize residue x = x at tangent ⊢
        generalize residue y = y at tangent height ⊢
        generalize residue t.z = z at nonzero ⊢
        refine ⟨?_, ?_, ?_⟩
        · exact mul_ne_zero two_residue_ne_zero
            (mul_ne_zero (mul_ne_zero height (pow_ne_zero 3 nonzero)) nonzero)
        · linear_combination (-z ^ 8 * (s * (2 * y) + 3 * x ^ 2)) * tangent
        · linear_combination (-z ^ 12 * (12 * x * y ^ 2 - ((3 * x ^ 2) ^ 2 + 3 * x ^ 2 * (s * (2 * y))
            + (s * (2 * y)) ^ 2))) * tangent

theorem addAffine (onCurve : p.OnCurve) (onCurve₂ : (Point.affine x₂ y₂).OnCurve)
    (h : t.Represents p) : (t.addAffine x₂ y₂).Represents (p.add (.affine x₂ y₂)) := by
  unfold Jacobian.addAffine
  cases p with
  | infinity =>
      rw [if_pos (show t.z = 0 from h)]
      show Represents _ (.affine x₂ y₂)
      rw [affine_iff]
      simp
  | affine x y =>
      obtain ⟨nonzero, hx, hy⟩ := affine_iff.1 h
      have column : x₂ * (t.z * t.z) - t.x = 0 ↔ x₂ = x := by
        rw [← residue_eq_zero, residue_sub, residue_mul, residue_mul, hx, sq, sub_eq_zero,
          mul_left_inj' (mul_ne_zero nonzero nonzero), residue_inj]
      have row : y₂ * (t.z * t.z * t.z) - t.y = 0 ↔ y₂ = y := by
        rw [← residue_eq_zero, residue_sub, residue_mul, residue_mul, residue_mul, hy, pow_succ, sq,
          sub_eq_zero, mul_left_inj' (mul_ne_zero (mul_ne_zero nonzero nonzero) nonzero), residue_inj]
      rw [if_neg h.1]
      simp only [column, row]
      split_ifs with sameX sameY
      · subst sameX sameY
        exact h.double
      · subst sameX
        -- Only two points of the curve have this first coordinate.
        have mirrored : y = -y₂ :=
          (FieldElement.mul_self_inj.1 (onCurve.trans onCurve₂.symm)).resolve_left (Ne.symm sameY)
        rw [mirrored, Point.add_mirrored]
        rfl
      · have chord := Point.slope_chord (Ne.symm sameX) y y₂
        have apart : residue x₂ - residue x ≠ 0 := sub_ne_zero.2 (residue_inj.not.2 sameX)
        rw [Point.add_slanted fun mirrored => sameX mirrored.1.symm, affine_iff]
        simp only [residue_mul, residue_sub, residue_numeral, hx, hy]
        generalize residue (Point.slope x y x₂ y₂) = s at chord ⊢
        generalize residue x = x at chord apart ⊢
        generalize residue y = y at chord ⊢
        generalize residue x₂ = x₂ at chord apart ⊢
        generalize residue y₂ = y₂ at chord ⊢
        generalize residue t.z = z at nonzero ⊢
        refine ⟨?_, ?_, ?_⟩
        · have factored : z * (x₂ * (z * z) - x * z ^ 2) = z ^ 3 * (x₂ - x) := by ring
          rw [factored]
          exact mul_ne_zero (pow_ne_zero 3 nonzero) apart
        · linear_combination (z ^ 6 * (y₂ - y + s * (x₂ - x))) * chord
        · linear_combination (z ^ 9 * (3 * x * (x₂ - x) ^ 2 + (x₂ - x) ^ 3 -
            ((y₂ - y) ^ 2 + (y₂ - y) * (s * (x₂ - x)) + (s * (x₂ - x)) ^ 2))) * chord

end Represents

/-- The ladder stands for a point that is the multiple in the group. -/
theorem multiple_spec {x y : FieldElement} (onCurve : (Point.affine x y).OnCurve) (k : Nat) :
    ∃ p : Point, p.OnCurve ∧ (multiple k x y).Represents p ∧
      p.toGroup = k • (Point.affine x y).toGroup := by
  fun_induction multiple k x y with
  | case1 => exact ⟨.infinity, trivial, rfl, (zero_nsmul _).symm⟩
  | case2 k _ even odd ih =>
      obtain ⟨half, onHalf, stands, value⟩ := ih
      have onDouble := Point.onCurve_add onHalf onHalf
      refine ⟨_, Point.onCurve_add onDouble onCurve, stands.double.addAffine onDouble onCurve, ?_⟩
      have bits : k / 2 + k / 2 + 1 = k := by omega
      rw [Point.toGroup_add onDouble onCurve, Point.toGroup_add onHalf onHalf, value, ← add_nsmul,
        ← succ_nsmul, bits]
  | case3 k _ even odd ih =>
      obtain ⟨half, onHalf, stands, value⟩ := ih
      refine ⟨_, Point.onCurve_add onHalf onHalf, stands.double, ?_⟩
      have bits : k / 2 + k / 2 = k := by omega
      rw [Point.toGroup_add onHalf onHalf, value, ← add_nsmul, bits]

end Jacobian

namespace Point

theorem nsmul_spec {p : Point} (onCurve : p.OnCurve) (k : Nat) :
    (nsmul k p).OnCurve ∧ (nsmul k p).toGroup = k • p.toGroup := by
  cases p with
  | infinity => exact ⟨trivial, (nsmul_zero k).symm⟩
  | affine x y =>
      obtain ⟨multiple, onMultiple, stands, value⟩ := Jacobian.multiple_spec onCurve k
      have result : nsmul k (.affine x y) = multiple := stands.toPoint
      rw [result]
      exact ⟨onMultiple, value⟩

theorem onCurve_nsmul {p : Point} (onCurve : p.OnCurve) (k : Nat) : (nsmul k p).OnCurve :=
  (nsmul_spec onCurve k).1

theorem toGroup_nsmul {p : Point} (onCurve : p.OnCurve) (k : Nat) :
    (nsmul k p).toGroup = k • p.toGroup :=
  (nsmul_spec onCurve k).2

end Point

end Bitcoin
