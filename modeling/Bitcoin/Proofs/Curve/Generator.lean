import Bitcoin.Curve.Encoding
import Bitcoin.Proofs.Curve.Jacobian

/-! # Multiples of the generator

The generator has the prime `groupOrder` as its order, so its multiples by scalars are a group in which
sums of scalars become sums of points and only the scalar zero gives infinity.
-/

namespace Bitcoin.Point

theorem onCurve_generator : generator.OnCurve := by
  decide

/-- The ladder itself, run by the kernel. -/
theorem nsmul_groupOrder_generator : nsmul groupOrder generator = .infinity := by
  decide +kernel

theorem addOrderOf_generator : addOrderOf generator.toGroup = groupOrder := by
  apply addOrderOf_eq_prime
  · rw [← toGroup_nsmul onCurve_generator, nsmul_groupOrder_generator, toGroup_infinity]
  · rw [Ne, toGroup_eq_zero onCurve_generator]
    exact Point.noConfusion

theorem mod_groupOrder_nsmul_generator (k : Nat) :
    (k % groupOrder) • generator.toGroup = k • generator.toGroup := by
  have reduced := mod_addOrderOf_nsmul generator.toGroup k
  rwa [addOrderOf_generator] at reduced

variable {p : Point}

theorem onCurve_multiply (onCurve : p.OnCurve) (k : Scalar) : (p.multiply k).OnCurve :=
  onCurve_nsmul onCurve k.val

theorem toGroup_multiply (onCurve : p.OnCurve) (k : Scalar) :
    (p.multiply k).toGroup = k.val • p.toGroup :=
  toGroup_nsmul onCurve k.val

theorem onCurve_generator_multiply (k : Scalar) : (generator.multiply k).OnCurve :=
  onCurve_multiply onCurve_generator k

theorem generator_multiply_eq_infinity {k : Scalar} : generator.multiply k = .infinity ↔ k = 0 := by
  rw [← toGroup_eq_zero (onCurve_generator_multiply k), toGroup_multiply onCurve_generator,
    ← addOrderOf_dvd_iff_nsmul_eq_zero, addOrderOf_generator]
  constructor
  · intro divides
    exact Fin.ext (Nat.eq_zero_of_dvd_of_lt divides k.isLt)
  · rintro rfl
    exact Nat.dvd_zero groupOrder

/-- Different scalars lead to different points. -/
theorem generator_multiply_inj {j k : Scalar} : generator.multiply j = generator.multiply k ↔ j = k := by
  have injective : Set.InjOn (fun n => n • generator.toGroup) (Set.Iio (addOrderOf generator.toGroup)) :=
    nsmul_injOn_Iio_addOrderOf
  rw [addOrderOf_generator] at injective
  rw [← toGroup_inj (onCurve_generator_multiply j) (onCurve_generator_multiply k)]
  simp only [toGroup_multiply onCurve_generator]
  exact (injective.eq_iff j.isLt k.isLt).trans Fin.ext_iff.symm

theorem onCurve_addGenerator (onCurve : p.OnCurve) (k : Scalar) : (p.addGenerator k).OnCurve :=
  onCurve_add onCurve (onCurve_generator_multiply k)

theorem toGroup_addGenerator (onCurve : p.OnCurve) (k : Scalar) :
    (p.addGenerator k).toGroup = p.toGroup + k.val • generator.toGroup := by
  rw [addGenerator, toGroup_add onCurve (onCurve_generator_multiply k), toGroup_multiply onCurve_generator]

/-- Adding a multiple of the generator to another one adds the scalars. -/
theorem addGenerator_generator_multiply (parent factor : Scalar) :
    (generator.multiply parent).addGenerator factor = generator.multiply (factor + parent) := by
  have onParent := onCurve_generator_multiply parent
  rw [← toGroup_inj (onCurve_addGenerator onParent factor) (onCurve_generator_multiply _),
    toGroup_addGenerator onParent]
  simp only [toGroup_multiply onCurve_generator]
  rw [← add_nsmul, Nat.add_comm, Fin.val_add, ← mod_groupOrder_nsmul_generator]

end Bitcoin.Point
