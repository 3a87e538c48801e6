import Bitcoin.Proofs.Integer.Scalars

/-! # Multiples by integers

Every integer has its multiple of a point of the curve, and it is the multiple in the group. So the integers act
on the points, the laws of the action are those of the group, and the group order acts as zero.
-/

namespace Bitcoin

theorem Scalar.residue_ofInt (x : Int) : residue (ofInt x) = (x : ZMod groupOrder) := by
  have positive : (0 : Int) < groupOrder := by decide
  have nonneg := Int.emod_nonneg x positive.ne'
  rw [ofInt, residue_ofNat, ← Int.cast_natCast, Int.toNat_of_nonneg nonneg, ZMod.intCast_mod]

namespace Point

variable {p q r : Point} {a b : Int}

/-- An integer has a multiple of any point, which is the one by its scalar. -/
theorem multiplyInteger_eq (p : Point) (a : Int) : p.multiplyInteger a = .ok (p.multiply (Scalar.ofInt a)) := by
  have reduced := Integer.modulo_eq_ofScalar.2 (Scalar.residue_ofInt a)
  have scalar : Integer.toScalar (Integer.ofScalar (Scalar.ofInt a)) = .ok (Scalar.ofInt a) :=
    Integer.toScalar_eq_ok.2 rfl
  simp [multiplyInteger, reduced, scalar]

/-- Multiples are those of the group. -/
theorem multiplyInteger_eq_ok (onCurve : p.OnCurve) :
    p.multiplyInteger a = .ok q ↔ q.OnCurve ∧ q.toGroup = a • p.toGroup := by
  have onMultiple := onCurve_multiply onCurve (Scalar.ofInt a)
  have value : (p.multiply (Scalar.ofInt a)).toGroup = a • p.toGroup := by
    rw [toGroup_multiply_residue onCurve, Scalar.residue_ofInt, Int.cast_smul_eq_zsmul]
  rw [multiplyInteger_eq, Except.ok.injEq]
  constructor
  · rintro rfl
    exact ⟨onMultiple, value⟩
  · rintro ⟨onCurve, same⟩
    rw [← toGroup_inj onMultiple onCurve, value, same]

theorem zsmul_eq_zero {g : curve.Point} : a • g = 0 ↔ (groupOrder : Int) ∣ a ∨ g = 0 := by
  rw [← Int.cast_smul_eq_zsmul (ZMod groupOrder), smul_eq_zero, ZMod.intCast_zmod_eq_zero_iff_dvd]

theorem multiplyInteger_one (onCurve : p.OnCurve) : p.multiplyInteger 1 = .ok p := by
  apply (multiplyInteger_eq_ok onCurve).2
  exact ⟨onCurve, (one_zsmul p.toGroup).symm⟩

theorem multiplyInteger_neg_one (onCurve : p.OnCurve) : p.multiplyInteger (-1) = .ok p.negate := by
  apply (multiplyInteger_eq_ok onCurve).2
  constructor
  · exact onCurve_negate onCurve
  · rw [toGroup_negate onCurve, neg_one_zsmul]

theorem multiplyInteger_add (onCurve : p.OnCurve)
    (first : p.multiplyInteger a = .ok q) (second : p.multiplyInteger b = .ok r) :
    p.multiplyInteger (a + b) = .ok (q.add r) := by
  obtain ⟨onFirst, first⟩ := (multiplyInteger_eq_ok onCurve).1 first
  obtain ⟨onSecond, second⟩ := (multiplyInteger_eq_ok onCurve).1 second
  apply (multiplyInteger_eq_ok onCurve).2
  constructor
  · exact onCurve_add onFirst onSecond
  · rw [toGroup_add onFirst onSecond, first, second, add_zsmul]

theorem multiplyInteger_mul (onCurve : p.OnCurve) (inner : p.multiplyInteger b = .ok q) :
    p.multiplyInteger (a * b) = q.multiplyInteger a := by
  obtain ⟨onInner, inner⟩ := (multiplyInteger_eq_ok onCurve).1 inner
  have outer := multiplyInteger_eq q a
  obtain ⟨onOuter, value⟩ := (multiplyInteger_eq_ok onInner).1 outer
  rw [outer]
  apply (multiplyInteger_eq_ok onCurve).2
  constructor
  · exact onOuter
  · rw [value, inner, mul_zsmul]

theorem multiplyInteger_congr (same : a % groupOrder = b % groupOrder) :
    p.multiplyInteger a = p.multiplyInteger b := by
  have scalars : Scalar.ofInt a = Scalar.ofInt b := by
    rw [Scalar.ofInt, same, Scalar.ofInt]
  rw [multiplyInteger_eq, multiplyInteger_eq, scalars]

theorem multiplyInteger_eq_infinity (onCurve : p.OnCurve) :
    p.multiplyInteger a = .ok .infinity ↔ p = .infinity ∨ (groupOrder : Int) ∣ a := by
  rw [multiplyInteger_eq_ok onCurve, toGroup_infinity, eq_comm, zsmul_eq_zero, toGroup_eq_zero onCurve]
  constructor
  · rintro ⟨-, vanishes⟩
    exact vanishes.symm
  · intro vanishes
    exact ⟨trivial, vanishes.symm⟩

theorem multiplyInteger_ofScalar (onCurve : p.OnCurve) (k : Scalar) :
    p.multiplyInteger (Integer.ofScalar k) = .ok (p.multiply k) := by
  apply (multiplyInteger_eq_ok onCurve).2
  constructor
  · exact onCurve_multiply onCurve k
  · rw [toGroup_multiply_residue onCurve, ← Integer.cast_ofScalar, Int.cast_smul_eq_zsmul]

/-- A multiple of a multiple is the multiple by the product. -/
theorem multiply_multiply (onCurve : p.OnCurve) (j k : Scalar) :
    (p.multiply k).multiply j = p.multiply (j * k) := by
  have onMultiple := onCurve_multiply onCurve k
  apply (toGroup_inj (onCurve_multiply onMultiple j) (onCurve_multiply onCurve (j * k))).1
  simp only [toGroup_multiply_residue, onCurve, onMultiple, residue_mul, mul_smul]

/-- The integers act on the point, the scalars as the integers below the group order. -/
structure IsActedOn (p : Point) : Prop where
  total (a : Int) : ∃ q, p.multiplyInteger a = .ok q
  one : p.multiplyInteger 1 = .ok p
  neg_one : p.multiplyInteger (-1) = .ok p.negate
  add {a b : Int} {q r : Point} : p.multiplyInteger a = .ok q → p.multiplyInteger b = .ok r →
    p.multiplyInteger (a + b) = .ok (q.add r)
  mul {a b : Int} {q : Point} : p.multiplyInteger b = .ok q → p.multiplyInteger (a * b) = q.multiplyInteger a
  congr {a b : Int} : a % groupOrder = b % groupOrder → p.multiplyInteger a = p.multiplyInteger b
  eq_infinity {a : Int} : p.multiplyInteger a = .ok .infinity ↔ p = .infinity ∨ (groupOrder : Int) ∣ a
  ofScalar (k : Scalar) : p.multiplyInteger (Integer.ofScalar k) = .ok (p.multiply k)
  addGenerator (k : Scalar) : p.addGenerator k = p.add (generator.multiply k)

theorem isActedOn (onCurve : p.OnCurve) : p.IsActedOn where
  total a := ⟨_, multiplyInteger_eq p a⟩
  one := multiplyInteger_one onCurve
  neg_one := multiplyInteger_neg_one onCurve
  add := multiplyInteger_add onCurve
  mul := multiplyInteger_mul onCurve
  congr := multiplyInteger_congr
  eq_infinity := multiplyInteger_eq_infinity onCurve
  ofScalar := multiplyInteger_ofScalar onCurve
  addGenerator _ := rfl

end Point

end Bitcoin
