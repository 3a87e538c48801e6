import Bitcoin.Proofs.Integer.Modular

/-! # Division, exactly

Dividing integers gives the one quotient and remainder whose remainder is smaller than the divisor and has the sign
of the dividend. Dividing modulo a number gives the one integer below it that times the divisor is congruent to the
dividend, and there is one for divisors without a common divisor with the modulus. Nothing else is refused.
-/

namespace Bitcoin.Integer

variable {x y m q r : Int}

/-! ## With a remainder -/

/-- A quotient and a remainder that is smaller than the divisor and has the sign of the dividend, unless it is
    zero. -/
structure IsDivision (x y q r : Int) : Prop where
  exact : x = q * y + r
  small : |r| < |y|
  sign : r = 0 ∨ r.sign = x.sign

theorem isDivision_tdiv_tmod (nonzero : y ≠ 0) (x : Int) : IsDivision x y (x.tdiv y) (x.tmod y) where
  exact := (Int.tdiv_mul_add_tmod x y).symm
  small := by
    rw [Int.abs_eq_natAbs, Int.abs_eq_natAbs, Int.natAbs_tmod]
    exact_mod_cast Nat.mod_lt x.natAbs (Int.natAbs_pos.2 nonzero)
  sign := by
    by_cases divides : y ∣ x
    · exact .inl (Int.tmod_eq_zero_of_dvd divides)
    · right
      rw [Int.sign_tmod, if_neg divides]

namespace IsDivision

theorem divisor_ne_zero (division : IsDivision x y q r) : y ≠ 0 := by
  rintro rfl
  have small := division.small
  rw [abs_zero] at small
  exact absurd (abs_nonneg r) (not_le.2 small)

/-- The remainder lies on the same side of zero as the dividend. -/
theorem nonneg (division : IsDivision x y q r) (above : 0 ≤ x) : 0 ≤ r := by
  rcases division.sign with zero | same
  · exact zero.ge
  · rw [← Int.sign_nonneg_iff, same, Int.sign_nonneg_iff]
    exact above

theorem nonpos (division : IsDivision x y q r) (below : x ≤ 0) : r ≤ 0 := by
  rcases division.sign with zero | same
  · exact zero.le
  · rw [← Int.sign_nonpos_iff, same, Int.sign_nonpos_iff]
    exact below

/-- There is one division only, the truncating one. -/
theorem unique (division : IsDivision x y q r) : x.tdiv y = q ∧ x.tmod y = r := by
  have nonzero := division.divisor_ne_zero
  have small : |r| < y.natAbs := by
    rw [← Int.abs_eq_natAbs]
    exact division.small
  obtain ⟨lower, upper⟩ := abs_lt.1 small
  have sum : r + y * q = x := by
    rw [division.exact]
    ring
  rcases le_total 0 x with above | below
  · exact (Int.tdiv_tmod_unique above nonzero).2 ⟨sum, division.nonneg above, upper⟩
  · exact (Int.tdiv_tmod_unique' below nonzero).2 ⟨sum, lower, division.nonpos below⟩

end IsDivision

theorem divideWithRemainder_eq_ok : divideWithRemainder x y = .ok (q, r) ↔ IsDivision x y q r := by
  unfold divideWithRemainder
  constructor
  · intro h
    split_ifs at h with zero
    cases h
    exact isDivision_tdiv_tmod zero x
  · intro division
    obtain ⟨rfl, rfl⟩ := division.unique
    exact if_neg division.divisor_ne_zero

theorem divideWithRemainder_eq_error {e : Error} :
    divideWithRemainder x y = .error e ↔ y = 0 ∧ e = .arithmetic .divisionByZero := by
  unfold divideWithRemainder
  split_ifs with zero
  · simp [zero, eq_comm]
  · simp [zero]

/-! ## Modulo a number -/

theorem modulo_eq_error {e : Error} :
    modulo x m = .error e ↔ m ≤ 0 ∧ e = .arithmetic (.nonPositiveModulus m) := by
  unfold modulo
  split_ifs with positive
  · simp [positive]
  · simp [not_lt.1 positive, eq_comm]

/-- The number below the modulus, and not below zero, whose product with `y` is congruent to `x`. -/
structure IsQuotient (m x y q : Int) : Prop where
  nonneg : 0 ≤ q
  lt : q < m
  congruent : q * y ≡ x [ZMOD m]

theorem IsQuotient.pos (quotient : IsQuotient m x y q) : 0 < m :=
  quotient.nonneg.trans_lt quotient.lt

theorem IsInverse.pos (inverse : IsInverse m x y) : 0 < m :=
  inverse.nonneg.trans_lt inverse.lt

/-- An inverse is a quotient of one. -/
theorem isQuotient_one : IsQuotient m 1 x q ↔ IsInverse m x q := by
  constructor
  · rintro ⟨nonneg, lt, congruent⟩
    rw [mul_comm] at congruent
    exact ⟨nonneg, lt, congruent⟩
  · rintro ⟨nonneg, lt, congruent⟩
    rw [mul_comm] at congruent
    exact ⟨nonneg, lt, congruent⟩

/-- Why there is no quotient by `y`. -/
inductive Indivisible (m y : Int) : Error → Prop
  | modulus : m ≤ 0 → Indivisible m y (.arithmetic (.nonPositiveModulus m))
  | divisor : 0 < m → Int.gcd y m ≠ 1 → Indivisible m y (.arithmetic (.notInvertible y m))

theorem inverseMod_eq_error {e : Error} : inverseMod y m = .error e ↔ Indivisible m y e := by
  by_cases positive : 0 < m
  · rw [inverseMod_eq positive]
    constructor
    · intro h
      split_ifs at h with coprime
      cases h
      exact .divisor positive coprime
    · rintro (negative | ⟨-, common⟩)
      · exact absurd positive (not_lt.2 negative)
      · exact if_neg common
  · have refused : inverseMod y m = .error (.arithmetic (.nonPositiveModulus m)) := by
      simp [inverseMod, modulo, positive]
    rw [refused]
    constructor
    · intro h
      cases h
      exact .modulus (not_lt.1 positive)
    · rintro (- | ⟨contrary, -⟩)
      · rfl
      · exact absurd contrary positive

/-- The remainder of the product with the inverse is the quotient. -/
theorem IsInverse.isQuotient_iff {w : Int} (inverse : IsInverse m y w) :
    IsQuotient m x y q ↔ IsRemainder m (x * w) q := by
  constructor
  · rintro ⟨nonneg, lt, congruent⟩
    refine ⟨nonneg, lt, ?_⟩
    calc
      q = q * 1 := (mul_one q).symm
      _ ≡ q * (y * w) [ZMOD m] := inverse.congruent.symm.mul_left q
      _ = q * y * w := by ring
      _ ≡ x * w [ZMOD m] := congruent.mul_right w
  · rintro ⟨nonneg, lt, congruent⟩
    refine ⟨nonneg, lt, ?_⟩
    calc
      q * y ≡ x * w * y [ZMOD m] := congruent.mul_right y
      _ = x * (y * w) := by ring
      _ ≡ x * 1 [ZMOD m] := inverse.congruent.mul_left x
      _ = x := mul_one x

theorem divideMod_eq_ok : divideMod x y m = .ok q ↔ Int.gcd y m = 1 ∧ IsQuotient m x y q := by
  unfold divideMod multiplyMod
  constructor
  · intro h
    obtain ⟨w, inverted, reduced⟩ := Outcome.bind_eq_ok.1 h
    have inverse := inverseMod_eq_ok.1 inverted
    exact ⟨inverse.coprime, inverse.isQuotient_iff.2 (modulo_eq_ok.1 reduced)⟩
  · rintro ⟨coprime, quotient⟩
    obtain ⟨w, inverted⟩ := exists_inverseMod.2 ⟨quotient.pos, coprime⟩
    have inverse := inverseMod_eq_ok.1 inverted
    exact Outcome.bind_eq_ok.2 ⟨w, inverted, modulo_eq_ok.2 (inverse.isQuotient_iff.1 quotient)⟩

/-- The product is always reduced, so only the inverse can be refused. -/
theorem divideMod_eq_error {e : Error} : divideMod x y m = .error e ↔ Indivisible m y e := by
  unfold divideMod multiplyMod
  rw [Outcome.bind_eq_error, inverseMod_eq_error]
  constructor
  · rintro (indivisible | ⟨w, inverted, refused⟩)
    · exact indivisible
    · have inverse := inverseMod_eq_ok.1 inverted
      exact absurd (modulo_eq_error.1 refused).1 (not_le.2 inverse.pos)
  · exact .inl

/-- Modulo one, zero is inverse to everything. -/
theorem inverseMod_one (x : Int) : inverseMod x 1 = .ok 0 := by
  apply inverseMod_eq_ok.2
  exact ⟨le_rfl, one_pos, Int.modEq_one⟩

/-! ## What results say -/

/-- The result is the remainder of `x`, and only moduli that are not positive are refused. -/
structure Reduces (m x : Int) (result : Result Int) : Prop where
  refused {e : Error} : result = .error e ↔ m ≤ 0 ∧ e = .arithmetic (.nonPositiveModulus m)
  reduced {r : Int} : result = .ok r ↔ IsRemainder m x r

theorem reduces_modulo (m x : Int) : Reduces m x (modulo x m) where
  refused := modulo_eq_error
  reduced := modulo_eq_ok

/-- The result is the quotient of `x` by `y`, which there is for every positive modulus that has no divisor in
    common with `y`. -/
structure Divides (m x y : Int) (result : Result Int) : Prop where
  refused {e : Error} : result = .error e ↔ Indivisible m y e
  exists_iff : (∃ q, result = .ok q) ↔ 0 < m ∧ Int.gcd y m = 1
  divided {q : Int} : result = .ok q ↔ Int.gcd y m = 1 ∧ IsQuotient m x y q

theorem divides_inverseMod (m y : Int) : Divides m 1 y (inverseMod y m) where
  refused := inverseMod_eq_error
  exists_iff := exists_inverseMod
  divided := by
    intro q
    rw [inverseMod_eq_ok, isQuotient_one]
    constructor
    · intro inverse
      exact ⟨inverse.coprime, inverse⟩
    · rintro ⟨-, inverse⟩
      exact inverse

theorem divides_divideMod (m x y : Int) : Divides m x y (divideMod x y m) where
  refused := divideMod_eq_error
  exists_iff := by
    rw [← exists_inverseMod]
    constructor
    · rintro ⟨q, h⟩
      obtain ⟨w, inverted, -⟩ := Outcome.bind_eq_ok.1 h
      exact ⟨w, inverted⟩
    · rintro ⟨w, inverted⟩
      have inverse := inverseMod_eq_ok.1 inverted
      have quotient := inverse.isQuotient_iff.2 (isRemainder_emod inverse.pos (x * w))
      exact ⟨_, divideMod_eq_ok.2 ⟨inverse.coprime, quotient⟩⟩
  divided := divideMod_eq_ok

/-- The result is the quotient and the remainder of `x` by `y`, and only zero is refused. -/
structure Splits (x y : Int) (result : Result (Int × Int)) : Prop where
  refused {e : Error} : result = .error e ↔ y = 0 ∧ e = .arithmetic .divisionByZero
  split {q r : Int} : result = .ok (q, r) ↔ IsDivision x y q r

/-- Every operation that involves a division is exact. -/
structure DividesExactly (x y m : Int) : Prop where
  remainder : Reduces m x (modulo x m)
  sum : Reduces m (x + y) (addMod x y m)
  difference : Reduces m (x - y) (subtractMod x y m)
  product : Reduces m (x * y) (multiplyMod x y m)
  inverse : Divides m 1 x (inverseMod x m)
  inverse_modulo_one : inverseMod x 1 = .ok 0
  quotient : Divides m x y (divideMod x y m)
  division : Splits x y (divideWithRemainder x y)

/-- Integers of any sign and size are divided exactly, modulo numbers of any sign and size. -/
theorem division_exact (x y m : Int) : DividesExactly x y m where
  remainder := reduces_modulo m x
  sum := reduces_modulo m (x + y)
  difference := reduces_modulo m (x - y)
  product := reduces_modulo m (x * y)
  inverse := divides_inverseMod m x
  inverse_modulo_one := inverseMod_one x
  quotient := divides_divideMod m x y
  division := ⟨divideWithRemainder_eq_error, divideWithRemainder_eq_ok⟩

end Bitcoin.Integer
