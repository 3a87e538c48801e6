/-! # Greatest common divisors as multiples

Euclid's algorithm on two numbers, which also finds the factor that makes the first number congruent to
their greatest common divisor modulo the second. Inverses modulo any number, the field prime and the
group order among them, are read off that factor.
-/

namespace Bitcoin

/-- A greatest common divisor and the factor that produces it. -/
structure Bezout where
  gcd : Nat
  /-- Times the first number, this is congruent to the greatest common divisor. -/
  factor : Int

/-- Euclid's algorithm on the remainders `r` and `s`, which `x` and `y` produce. -/
def Bezout.step (r s : Nat) (x y : Int) : Bezout :=
  if _h : s = 0 then ⟨r, x⟩
  else Bezout.step s (r % s) y (x - (r / s : Nat) * y)
termination_by s
decreasing_by exact Nat.mod_lt r (Nat.pos_of_ne_zero _h)

/-- Euclid's algorithm on `a` and `b`. -/
def bezout (a b : Nat) : Bezout :=
  Bezout.step a b 1 0

theorem Bezout.gcd_step (r s : Nat) (x y : Int) : (Bezout.step r s x y).gcd = Nat.gcd r s := by
  fun_induction Bezout.step r s x y with
  | case1 => simp
  | case2 r s x y _ ih => rw [ih, Nat.gcd_comm, ← Nat.gcd_rec, Nat.gcd_comm]

theorem gcd_bezout (a b : Nat) : (bezout a b).gcd = Nat.gcd a b :=
  Bezout.gcd_step a b 1 0

/-- If `x` produces `r` and `y` produces `s`, the factor found produces the divisor found. -/
theorem Bezout.dvd_step {a m : Int} (r s : Nat) (x y : Int) (hx : m ∣ a * x - r)
    (hy : m ∣ a * y - s) :
    m ∣ a * (Bezout.step r s x y).factor - (Bezout.step r s x y).gcd := by
  fun_induction Bezout.step r s x y with
  | case1 => exact hx
  | case2 r s x y _ ih =>
      refine ih hy ?_
      have split : (r : Int) = s * (r / s : Nat) + (r % s : Nat) := by
        exact_mod_cast (Nat.div_add_mod r s).symm
      have combined := Int.dvd_sub hx (Int.dvd_trans hy (Int.dvd_mul_right _ ((r / s : Nat) : Int)))
      have same : a * (x - (r / s : Nat) * y) - (r % s : Nat)
          = a * x - r - (a * y - s) * (r / s : Nat) := by
        rw [split]
        grind
      rw [same]
      exact combined

/-- The factor makes `a` congruent to the greatest common divisor modulo `b`. -/
theorem dvd_bezout (a b : Nat) :
    (b : Int) ∣ a * (bezout a b).factor - (bezout a b).gcd :=
  Bezout.dvd_step a b 1 0 (by simp) (by simp)

end Bitcoin
