import Bitcoin.Curve.Parameters
import Mathlib.NumberTheory.LucasPrimality

/-! # The two primes of the curve

The field prime and the group order are prime by Lucas's test: a number `p` is prime if some `a` has order
`p - 1` modulo `p`. The test needs the prime factors of `p - 1`, so it is run from small primes upwards.
Powers modulo a number are taken by a structural recursion that the kernel can run.
-/

namespace Bitcoin

namespace Prime

/-- `result` times `a ^ exponent` modulo `m`, by squaring `a` once for each bit of the exponent. -/
def powerModulo (m : Nat) : Nat → Nat → Nat → Nat → Nat
  | 0, _, _, result => result % m
  | bits + 1, a, exponent, result =>
      powerModulo m bits (a * a % m) (exponent / 2)
        (if exponent % 2 = 1 then result * a % m else result)

theorem powerModulo_eq (m bits a exponent result : Nat) (small : exponent < 2 ^ bits) :
    (powerModulo m bits a exponent result : ZMod m) = result * (a : ZMod m) ^ exponent := by
  induction bits generalizing a exponent result with
  | zero =>
      have zero : exponent = 0 := by simpa using small
      simp [powerModulo, zero]
  | succ bits ih =>
      have half : exponent / 2 < 2 ^ bits := by
        rw [Nat.pow_succ] at small
        omega
      have squared : ((a * a % m : Nat) : ZMod m) ^ (exponent / 2) =
          (a : ZMod m) ^ (2 * (exponent / 2)) := by
        rw [ZMod.natCast_mod, Nat.cast_mul, ← sq, pow_mul]
      rw [powerModulo, ih _ _ _ half, squared]
      split_ifs with odd
      · have split : exponent = 2 * (exponent / 2) + 1 := by omega
        conv_rhs => rw [split, pow_succ]
        rw [ZMod.natCast_mod, Nat.cast_mul]
        ring
      · have split : exponent = 2 * (exponent / 2) := by omega
        conv_rhs => rw [split]

/-- A power of `a` modulo `m`. -/
def power (m a exponent : Nat) : Nat :=
  powerModulo m (exponent.log2 + 1) a exponent 1

theorem pow_eq_one_iff {m : Nat} (large : 1 < m) (a exponent : Nat) :
    (a : ZMod m) ^ exponent = 1 ↔ power m a exponent % m = 1 := by
  have value := powerModulo_eq m (exponent.log2 + 1) a exponent 1 Nat.lt_log2_self
  have one := ZMod.natCast_eq_natCast_iff' (power m a exponent) 1 m
  rw [Nat.cast_one, one_mul] at value
  rw [Nat.cast_one, Nat.mod_eq_of_lt large] at one
  rw [← value]
  exact one

/-- The number has no divisor below 200 but one and itself, and is below the square of 200. -/
def isSmallPrime (q : Nat) : Bool :=
  2 ≤ q && q < 40000 && (List.range 200).all fun m => q % m ≠ 0 || m < 2 || m = q

theorem prime_of_isSmallPrime {q : Nat} (h : isSmallPrime q = true) : q.Prime := by
  simp only [isSmallPrime, Bool.and_eq_true, decide_eq_true_eq, List.all_eq_true, List.mem_range,
    Bool.or_eq_true] at h
  obtain ⟨⟨two_le, bound⟩, divisors⟩ := h
  by_contra composite
  have square := Nat.minFac_sq_le_self (by omega) composite
  have least : q.minFac < 200 := by
    by_contra big
    have := Nat.pow_le_pow_left (Nat.not_lt.1 big) 2
    omega
  have prime := Nat.minFac_prime (n := q) (by omega)
  rcases divisors q.minFac least with (rest | unit) | whole
  · exact rest (Nat.mod_eq_zero_of_dvd (Nat.minFac_dvd q))
  · exact absurd prime.two_le (by omega)
  · exact composite (whole ▸ prime)

/-- What Lucas's test needs for a prime: an element of full order, and the prime factors of the number
    before it, each as often as it occurs. -/
structure Step where
  prime : Nat
  witness : Nat
  factors : List Nat

/-- The test, given numbers that are known to be prime. -/
def Step.passes (known : List Nat) (step : Step) : Bool :=
  1 < step.prime && step.factors.prod = step.prime - 1 &&
    power step.prime step.witness (step.prime - 1) % step.prime = 1 &&
    step.factors.all fun q => (known.contains q || isSmallPrime q) &&
      power step.prime step.witness ((step.prime - 1) / q) % step.prime ≠ 1

theorem Step.prime_of_passes {known : List Nat} (primes : ∀ q ∈ known, q.Prime) {step : Step}
    (h : step.passes known = true) : step.prime.Prime := by
  simp only [passes, Bool.and_eq_true, Bool.or_eq_true, decide_eq_true_eq, List.all_eq_true,
    List.contains_iff_mem] at h
  obtain ⟨⟨⟨large, product⟩, full⟩, parts⟩ := h
  refine lucas_primality step.prime (step.witness : ZMod step.prime) ?_ ?_
  · exact (pow_eq_one_iff large _ _).2 full
  · intro q prime divides
    rw [← product] at divides
    obtain ⟨factor, member, divides⟩ := (Prime.dvd_prod_iff prime.prime).1 divides
    obtain ⟨certified, partial_⟩ := parts factor member
    have factorPrime : factor.Prime := by
      rcases certified with certified | certified
      · exact primes factor certified
      · exact prime_of_isSmallPrime certified
    obtain rfl := (Nat.prime_dvd_prime_iff_eq prime factorPrime).1 divides
    exact fun one => partial_ ((pow_eq_one_iff large _ _).1 one)

/-- The primes of the steps that pass, each with the ones before it at hand. -/
def certified (steps : List Step) : List Nat :=
  steps.foldl (fun known step => if step.passes known then step.prime :: known else known) []

theorem prime_of_mem_certified (steps : List Step) : ∀ p ∈ certified steps, p.Prime := by
  unfold certified
  suffices ∀ known : List Nat, (∀ q ∈ known, q.Prime) → ∀ p ∈ steps.foldl
      (fun known step => if step.passes known then step.prime :: known else known) known,
        p.Prime from this [] (by simp)
  induction steps with
  | nil => exact fun known primes => primes
  | cons step steps ih =>
      intro known primes
      refine ih _ fun q member => ?_
      dsimp only at member
      split_ifs at member with passes
      · rcases List.mem_cons.1 member with rfl | member
        · exact step.prime_of_passes primes passes
        · exact primes q member
      · exact primes q member

/-- From small primes up to the field prime and the group order. -/
def steps : List Step := [
  ⟨41201, 3, [2, 2, 2, 2, 5, 5, 103]⟩,
  ⟨85831, 3, [2, 3, 5, 2861]⟩,
  ⟨96557, 2, [2, 2, 101, 239]⟩,
  ⟨120233, 3, [2, 2, 2, 7, 19, 113]⟩,
  ⟨305873, 3, [2, 2, 2, 2, 7, 2731]⟩,
  ⟨1206781, 10, [2, 2, 3, 5, 20113]⟩,
  ⟨1627771, 3, [2, 3, 5, 29, 1871]⟩,
  ⟨4681609, 23, [2, 2, 2, 3, 97, 2011]⟩,
  ⟨7240687, 3, [2, 3, 1206781]⟩,
  ⟨13331831, 13, [2, 5, 971, 1373]⟩,
  ⟨44706919, 6, [2, 3, 797, 9349]⟩,
  ⟨107590001, 3, [2, 2, 2, 2, 5, 5, 5, 5, 7, 29, 53]⟩,
  ⟨545358713, 5, [2, 2, 2, 41, 59, 28181]⟩,
  ⟨297159362677, 2, [2, 2, 3, 3, 11, 461, 1627771]⟩,
  ⟨107361793816595537, 3, [2, 2, 2, 2, 16699, 85831, 4681609]⟩,
  ⟨173378833005251801, 6, [2, 2, 2, 5, 5, 2621, 24809, 13331831]⟩,
  ⟨174723607534414371449, 3, [2, 2, 2, 17, 59, 4051, 120233, 44706919]⟩,
  ⟨22149492674086928081353, 5, [2, 2, 2, 3, 5323, 173378833005251801]⟩,
  ⟨132896956044521568488119, 6, [2, 3, 22149492674086928081353]⟩,
  ⟨29047611873442575647497758179, 2, [2, 293, 305873, 545358713, 297159362677]⟩,
  ⟨341948486974166000522343609283189, 2, [2, 2, 3, 3, 3, 109, 29047611873442575647497758179]⟩,
  ⟨255515944373312847190720520512484175977, 3,
    [2, 2, 2, 7, 7, 11, 1627, 2657, 4423, 41201, 96557, 7240687, 107590001]⟩,
  ⟨205115282021455665897114700593932402728804164701536103180137503955397371, 10,
    [2, 3, 5, 29, 29, 31, 7723, 132896956044521568488119,
      255515944373312847190720520512484175977]⟩,
  ⟨groupOrder, 7,
    [2, 2, 2, 2, 2, 2, 3, 149, 631, 107361793816595537, 174723607534414371449,
      341948486974166000522343609283189]⟩,
  ⟨fieldPrime, 3,
    [2, 3, 7, 13441, 205115282021455665897114700593932402728804164701536103180137503955397371]⟩]

end Prime

theorem Prime.certified_steps : fieldPrime ∈ certified steps ∧ groupOrder ∈ certified steps := by
  decide +kernel

theorem fieldPrime_prime : fieldPrime.Prime :=
  Prime.prime_of_mem_certified Prime.steps fieldPrime Prime.certified_steps.1

theorem groupOrder_prime : groupOrder.Prime :=
  Prime.prime_of_mem_certified Prime.steps groupOrder Prime.certified_steps.2

end Bitcoin
