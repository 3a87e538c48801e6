import Bitcoin.Proofs.Curve.Action
import Bitcoin.Proofs.KeyPair.Reachable

/-! # Shared points

Either of two holders of secrets takes the other's point times their own secret. Both get the generator's
multiple by the product of the secrets, which is not infinity since the group order is prime.
-/

namespace Bitcoin.KeyPair

variable {key other : KeyPair} {d e : Scalar}

/-- What two holders share, as the first of them computes it. -/
theorem Sound.diffieHellman_eq (sound : key.Sound) (sound' : other.Sound)
    (held : key.secret = some d) (held' : other.secret = some e) :
    key.diffieHellman other = .ok ⟨none, Point.generator.multiply (d * e), true⟩ := by
  have product : other.point.multiply d = Point.generator.multiply (d * e) := by
    rw [sound'.secret e held', Point.multiply_multiply Point.onCurve_generator]
  have nonzero : d * e ≠ 0 := by
    have first := residue_eq_zero.not.2 (sound.secret_ne_zero held)
    have second := residue_eq_zero.not.2 (sound'.secret_ne_zero held')
    apply residue_eq_zero.not.1
    rw [residue_mul]
    exact mul_ne_zero first second
  have finite := Point.generator_multiply_eq_infinity.not.2 nonzero
  apply Outcome.bind_eq_ok.2
  refine ⟨d, requireSecret_eq_ok.2 held, ?_⟩
  rw [product]
  exact ofPoint_eq_ok.2 ⟨finite, rfl⟩

/-- Holders of secrets agree on one point, and neither result tells a secret. -/
theorem Sound.diffieHellman_agree (sound : key.Sound) (sound' : other.Sound)
    (held : key.secret = some d) (held' : other.secret = some e) :
    ∃ shared, key.diffieHellman other = .ok shared ∧ other.diffieHellman key = .ok shared ∧
      shared.secret = none ∧ shared.compressed = true := by
  have forth := sound.diffieHellman_eq sound' held held'
  have back := sound'.diffieHellman_eq sound held' held
  rw [mul_comm] at back
  exact ⟨_, forth, back, rfl, rfl⟩

/-- The integers act on every point of the curve, and so any two holders of secrets share a point. -/
theorem integers_act_and_agree :
    (∀ p : Point, p.OnCurve → p.IsActedOn) ∧
    ∀ key other : KeyPair, key.Reachable → other.Reachable → ∀ d e, key.secret = some d → other.secret = some e →
      ∃ shared, key.diffieHellman other = .ok shared ∧ other.diffieHellman key = .ok shared ∧
        shared.secret = none ∧ shared.compressed = true := by
  constructor
  · intro p onCurve
    exact Point.isActedOn onCurve
  · intro key other reachable reachable' d e held held'
    exact reachable.sound.diffieHellman_agree reachable'.sound held held'

/-- The generator taken as often as there are points is infinity, and the holders of one and two share a point. -/
theorem integers_act_and_agree_two :
    (Point.generator.OnCurve ∧ Point.generator.IsActedOn ∧
      Point.generator.multiplyInteger groupOrder = .ok .infinity) ∧
    ∃ key other : KeyPair, key.Reachable ∧ other.Reachable ∧ key.secret = some 1 ∧ other.secret = some 2 ∧
      ∃ shared, key.diffieHellman other = .ok shared ∧ other.diffieHellman key = .ok shared ∧
        shared.secret = none ∧ shared.compressed = true := by
  obtain ⟨acts, agree⟩ := integers_act_and_agree
  have acted := acts Point.generator Point.onCurve_generator
  have first := reachable_secret (show (1 : Scalar) ≠ 0 by decide) false
  have second := reachable_secret (show (2 : Scalar) ≠ 0 by decide) true
  constructor
  · exact ⟨Point.onCurve_generator, acted, acted.eq_infinity.2 (.inr dvd_rfl)⟩
  · exact ⟨_, _, first, second, rfl, rfl, agree _ _ first second 1 2 rfl rfl⟩

end Bitcoin.KeyPair
