import Bitcoin.KeyPair
import Bitcoin.Proofs.Curve.Encoding
import Bitcoin.Proofs.Curve.Generator
import Bitcoin.Proofs.Outcome

/-! # Sound key pairs

Every way of making a key pair gives one whose point is on the curve and not infinity, and whose secret, if
it has one, is the scalar that the point is a multiple of the generator by.
-/

namespace Bitcoin.KeyPair

variable {key : KeyPair}

theorem ofScalar_eq_ok {secret : Scalar} :
    ofScalar secret = .ok key ↔
      secret ≠ 0 ∧ key = ⟨some secret, Point.generator.multiply secret, true⟩ := by
  unfold ofScalar
  split_ifs with zero
  · simp [zero]
  · simp [zero, eq_comm]

theorem ofSecret_eq_ok {octets : Bytes} :
    ofSecret octets = .ok key ↔ ∃ secret : Scalar, octets = secret.toOctets.toList ∧
      secret ≠ 0 ∧ key = ⟨some secret, Point.generator.multiply secret, true⟩ := by
  unfold ofSecret
  rw [Outcome.bind_eq_ok]
  simp only [Scalar.ofBytes_eq_ok, ofScalar_eq_ok]

theorem ofPoint_eq_ok {point : Point} :
    ofPoint point = .ok key ↔ point ≠ .infinity ∧ key = ⟨none, point, true⟩ := by
  unfold ofPoint
  split_ifs with infinite
  · simp [infinite]
  · simp [infinite, eq_comm]

theorem ofPublicKey_eq_ok {octets : Bytes} :
    ofPublicKey octets = .ok key ↔
      ∃ point, Point.decode octets = .ok point ∧ key = ⟨none, point, octets.length = 33⟩ :=
  Outcome.bind_pure_eq_ok

theorem requireSecret_eq_ok {secret : Scalar} :
    key.requireSecret = .ok secret ↔ key.secret = some secret := by
  unfold requireSecret
  cases key.secret with
  | none => simp
  | some held => simp

/-- The point is an affine one of the curve, and a secret is what leads to it. -/
structure Sound (key : KeyPair) : Prop where
  onCurve : key.point.OnCurve
  finite : key.point ≠ .infinity
  secret : ∀ d, key.secret = some d → key.point = Point.generator.multiply d

namespace Sound

theorem secret_ne_zero (sound : key.Sound) {d : Scalar} (h : key.secret = some d) : d ≠ 0 := by
  rintro rfl
  have point := sound.secret 0 h
  rw [Point.generator_multiply_eq_infinity.2 rfl] at point
  exact sound.finite point

theorem ofScalar {secret : Scalar} (h : KeyPair.ofScalar secret = .ok key) : key.Sound := by
  obtain ⟨nonzero, rfl⟩ := ofScalar_eq_ok.1 h
  refine ⟨Point.onCurve_generator_multiply secret, ?_, ?_⟩
  · exact Point.generator_multiply_eq_infinity.not.2 nonzero
  · rintro d ⟨⟩
    rfl

theorem ofSecret {octets : Bytes} (h : KeyPair.ofSecret octets = .ok key) : key.Sound := by
  obtain ⟨secret, -, made⟩ := ofSecret_eq_ok.1 h
  exact ofScalar (ofScalar_eq_ok.2 made)

theorem ofPoint {point : Point} (onCurve : point.OnCurve) (h : KeyPair.ofPoint point = .ok key) :
    key.Sound := by
  obtain ⟨finite, rfl⟩ := ofPoint_eq_ok.1 h
  exact ⟨onCurve, finite, fun _ none => nomatch none⟩

theorem ofPublicKey {octets : Bytes} (h : KeyPair.ofPublicKey octets = .ok key) : key.Sound := by
  obtain ⟨point, decoded, rfl⟩ := ofPublicKey_eq_ok.1 h
  obtain ⟨onCurve, encoded⟩ := Point.encode_decode decoded
  refine ⟨onCurve, ?_, fun _ none => nomatch none⟩
  rintro rfl
  cases encoded

theorem publicOnly (sound : key.Sound) : key.publicOnly.Sound :=
  ⟨sound.onCurve, sound.finite, fun _ none => nomatch none⟩

theorem clear (sound : key.Sound) : key.clear.Sound :=
  sound.publicOnly

end Sound

/-- A point other than infinity has an encoding, so the octets of a pair are never the empty ones. -/
theorem encode_eq_encodePoint (finite : key.point ≠ .infinity) (compressed : Bool) :
    key.point.encode compressed = .ok (key.encodePoint compressed) := by
  unfold encodePoint
  cases point : key.point with
  | infinity => exact absurd point finite
  | affine x y => cases compressed <;> rfl

end Bitcoin.KeyPair
