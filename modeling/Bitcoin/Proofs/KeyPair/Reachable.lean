import Bitcoin.KeyPair.Wif
import Bitcoin.Proofs.KeyPair.Recovery

/-! # Reachable key pairs

The pairs that a program can hold: pairs of a secret, of a point or of octets or text that stand for one,
recovered signers and shared points, and what comes of these by dropping the secret and by choosing the form.
They are the sound pairs.
-/

namespace Bitcoin.KeyPair

/-- The pair comes out of some sequence of operations. -/
inductive Reachable : KeyPair → Prop where
  | ofSecret {octets : Bytes} {key : KeyPair} : KeyPair.ofSecret octets = .ok key → Reachable key
  | ofPoint {point : Point} {key : KeyPair} :
      point.OnCurve → KeyPair.ofPoint point = .ok key → Reachable key
  | ofPublicKey {octets : Bytes} {key : KeyPair} : KeyPair.ofPublicKey octets = .ok key → Reachable key
  | ofWif {text : String} {network : Network} {key : KeyPair} :
      KeyPair.ofWif text = .ok (key, network) → Reachable key
  | recoverCompact {compact : Bytes} {hash : Octets 32} {key : KeyPair} :
      KeyPair.recoverCompact compact hash = .ok key → Reachable key
  | diffieHellman {key other shared : KeyPair} :
      Reachable key → Reachable other → key.diffieHellman other = .ok shared → Reachable shared
  | publicOnly {key : KeyPair} : Reachable key → Reachable key.publicOnly
  | withCompressed {key : KeyPair} (compressed : Bool) :
      Reachable key → Reachable (key.withCompressed compressed)
  | clear {key : KeyPair} : Reachable key → Reachable key.clear

variable {key other shared : KeyPair}

namespace Sound

theorem withCompressed (sound : key.Sound) (compressed : Bool) : (key.withCompressed compressed).Sound :=
  ⟨sound.onCurve, sound.finite, sound.secret⟩

theorem ofWif {text : String} {network : Network} (h : KeyPair.ofWif text = .ok (key, network)) :
    key.Sound := by
  obtain ⟨payload, -, h⟩ := Outcome.bind_eq_ok.1 h
  split at h
  · cases h
  · obtain ⟨compressed, -, h⟩ := Outcome.bind_eq_ok.1 h
    obtain ⟨secret, made, h⟩ := Outcome.bind_eq_ok.1 h
    cases h
    exact (ofSecret made).withCompressed compressed

theorem recoverCompact {compact : Bytes} {hash : Octets 32}
    (h : KeyPair.recoverCompact compact hash = .ok key) : key.Sound := by
  obtain ⟨sig, id, -, lacking, onCurve, signed⟩ := recoverCompact_eq_ok.1 h
  refine ⟨onCurve, signed.1, fun d held => ?_⟩
  rw [lacking] at held
  cases held

theorem diffieHellman (sound : other.Sound) (h : key.diffieHellman other = .ok shared) : shared.Sound := by
  obtain ⟨secret, -, made⟩ := Outcome.bind_eq_ok.1 h
  exact ofPoint (Point.onCurve_multiply sound.onCurve secret) made

end Sound

/-- Every reachable pair is sound. -/
theorem Reachable.sound (reachable : key.Reachable) : key.Sound := by
  induction reachable with
  | ofSecret h => exact .ofSecret h
  | ofPoint onCurve h => exact .ofPoint onCurve h
  | ofPublicKey h => exact .ofPublicKey h
  | ofWif h => exact .ofWif h
  | recoverCompact h => exact .recoverCompact h
  | diffieHellman _ _ h _ other => exact other.diffieHellman h
  | publicOnly _ sound => exact sound.publicOnly
  | withCompressed compressed _ sound => exact sound.withCompressed compressed
  | clear _ sound => exact sound.clear

/-- The pair of a secret with its point. -/
theorem reachable_secret {secret : Scalar} (nonzero : secret ≠ 0) (compressed : Bool) :
    Reachable ⟨some secret, Point.generator.multiply secret, compressed⟩ :=
  .withCompressed compressed (.ofSecret (ofSecret_eq_ok.2 ⟨secret, rfl, nonzero, rfl⟩))

/-- Soundness is all that can be told of reachable pairs. -/
theorem reachable_iff_sound : key.Reachable ↔ key.Sound := by
  refine ⟨Reachable.sound, fun sound => ?_⟩
  obtain ⟨secret, point, compressed⟩ := key
  cases secret with
  | none =>
      have made : KeyPair.ofPoint point = .ok ⟨none, point, true⟩ := ofPoint_eq_ok.2 ⟨sound.finite, rfl⟩
      exact .withCompressed compressed (.ofPoint sound.onCurve made)
  | some secret =>
      obtain rfl : point = Point.generator.multiply secret := sound.secret secret rfl
      exact reachable_secret (sound.secret_ne_zero rfl) compressed

end Bitcoin.KeyPair
