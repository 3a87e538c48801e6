import Bitcoin.KeyPair.Message
import Bitcoin.Proofs.KeyPair.Reachable
import Bitcoin.Proofs.Signature.Canonical

/-! # What key pairs sign

A signature is low, verifies for the pair with or without its secret, is read back from DER and passes the
strict check. Without a secret nothing is signed; with one, only a nonce that gives a zero, or that is not
found, keeps from signing.
-/

namespace Bitcoin

namespace KeyPair

variable {key : KeyPair} {hash : Octets 32} {sig : Signature} {id : RecoveryId} {secret : Scalar}

theorem signingSecret_eq (sound : key.Sound) : key.signingSecret = key.requireSecret := by
  unfold signingSecret requireSecret
  cases held : key.secret with
  | none => rfl
  | some secret =>
      rw [Outcome.ok_bind, if_neg (sound.secret_ne_zero held)]
      rfl

theorem signRecoverable_of_none (lacking : key.secret = none) :
    key.signRecoverable hash = .error .noSecretKey := by
  unfold signRecoverable signingSecret requireSecret
  rw [lacking]
  rfl

theorem signRecoverable_of_some (sound : key.Sound) (held : key.secret = some secret) :
    key.signRecoverable hash = match Ecdsa.sign? secret hash with
      | some signed => .ok signed
      | none => .error (.invalidSignature .unsolvable) := by
  unfold signRecoverable
  rw [signingSecret_eq sound, requireSecret_eq_ok.2 held, Outcome.ok_bind]
  cases Ecdsa.sign? secret hash <;> rfl

/-- What is signed is low, and the pair's point is its signer. -/
theorem signRecoverable_eq_ok (sound : key.Sound) (h : key.signRecoverable hash = .ok (sig, id)) :
    sig.isLowS = true ∧ Ecdsa.SignedBy key.point sig id hash := by
  cases held : key.secret with
  | none =>
      rw [signRecoverable_of_none held] at h
      cases h
  | some secret =>
      rw [signRecoverable_of_some sound held] at h
      cases signed : Ecdsa.sign? secret hash with
      | none =>
          rw [signed] at h
          cases h
      | some pair =>
          rw [signed] at h
          cases h
          rw [sound.secret secret held]
          exact Ecdsa.sign?_eq_some (sound.secret_ne_zero held) signed

theorem sign_eq_ok : key.sign hash = .ok sig ↔ ∃ id, key.signRecoverable hash = .ok (sig, id) := by
  unfold sign
  rw [Outcome.bind_eq_ok]
  constructor
  · rintro ⟨⟨sig, id⟩, signed, ⟨⟩⟩
    exact ⟨id, signed⟩
  · rintro ⟨id, signed⟩
    exact ⟨(sig, id), signed, rfl⟩

theorem sign_eq_error {e : Error} : key.sign hash = .error e ↔ key.signRecoverable hash = .error e := by
  unfold sign
  rw [Outcome.bind_eq_error]
  constructor
  · rintro (failed | ⟨_, -, ⟨⟩⟩)
    exact failed
  · exact .inl

/-- Signing fails for want of a secret, or of a solution. -/
theorem sign_eq_error_iff (sound : key.Sound) {e : Error} : key.sign hash = .error e ↔
    key.secret = none ∧ e = .noSecretKey ∨
      ∃ secret, key.secret = some secret ∧ Ecdsa.sign? secret hash = none ∧
        e = .invalidSignature .unsolvable := by
  rw [sign_eq_error]
  cases held : key.secret with
  | none => simp [signRecoverable_of_none held, eq_comm]
  | some secret =>
      rw [signRecoverable_of_some sound held]
      cases signed : Ecdsa.sign? secret hash <;> simp [signed, eq_comm (a := e)]

/-- What holds of a signature that a pair makes of a hash. -/
structure Signs (key : KeyPair) (hash : Octets 32) (sig : Signature) : Prop where
  inRange : Signature.InRange sig.r ∧ Signature.InRange sig.s
  isLowS : sig.isLowS = true
  verify : key.verify sig hash = true ∧ key.publicOnly.verify sig hash = true
  verifyOpposite : key.verify sig.opposite hash = true ∧ key.publicOnly.verify sig.opposite hash = true
  ofDer : Signature.ofDer sig.toDer = .ok sig
  verifyDer : key.verifyDer sig.toDer hash = true
  canonical : ∀ hashType : UInt8, (hashType &&& 0x7f) ∈ ([1, 2, 3] : Bytes) →
    ∃ octets, key.signWithHashType hash hashType = .ok octets ∧ Canonical.checkSignature octets true = .ok ()

theorem signs_of_sign (sound : key.Sound) (h : key.sign hash = .ok sig) : Signs key hash sig := by
  obtain ⟨id, signed⟩ := sign_eq_ok.1 h
  obtain ⟨low, signer⟩ := signRecoverable_eq_ok sound signed
  have verified : Ecdsa.verify key.point sig hash = true := (Ecdsa.verify_iff sound.onCurve).2 ⟨id, signer⟩
  have opposite : Ecdsa.verify key.point sig.opposite hash = true :=
    (Ecdsa.verify_iff sound.onCurve).2 ⟨id.mirror, signer.opposite sound.onCurve⟩
  have inRange : Signature.InRange sig.r ∧ Signature.InRange sig.s := by
    obtain ⟨-, r, s, possible, -⟩ := signer
    obtain ⟨rNonzero, sNonzero, rfl⟩ := Signature.components?_eq_some.1 possible
    exact ⟨Signature.inRange_toOctets rNonzero, Signature.inRange_toOctets sNonzero⟩
  have read : Signature.ofDer sig.toDer = .ok sig := Signature.ofDer_toDer inRange.1 inRange.2
  refine ⟨inRange, low, ⟨verified, verified⟩, ⟨opposite, opposite⟩, read, ?_, fun hashType defined => ?_⟩
  · unfold verifyDer
    rw [read]
    exact verified
  · refine ⟨sig.toDerWithHashType hashType, Outcome.bind_eq_ok.2 ⟨sig, h, rfl⟩, ?_⟩
    exact Canonical.checkSignature_toDerWithHashType (Canonical.isDefinedHashType_of_mem defined) fun _ => low

/-- Whatever a pair signs, the signature is in range and low; it and its opposite verify for the pair, with or
    without the secret; it is read back from DER and verifies there; and with any defined hash type it passes
    the strict check. Signing fails for want of a secret exactly when there is none, and else exactly when the
    nonce gives a zero or no draw is a nonce (`Nonce.derive?_eq_none`; more draws would change no nonce that is
    found, by `Nonce.search_of_le`). -/
theorem sign_correct (reachable : key.Reachable) (hash : Octets 32) :
    (∀ sig, key.sign hash = .ok sig → Signs key hash sig) ∧
    (key.sign hash = .error .noSecretKey ↔ key.secret = none) ∧
    (key.sign hash = .error (.invalidSignature .unsolvable) ↔ ∃ secret, key.secret = some secret ∧
      (Nonce.derive? secret hash = none ∨
        ∃ nonce, Nonce.derive? secret hash = some nonce ∧ Ecdsa.Degenerate secret nonce hash)) ∧
    ∀ e, key.sign hash = .error e → e = .noSecretKey ∨ e = .invalidSignature .unsolvable := by
  have sound := reachable.sound
  refine ⟨fun sig => signs_of_sign sound, ?_, ?_, fun e failed => ?_⟩
  · rw [sign_eq_error_iff sound]
    simp
  · rw [sign_eq_error_iff sound]
    simp [Ecdsa.sign?_eq_none]
  · rcases (sign_eq_error_iff sound).1 failed with ⟨-, rfl⟩ | ⟨secret, -, -, rfl⟩
    · exact .inl rfl
    · exact .inr rfl

/-- The pair of the secret one. -/
def unitKey : KeyPair :=
  ⟨some 1, Point.generator.multiply 1, true⟩

theorem reachable_unitKey : unitKey.Reachable :=
  reachable_secret (by decide) true

/-- It can sign the empty message: the nonce gives no zero. -/
theorem exists_signRecoverable_unitKey :
    ∃ sig id, unitKey.signRecoverable (Message.hash []) = .ok (sig, id) := by
  have solvable : (Ecdsa.sign? 1 (Message.hash [])).isSome = true := by decide +kernel
  obtain ⟨⟨sig, id⟩, signed⟩ := Option.isSome_iff_exists.1 solvable
  refine ⟨sig, id, ?_⟩
  rw [signRecoverable_of_some reachable_unitKey.sound rfl, signed]

/-- Signing with a secret, and without. -/
theorem sign_correct_unitKey :
    (unitKey.Reachable ∧ ∃ sig, unitKey.sign (Message.hash []) = .ok sig ∧
      Signs unitKey (Message.hash []) sig) ∧
    unitKey.clear.Reachable ∧ unitKey.clear.sign (Message.hash []) = .error .noSecretKey := by
  obtain ⟨sig, id, signed⟩ := exists_signRecoverable_unitKey
  have signs := sign_eq_ok.2 ⟨id, signed⟩
  refine ⟨⟨reachable_unitKey, sig, signs, ?_⟩, reachable_unitKey.clear, ?_⟩
  · exact (sign_correct reachable_unitKey (Message.hash [])).1 sig signs
  · exact (sign_correct reachable_unitKey.clear (Message.hash [])).2.1.2 rfl

end KeyPair

end Bitcoin
