import Bitcoin.Proofs.KeyPair.Signing

/-! # Compact signatures and signed messages, there and back

A compact signature is recovered to the pair that made it, less its secret and in the same form. So a signed
message verifies for the signer's point in the signer's form and in no other, and leads to the signer's
address.
-/

namespace Bitcoin.KeyPair

variable {key signer : KeyPair} {hash : Octets 32} {compact message : Bytes}

theorem signCompact_eq_ok : key.signCompact hash = .ok compact ↔ ∃ sig id,
    key.signRecoverable hash = .ok (sig, id) ∧
      compact = compactOctets (RecoveryId.toOctet id) key.compressed sig := by
  unfold signCompact
  rw [Outcome.bind_eq_ok]
  constructor
  · rintro ⟨⟨sig, id⟩, signed, ⟨⟩⟩
    exact ⟨sig, id, signed, rfl⟩
  · rintro ⟨sig, id, signed, rfl⟩
    exact ⟨(sig, id), signed, rfl⟩

/-- What a pair signs is recovered to the pair without its secret. -/
theorem recoverCompact_signCompact (sound : key.Sound) (h : key.signCompact hash = .ok compact) :
    recoverCompact compact hash = .ok key.publicOnly := by
  obtain ⟨sig, id, signed, same⟩ := signCompact_eq_ok.1 h
  have signer := (signRecoverable_eq_ok sound signed).2
  exact recoverCompact_eq_ok.2 ⟨sig, id, same, rfl, sound.onCurve, signer⟩

theorem isValidCompact_of_recoverCompact (h : recoverCompact compact hash = .ok signer) :
    key.isValidCompact compact hash = decide (signer.point = key.point) := by
  unfold isValidCompact
  rw [h]

theorem verifyMessage_of_recoverMessageSigner (h : recoverMessageSigner compact message = .ok signer) :
    key.verifyMessage compact message =
      decide (signer.point = key.point ∧ signer.compressed = key.compressed) := by
  unfold verifyMessage
  rw [h]

/-- What holds of a compact signature that a pair makes of a hash: its header is 27 and a recovery id, with
    four more for a compressed key, behind it come both numbers of the plain signature, and it leads back to
    the pair. -/
structure SignsCompact (key : KeyPair) (hash : Octets 32) (compact : Bytes) : Prop where
  octets : ∃ (sig : Signature) (header : UInt8) (recid : Nat), key.sign hash = .ok sig ∧
    compact = header :: sig.r.toList ++ sig.s.toList ∧ recid ≤ 3 ∧
      header.toNat = 27 + recid + if key.compressed then 4 else 0
  recovered : recoverCompact compact hash = .ok key.publicOnly
  valid : key.isValidCompact compact hash = true

theorem signsCompact_of_signCompact (sound : key.Sound) (h : key.signCompact hash = .ok compact) :
    SignsCompact key hash compact := by
  have recovered := recoverCompact_signCompact sound h
  obtain ⟨sig, id, signed, same⟩ := signCompact_eq_ok.1 h
  refine ⟨⟨sig, compactHeader id key.compressed, id.toOctet.toNat, sign_eq_ok.2 ⟨id, signed⟩, same, ?_, ?_⟩,
    recovered, ?_⟩
  · exact UInt8.le_iff_toNat_le.1 id.toOctet_le
  · exact toNat_compactHeader id key.compressed
  · rw [isValidCompact_of_recoverCompact recovered]
    exact decide_eq_true rfl

/-- What holds of a message that a pair signs. -/
structure SignsMessage (key : KeyPair) (message compact : Bytes) : Prop where
  verifies : key.verifyMessage compact message = true
  otherForm : ∀ other : KeyPair, other.point = key.point → other.compressed = !key.compressed →
    other.verifyMessage compact message = false
  address : ∃ signer, recoverMessageSigner compact message = .ok signer ∧
    ∀ network, signer.address network = key.address network

theorem signsMessage_of_signMessage (sound : key.Sound) (h : key.signMessage message = .ok compact) :
    SignsMessage key message compact := by
  have recovered : recoverMessageSigner compact message = .ok key.publicOnly :=
    recoverCompact_signCompact sound h
  refine ⟨?_, fun other _ form => ?_, key.publicOnly, recovered, fun network => rfl⟩
  · rw [verifyMessage_of_recoverMessageSigner recovered]
    exact decide_eq_true ⟨rfl, rfl⟩
  · rw [verifyMessage_of_recoverMessageSigner recovered, decide_eq_false_iff_not, form]
    rintro ⟨-, same⟩
    exact (Bool.eq_not_self key.compressed).1 same

/-- Compact signatures of hashes and of messages of any length lead back to the pair that made them. -/
theorem signCompact_leads_back (reachable : key.Reachable) :
    (∀ hash compact, key.signCompact hash = .ok compact → SignsCompact key hash compact) ∧
    ∀ message compact, key.signMessage message = .ok compact → SignsMessage key message compact := by
  have sound := reachable.sound
  refine ⟨fun hash compact => ?_, fun message compact => ?_⟩
  · exact signsCompact_of_signCompact sound
  · exact signsMessage_of_signMessage sound

/-- The pair of the secret one signs the empty message. -/
theorem signCompact_leads_back_unitKey : unitKey.Reachable ∧
    ∃ compact, unitKey.signCompact (Message.hash []) = .ok compact ∧ unitKey.signMessage [] = .ok compact ∧
      SignsCompact unitKey (Message.hash []) compact ∧ SignsMessage unitKey [] compact := by
  obtain ⟨sig, id, signed⟩ := exists_signRecoverable_unitKey
  have compact := signCompact_eq_ok.2 ⟨sig, id, signed, rfl⟩
  obtain ⟨hashes, messages⟩ := signCompact_leads_back reachable_unitKey
  exact ⟨reachable_unitKey, _, compact, compact, hashes _ _ compact, messages [] _ compact⟩

end Bitcoin.KeyPair
