import Bitcoin.Proofs.KeyPair.Reachable
import Bitcoin.Proofs.Signature.Der

/-! # What verifying accepts

A signature is valid for a point if both of its numbers are in range and the combination of the generator and the
point that they prescribe has the first coordinate `r` modulo the group order. Verifying decides exactly this,
whatever octets the signature holds: normalizing `s` first makes no invalid signature valid and no valid one
invalid.
-/

namespace Bitcoin

theorem Scalar.residue_reduce (octets : Octets 32) : residue (reduce octets) = (octets.toNat : ZMod groupOrder) :=
  residue_ofNat octets.toNat

namespace RecoveryId

variable {r : Scalar} {p : Point}

/-- Some id names a point exactly if the point is finite and has the first coordinate `r`. -/
theorem exists_names_iff : (∃ id : RecoveryId, id.Names r p) ↔
    ∃ x y, p = .affine x y ∧ p.OnCurve ∧ x.val ≡ r.val [MOD groupOrder] := by
  have first (x : FieldElement) : Fin.ofNat groupOrder x.val = r ↔ x.val ≡ r.val [MOD groupOrder] := by
    rw [Fin.ext_iff, Nat.ModEq, Nat.mod_eq_of_lt r.isLt]
    rfl
  constructor
  · rintro ⟨id, names⟩
    cases p with
    | infinity => exact names.elim
    | affine x y => exact ⟨x, y, rfl, names.1, (first x).1 names.2.1⟩
  · rintro ⟨x, y, rfl, onCurve, congruent⟩
    exact ⟨_, onCurve, (first x).2 congruent, rfl⟩

end RecoveryId

namespace Ecdsa

variable {q : Point} {sig : Signature} {hash : Octets 32}

/-- The signature of the hash is valid for the point: both numbers are in range, and `(z / s) G + (r / s) Q` is a
    finite point whose first coordinate is `r` modulo the group order. -/
structure Valid (q : Point) (sig : Signature) (hash : Octets 32) : Prop where
  r : Signature.InRange sig.r
  s : Signature.InRange sig.s
  equation : ∃ x y, (Point.affine x y).OnCurve ∧
    (Point.affine x y).toGroup =
      ((hash.toNat : ZMod groupOrder) * (sig.s.toNat : ZMod groupOrder)⁻¹) • Point.generator.toGroup +
        ((sig.r.toNat : ZMod groupOrder) * (sig.s.toNat : ZMod groupOrder)⁻¹) • q.toGroup ∧
    x.val ≡ sig.r.toNat [MOD groupOrder]

/-- The witness is the combination that the equation prescribes. -/
theorem toGroup_witness_reduce (onCurve : q.OnCurve) (r s : Scalar) (hash : Octets 32) :
    (witness q r s (Scalar.reduce hash)).toGroup =
      ((hash.toNat : ZMod groupOrder) * (s.toOctets.toNat : ZMod groupOrder)⁻¹) • Point.generator.toGroup +
        ((r.toOctets.toNat : ZMod groupOrder) * (s.toOctets.toNat : ZMod groupOrder)⁻¹) • q.toGroup := by
  have cast (k : Scalar) : (k.toOctets.toNat : ZMod groupOrder) = residue k :=
    congrArg Nat.cast (Scalar.toNat_toOctets k)
  rw [toGroup_witness onCurve, Scalar.residue_reduce, cast, cast]
  module

theorem valid_ofScalars (onCurve : q.OnCurve) {r s : Scalar} (rNonzero : r ≠ 0) (sNonzero : s ≠ 0) :
    Valid q (Signature.ofScalars r s) hash ↔ ∃ id : RecoveryId, id.Names r (witness q r s (Scalar.reduce hash)) := by
  have onWitness := onCurve_witness onCurve r s (Scalar.reduce hash)
  have first : (Signature.ofScalars r s).r.toNat = r.val := Scalar.toNat_toOctets r
  rw [RecoveryId.exists_names_iff]
  constructor
  · intro valid
    obtain ⟨x, y, onPoint, equation, congruent⟩ := valid.equation
    have same : witness q r s (Scalar.reduce hash) = .affine x y := by
      apply (Point.toGroup_inj onWitness onPoint).1
      exact (toGroup_witness_reduce onCurve r s hash).trans equation.symm
    rw [first] at congruent
    exact ⟨x, y, same, onWitness, congruent⟩
  · rintro ⟨x, y, same, -, congruent⟩
    refine ⟨Signature.inRange_toOctets rNonzero, Signature.inRange_toOctets sNonzero, x, y, same ▸ onWitness, ?_, ?_⟩
    · rw [← same]
      exact toGroup_witness_reduce onCurve r s hash
    · rwa [first]

/-- Verifying decides validity, for any point of the curve but infinity. -/
theorem verify_iff_valid (onCurve : q.OnCurve) (finite : q ≠ .infinity) :
    verify q sig hash = true ↔ Valid q sig hash := by
  rw [verify_iff onCurve]
  constructor
  · rintro ⟨id, -, r, s, possible, names⟩
    obtain ⟨rNonzero, sNonzero, rfl⟩ := Signature.components?_eq_some.1 possible
    exact (valid_ofScalars onCurve rNonzero sNonzero).2 ⟨id, names⟩
  · intro valid
    obtain ⟨r, s, rNonzero, sNonzero, rfl⟩ := Signature.exists_ofScalars valid.r valid.s
    obtain ⟨id, names⟩ := (valid_ofScalars onCurve rNonzero sNonzero).1 valid
    exact ⟨id, (signedBy_ofScalars rNonzero sNonzero).2 ⟨finite, names⟩⟩

/-- Of two opposite signatures either both verify or none. -/
theorem verify_opposite (onCurve : q.OnCurve) (inRange : Signature.InRange sig.s) :
    verify q sig.opposite hash = verify q sig hash := by
  rw [Bool.eq_iff_iff, verify_iff onCurve, verify_iff onCurve]
  constructor
  · rintro ⟨id, signed⟩
    have back := signed.opposite onCurve
    rw [Signature.opposite_opposite inRange] at back
    exact ⟨id.mirror, back⟩
  · rintro ⟨id, signed⟩
    exact ⟨id.mirror, signed.opposite onCurve⟩

end Ecdsa

namespace KeyPair

variable {key : KeyPair}

theorem verifyDer_eq_true {der : Bytes} {hash : Octets 32} :
    key.verifyDer der hash = true ↔ ∃ sig, Signature.ofDer der = .ok sig ∧ key.verify sig hash = true := by
  unfold verifyDer
  cases Signature.ofDer der with
  | ok sig => simp
  | error e => simp

/-- The pair accepts the valid signatures of its point and no others, in octets and in DER. -/
structure Discerns (key : KeyPair) : Prop where
  valid (sig : Signature) (hash : Octets 32) :
    key.verify sig hash = true ↔ Ecdsa.Valid key.point sig hash
  /-- What normalizing leaves of a signature is low, and to ask this again refuses nothing. -/
  low {sig : Signature} {r s : Scalar} : sig.normalizeS.components? = some (r, s) → s.isHigh = false
  opposite {sig : Signature} (hash : Octets 32) :
    Signature.InRange sig.s → key.verify sig.opposite hash = key.verify sig hash
  /-- Subtracting an `s` from the order up wraps around, but never into the range. -/
  wrapped {sig : Signature} (hash : Octets 32) : groupOrder ≤ sig.s.toNat → key.verify sig hash = false
  der (der : Bytes) (hash : Octets 32) :
    key.verifyDer der hash = true ↔ ∃ sig, Signature.ofDer der = .ok sig ∧ Ecdsa.Valid key.point sig hash

/-- Whatever octets a signature holds, a key pair verifies it exactly if it is valid for the pair's point. -/
theorem verify_discerns (reachable : key.Reachable) : key.Discerns := by
  have onCurve := reachable.sound.onCurve
  have accepts (sig : Signature) (hash : Octets 32) :
      key.verify sig hash = true ↔ Ecdsa.Valid key.point sig hash :=
    Ecdsa.verify_iff_valid onCurve reachable.sound.finite
  constructor
  case valid => exact accepts
  case low => exact Signature.isHigh_of_components?_normalizeS
  case opposite =>
    intro sig hash inRange
    exact Ecdsa.verify_opposite onCurve inRange
  case wrapped =>
    intro sig hash beyond
    apply Bool.eq_false_of_not_eq_true
    intro verified
    exact Nat.not_le.2 ((accepts sig hash).1 verified).s.2 beyond
  case der =>
    intro der hash
    simp only [verifyDer_eq_true, accepts]

/-- The generator's pair accepts a signature and its opposite, and refuses one whose `s` is the group order. -/
theorem verify_discerns_generator : KeyPair.Reachable ⟨none, .generator, true⟩ ∧
    KeyPair.verify ⟨none, .generator, true⟩ unitSignature (Octets.zero 32) = true ∧
    KeyPair.verify ⟨none, .generator, true⟩ unitSignature.opposite (Octets.zero 32) = true ∧
    KeyPair.verify ⟨none, .generator, true⟩ ⟨unitSignature.r, Signature.orderOctets⟩ (Octets.zero 32) = false := by
  have made : KeyPair.ofPoint .generator = .ok ⟨none, .generator, true⟩ := by
    apply ofPoint_eq_ok.2
    exact ⟨by decide, rfl⟩
  have reachable : KeyPair.Reachable ⟨none, .generator, true⟩ := .ofPoint Point.onCurve_generator made
  have inRange : Signature.InRange unitSignature.s := by decide
  have verified : KeyPair.verify ⟨none, .generator, true⟩ unitSignature (Octets.zero 32) = true := by
    decide +kernel
  have opposite := (verify_discerns reachable).opposite (Octets.zero 32) inRange
  refine ⟨reachable, verified, opposite.trans verified, ?_⟩
  exact (verify_discerns reachable).wrapped (Octets.zero 32) (by decide)

end KeyPair

end Bitcoin
