import Bitcoin.KeyTree.Derivation
import Bitcoin.Proofs.KeyPair.Sound

/-! # What a step of derivation does

The checks of a step in their order, and everything that is known of a child when there is one.
-/

namespace Bitcoin

namespace ChildNumber

theorem toNat_word (step : ChildNumber) : step.word.toNat = step.index.val :=
  UInt32.toNat_ofNat_of_lt' (Nat.lt_trans step.index.isLt (by decide))

theorem ofIndex_word (step : ChildNumber) : ofIndex step.word step.hardened = .ok step := by
  have small := step.index.isLt
  have value := toNat_word step
  rw [ofIndex, dif_pos (by omega)]
  congr 2
  exact Fin.ext value

end ChildNumber

namespace KeyNode

variable {node child : KeyNode} {factor : Scalar}

/-! ## The pair of a child -/

theorem addFactor_secret {key : KeyPair} {parent : Scalar} (held : key.secret = some parent)
    (factor : Scalar) (step : ChildNumber) :
    addFactor key factor step =
      if factor + parent = 0 then .error (.invalidChild step.word)
      else .ok ⟨some (factor + parent), Point.generator.multiply (factor + parent), true⟩ := by
  simp only [addFactor, held]
  split_ifs with zero
  · rfl
  · exact KeyPair.ofScalar_eq_ok.2 ⟨zero, rfl⟩

theorem addFactor_point {key : KeyPair} (lacking : key.secret = none) (factor : Scalar)
    (step : ChildNumber) :
    addFactor key factor step =
      if key.point.addGenerator factor = .infinity then .error (.invalidChild step.word)
      else .ok ⟨none, key.point.addGenerator factor, true⟩ := by
  simp only [addFactor, lacking]
  split_ifs with infinite
  · rfl
  · exact KeyPair.ofPoint_eq_ok.2 ⟨infinite, rfl⟩

theorem sound_addFactor {key sum : KeyPair} {step : ChildNumber} (sound : key.Sound)
    (h : addFactor key factor step = .ok sum) : sum.Sound ∧ sum.compressed = true := by
  cases secret : key.secret with
  | some parent =>
      rw [addFactor_secret secret] at h
      split_ifs at h with zero
      cases h
      exact ⟨.ofScalar (KeyPair.ofScalar_eq_ok.2 ⟨zero, rfl⟩), rfl⟩
  | none =>
      rw [addFactor_point secret] at h
      split_ifs at h with infinite
      cases h
      have onCurve := Point.onCurve_addGenerator sound.onCurve factor
      exact ⟨.ofPoint onCurve (KeyPair.ofPoint_eq_ok.2 ⟨infinite, rfl⟩), rfl⟩

theorem eq_invalidChild_of_addFactor {key : KeyPair} {step : ChildNumber} {e : Error}
    (h : addFactor key factor step = .error e) : e = .invalidChild step.word := by
  cases secret : key.secret with
  | some parent =>
      rw [addFactor_secret secret] at h
      split_ifs at h
      cases h
      rfl
  | none =>
      rw [addFactor_point secret] at h
      split_ifs at h
      cases h
      rfl

/-! ## One step -/

theorem childOfHash_eq_ok {step : ChildNumber} {depth : UInt8} {hash : Octets (32 + 32)} :
    node.childOfHash step depth hash = .ok (child, factor) ↔
      hash.left.toNat = factor.val ∧ ∃ key, addFactor node.key factor step = .ok key ∧
        child = { key := key, chainCode := hash.right, depth := depth,
                  parentFingerprint := node.fingerprint, child := step, network := node.network,
                  cleared := false } := by
  unfold childOfHash
  constructor
  · intro h
    split_ifs at h with below
    obtain ⟨key, added, value⟩ := Outcome.bind_eq_ok.1 h
    cases value
    exact ⟨rfl, key, added, rfl⟩
  · rintro ⟨value, key, added, rfl⟩
    have same : (⟨hash.left.toNat, value ▸ factor.isLt⟩ : Scalar) = factor := Fin.ext value
    rw [dif_pos (value ▸ factor.isLt), same]
    exact Outcome.bind_eq_ok.2 ⟨key, added, rfl⟩

theorem eq_invalidChild_of_childOfHash {step : ChildNumber} {depth : UInt8} {hash : Octets (32 + 32)}
    {e : Error} (h : node.childOfHash step depth hash = .error e) : e = .invalidChild step.word := by
  unfold childOfHash at h
  split_ifs at h
  · rcases Outcome.bind_eq_error.1 h with h | ⟨key, -, h⟩
    · exact eq_invalidChild_of_addFactor h
    · cases h
  · cases h
    rfl

/-- The checks of a derivation in their order. -/
theorem deriveWithFactor_eq (node : KeyNode) (index : UInt32) (hardened : Bool) :
    node.deriveWithFactor index hardened =
      if node.cleared then .error .cleared
      else ChildNumber.ofIndex index hardened >>= fun step =>
        if node.depth = 255 then .error .maxDepthExceeded
        else node.childSeed step >>= fun seed =>
          node.childOfHash step (node.depth + 1) (Hash.hmacSha512 node.chainCode.toList seed) := by
  unfold deriveWithFactor requireLive
  cases node.cleared with
  | true => rfl
  | false =>
      cases ChildNumber.ofIndex index hardened with
      | error e => rfl
      | ok step => by_cases deepest : node.depth = 255 <;> simp only [deepest] <;> rfl

/-- A step of a path is in range by its type, which leaves two checks. -/
theorem derive_step (node : KeyNode) (step : ChildNumber) :
    node.derive step.word step.hardened =
      if node.cleared then .error .cleared
      else if node.depth = 255 then .error .maxDepthExceeded
      else node.childSeed step >>= fun seed =>
        node.childOfHash step (node.depth + 1) (Hash.hmacSha512 node.chainCode.toList seed) >>=
          fun (child, _) => .ok child := by
  unfold derive
  rw [deriveWithFactor_eq, ChildNumber.ofIndex_word]
  split_ifs with cleared deepest
  · rfl
  · rfl
  · rw [Outcome.ok_bind]
    cases node.childSeed step with
    | error e => rfl
    | ok seed => rfl

theorem deriveWithFactor_eq_ok {index : UInt32} {hardened : Bool} :
    node.deriveWithFactor index hardened = .ok (child, factor) ↔
      node.cleared = false ∧ node.depth ≠ 255 ∧ ∃ step seed, ChildNumber.ofIndex index hardened = .ok step ∧
        node.childSeed step = .ok seed ∧ node.childOfHash step (node.depth + 1)
          (Hash.hmacSha512 node.chainCode.toList seed) = .ok (child, factor) := by
  rw [deriveWithFactor_eq]
  constructor
  · intro h
    split_ifs at h with cleared deepest
    · obtain ⟨step, -, h⟩ := Outcome.bind_eq_ok.1 h
      cases h
    · obtain ⟨step, number, h⟩ := Outcome.bind_eq_ok.1 h
      obtain ⟨seed, seeded, h⟩ := Outcome.bind_eq_ok.1 h
      exact ⟨eq_false_of_ne_true cleared, deepest, step, seed, number, seeded, h⟩
  · rintro ⟨live, shallow, step, seed, number, seeded, h⟩
    rw [live, if_neg Bool.false_ne_true, number]
    refine Outcome.bind_eq_ok.2 ⟨step, rfl, ?_⟩
    rw [if_neg shallow, seeded]
    exact h

theorem derive_eq_ok {index : UInt32} {hardened : Bool} : node.derive index hardened = .ok child ↔
    ∃ factor, node.deriveWithFactor index hardened = .ok (child, factor) := by
  unfold derive
  rw [Outcome.bind_eq_ok]
  constructor
  · rintro ⟨⟨found, factor⟩, derived, h⟩
    cases h
    exact ⟨factor, derived⟩
  · rintro ⟨factor, derived⟩
    exact ⟨_, derived, rfl⟩

theorem live_of_derive {index : UInt32} {hardened : Bool} (h : node.derive index hardened = .ok child) :
    child.cleared = false := by
  obtain ⟨factor, derived⟩ := derive_eq_ok.1 h
  obtain ⟨-, -, step, seed, -, -, made⟩ := deriveWithFactor_eq_ok.1 derived
  obtain ⟨-, key, -, rfl⟩ := childOfHash_eq_ok.1 made
  rfl

/-! ## Many steps -/

/-- What every step keeps is kept along a path. -/
theorem derivePath_preserves {P : KeyNode → Prop}
    (keeps : ∀ {node child : KeyNode} {index : UInt32} {hardened : Bool},
      P node → node.derive index hardened = .ok child → P child)
    {path : DerivationPath} (start : P node) (h : node.derivePath path = .ok child) : P child := by
  induction path generalizing node with
  | nil =>
      cases h
      exact start
  | cons step path ih =>
      obtain ⟨next, derived, h⟩ := Outcome.bind_eq_ok.1 h
      exact ih (keeps start derived) h

theorem live_of_derivePath {path : DerivationPath} (live : node.cleared = false)
    (h : node.derivePath path = .ok child) : child.cleared = false :=
  derivePath_preserves (fun _ derived => live_of_derive derived) live h

end KeyNode

end Bitcoin
