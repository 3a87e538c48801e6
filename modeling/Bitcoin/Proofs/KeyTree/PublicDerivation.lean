import Bitcoin.Proofs.KeyTree.Reachable

/-! # Public derivation

Without hardened steps a node and its public part lead to the same children along any path: what one branch
adds to the secret, the other adds to the point, and both fail together.
-/

namespace Bitcoin.KeyNode

variable {node : KeyNode}

/-- The public part of a sum is the sum with the public part, and one is missing when the other is. -/
theorem addFactor_publicOnly {key : KeyPair} (sound : key.Sound) (factor : Scalar) (step : ChildNumber) :
    addFactor key.publicOnly factor step = (addFactor key factor step).map KeyPair.publicOnly := by
  have bare : key.publicOnly.secret = none := rfl
  rw [addFactor_point bare]
  cases secret : key.secret with
  | none =>
      have same : key.publicOnly.point = key.point := rfl
      rw [addFactor_point secret, same]
      split_ifs <;> rfl
  | some parent =>
      have point : key.publicOnly.point.addGenerator factor =
          Point.generator.multiply (factor + parent) := by
        rw [KeyPair.publicOnly, sound.secret parent secret, Point.addGenerator_generator_multiply]
      simp only [addFactor_secret secret, point, Point.generator_multiply_eq_infinity]
      split_ifs <;> rfl

theorem childOfHash_publicOnly (sound : node.key.Sound) (step : ChildNumber) (depth : UInt8)
    (hash : Octets (32 + 32)) :
    node.publicOnly.childOfHash step depth hash =
      (node.childOfHash step depth hash).map fun (child, factor) => (child.publicOnly, factor) := by
  unfold childOfHash
  split_ifs with below
  · have sum : addFactor node.publicOnly.key ⟨hash.left.toNat, below⟩ step =
        (addFactor node.key ⟨hash.left.toNat, below⟩ step).map KeyPair.publicOnly :=
      addFactor_publicOnly sound _ step
    simp only [sum]
    cases addFactor node.key ⟨hash.left.toNat, below⟩ step with
    | error e => rfl
    | ok key => rfl
  · rfl

theorem derive_publicOnly (sound : node.key.Sound) {step : ChildNumber} (plain : step.hardened = false) :
    node.publicOnly.derive step.word step.hardened =
      (node.derive step.word step.hardened).map publicOnly := by
  have seed : node.publicOnly.childSeed step = node.childSeed step := by
    unfold childSeed
    rw [plain]
    rfl
  have child (hash : Octets (32 + 32)) := childOfHash_publicOnly sound step (node.depth + 1) hash
  rw [derive_step, derive_step, seed]
  -- Of the public node a step reads the same place and chain code, and another pair only.
  change (if node.cleared then _ else if node.depth = 255 then _ else node.childSeed step >>= fun seed =>
    node.publicOnly.childOfHash step (node.depth + 1) (Hash.hmacSha512 node.chainCode.toList seed) >>=
      fun (child, _) => .ok child) = _
  split_ifs
  · rfl
  · rfl
  · cases node.childSeed step with
    | error e => rfl
    | ok octets =>
        rw [Outcome.ok_bind, Outcome.ok_bind, child]
        cases node.childOfHash step (node.depth + 1) (Hash.hmacSha512 node.chainCode.toList octets) with
        | error e => rfl
        | ok made => rfl

/-- Along a path the two nodes stay in this relation, and fail at the same step in the same way. -/
theorem derivePath_publicOnly (sound : node.Sound) {path : DerivationPath}
    (plain : ∀ step ∈ path, step.hardened = false) :
    node.publicOnly.derivePath path = (node.derivePath path).map publicOnly := by
  induction path generalizing node with
  | nil => rfl
  | cons step path ih =>
      have first := derive_publicOnly sound.key (plain step List.mem_cons_self)
      unfold derivePath
      rw [first]
      cases derived : node.derive step.word step.hardened with
      | error e => rfl
      | ok child => exact ih (sound.derive derived) fun later member => plain later (.tail _ member)

/-! ## Failures -/

/-- A plain step of a live node only fails at the greatest depth or for want of a child. -/
theorem eq_of_derive_eq_error (live : node.cleared = false) {step : ChildNumber}
    (plain : step.hardened = false) {e : Error} (h : node.derive step.word step.hardened = .error e) :
    e = .maxDepthExceeded ∨ e = .invalidChild step.word := by
  rw [derive_step, live, if_neg Bool.false_ne_true] at h
  split_ifs at h
  · cases h
    exact .inl rfl
  · rcases Outcome.bind_eq_error.1 h with h | ⟨seed, -, h⟩
    · rw [childSeed, plain] at h
      cases h
    · rcases Outcome.bind_eq_error.1 h with h | ⟨made, -, h⟩
      · exact .inr (eq_invalidChild_of_childOfHash h)
      · cases h

theorem eq_of_derivePath_eq_error (live : node.cleared = false) {path : DerivationPath}
    (plain : ∀ step ∈ path, step.hardened = false) {e : Error} (h : node.derivePath path = .error e) :
    e = .maxDepthExceeded ∨ ∃ step ∈ path, e = .invalidChild step.word := by
  induction path generalizing node with
  | nil => cases h
  | cons step path ih =>
      rcases Outcome.bind_eq_error.1 h with h | ⟨next, derived, h⟩
      · rcases eq_of_derive_eq_error live (plain step List.mem_cons_self) h with deepest | missing
        · exact .inl deepest
        · exact .inr ⟨step, List.mem_cons_self, missing⟩
      · have later := ih (live_of_derive derived) (fun later member => plain later (.tail _ member)) h
        rcases later with deepest | ⟨missing, member, h⟩
        · exact .inl deepest
        · exact .inr ⟨missing, .tail _ member, h⟩

/-! ## The public part as a shadow -/

/-- Deriving without hardened steps and dropping the secret can be done in either order: the same node comes
    out, with the same extended public key, or the same error. -/
theorem publicOnly_shadows_derivePath (reachable : node.Reachable) (live : node.cleared = false)
    {path : DerivationPath} (plain : ∀ step ∈ path, step.hardened = false) :
    node.publicOnly.derivePath path = (node.derivePath path).map publicOnly ∧
      (∀ child, node.derivePath path = .ok child →
        node.publicOnly.derivePath path = .ok child.publicOnly ∧
          ∃ octets, child.toExtended false = .ok octets ∧ child.publicOnly.toExtended false = .ok octets) ∧
      ∀ e, node.derivePath path = .error e → node.publicOnly.derivePath path = .error e ∧
        (e = .maxDepthExceeded ∨ ∃ step ∈ path, e = .invalidChild step.word) := by
  have shadow := derivePath_publicOnly reachable.sound plain
  refine ⟨shadow, fun child derived => ⟨?_, ?_⟩, fun e failed => ⟨?_, ?_⟩⟩
  · rw [shadow, derived]
    rfl
  · obtain ⟨octets, written⟩ := exists_toExtended (live_of_derivePath live derived) Bool.false_ne_true.elim
    exact ⟨octets, written, written⟩
  · rw [shadow, failed]
    rfl
  · exact eq_of_derivePath_eq_error live plain failed

/-- The first child of the node whose secret is one. -/
theorem publicOnly_shadows_first_child :
    (master 1).Reachable ∧ (master 1).publicOnly.derivePath [masterChild] =
      ((master 1).derivePath [masterChild]).map publicOnly :=
  have reachable : (master 1).Reachable := reachable_master (by decide)
  have plain : ∀ step ∈ [masterChild], step.hardened = false := by decide
  ⟨reachable, (publicOnly_shadows_derivePath reachable rfl plain).1⟩

end Bitcoin.KeyNode
