import Bitcoin.Proofs.KeyTree.ExtendedKey

/-! # Equal nodes

Nodes are compared field by field. Of reachable live nodes nothing is lost by comparing what they are
written as instead: the public octets hold every field but the secret, and a secret is determined by its
point, so it only matters whether there is one.
-/

namespace Bitcoin

namespace KeyPair

variable {key other : KeyPair}

theorem agrees_iff : key.agrees other = true ↔ key = other := by
  cases key
  cases other
  simp only [agrees, Bool.and_eq_true, beq_iff_eq, mk.injEq]
  tauto

theorem publicOnly_eq_iff : key.publicOnly = other.publicOnly ↔
    key.point = other.point ∧ key.compressed = other.compressed := by
  simp [publicOnly]

/-- No two secrets lead to the same point, so a pair is its public part and whether it has a secret. -/
theorem Sound.eq_of_publicOnly (sound : key.Sound) (sound' : other.Sound)
    (same : key.publicOnly = other.publicOnly) (secrecy : key.hasSecret = other.hasSecret) : key = other := by
  obtain ⟨point, compressed⟩ := publicOnly_eq_iff.1 same
  have secret : key.secret = other.secret := by
    cases held : key.secret with
    | none =>
        rw [hasSecret, held] at secrecy
        exact (Option.isNone_iff_eq_none.1 (Option.isSome_eq_false_iff.1 secrecy.symm)).symm
    | some d =>
        rw [hasSecret, held] at secrecy
        obtain ⟨e, held'⟩ := Option.isSome_iff_exists.1 secrecy.symm
        have multiples : Point.generator.multiply d = Point.generator.multiply e := by
          rw [← sound.secret d held, ← sound'.secret e held', point]
        rw [held', Point.generator_multiply_inj.1 multiples]
  exact agrees_iff.1 (by simp [agrees, point, compressed, secret])

end KeyPair

namespace KeyNode

variable {a b : KeyNode} {octets octets' : Bytes}

theorem agrees_iff : a.agrees b = true ↔ a = b := by
  obtain ⟨key, chainCode, depth, parent, ⟨index, hardened⟩, network, cleared⟩ := a
  obtain ⟨key', chainCode', depth', parent', ⟨index', hardened'⟩, network', cleared'⟩ := b
  simp only [agrees, Bool.and_eq_true, beq_iff_eq, KeyPair.agrees_iff, mk.injEq, ChildNumber.mk.injEq]
  tauto

theorem agrees_eq_decide (a b : KeyNode) : a.agrees b = decide (a = b) :=
  Bool.eq_iff_iff.2 (agrees_iff.trans decide_eq_true_iff.symm)

theorem agrees_equivalence : Equivalence fun a b : KeyNode => a.agrees b = true where
  refl _ := agrees_iff.2 rfl
  symm same := agrees_iff.2 (agrees_iff.1 same).symm
  trans same next := agrees_iff.2 ((agrees_iff.1 same).trans (agrees_iff.1 next))

/-! ## What is written -/

/-- Nodes that are written as the same public octets have the same public part: it is what those octets are
    read as. -/
theorem publicOnly_eq_of_toExtended (sound : a.Sound) (sound' : b.Sound)
    (written : a.toExtended false = .ok octets) (written' : b.toExtended false = .ok octets) :
    a.publicOnly = b.publicOnly := by
  have read := ofExtended_toExtended sound written
  have read' := ofExtended_toExtended sound' written'
  exact Except.ok.inj (read.symm.trans read')

theorem Sound.eq_of_publicOnly (sound : a.Sound) (sound' : b.Sound) (same : a.publicOnly = b.publicOnly)
    (secrecy : a.isPrivate = b.isPrivate) : a = b := by
  have keys : a.key.publicOnly = b.key.publicOnly := congrArg KeyNode.key same
  have key : a.key = b.key := sound.key.eq_of_publicOnly sound'.key keys secrecy
  calc
    a = { a.publicOnly with key := a.key } := rfl
    _ = { b.publicOnly with key := b.key } := by rw [same, key]
    _ = b := rfl

/-- The public octets of two nodes, and whether they have secrets, decide whether they are one node. -/
theorem eq_iff_of_toExtended (sound : a.Sound) (sound' : b.Sound) (written : a.toExtended false = .ok octets)
    (written' : b.toExtended false = .ok octets') : a = b ↔ octets = octets' ∧ a.isPrivate = b.isPrivate := by
  constructor
  · rintro rfl
    exact ⟨Except.ok.inj (written.symm.trans written'), rfl⟩
  · rintro ⟨rfl, secrecy⟩
    exact sound.eq_of_publicOnly sound' (publicOnly_eq_of_toExtended sound sound' written written') secrecy

theorem isPrivate_iff_of_live (live : a.cleared = false) :
    a.isPrivate = true ↔ ∃ octets, a.toExtended true = .ok octets := by
  constructor
  · exact fun held => exists_toExtended live fun _ => held
  · rintro ⟨octets, written⟩
    by_contra lacking
    rw [toExtended_eq_noSecretKey live (Bool.eq_false_iff.2 lacking)] at written
    cases written

/-! ## What agreement means -/

/-- No derivation, no writing and no dropping of secrets tells the two nodes apart. -/
structure Interchangeable (a b : KeyNode) : Prop where
  derive : ∀ index hardened, a.derive index hardened = b.derive index hardened
  deriveWithFactor : ∀ index hardened, a.deriveWithFactor index hardened = b.deriveWithFactor index hardened
  publicOnly : a.publicOnly.agrees b.publicOnly = true
  toExtended : ∀ withSecret, a.toExtended withSecret = b.toExtended withSecret
  toExtendedText : ∀ withSecret, a.toExtendedText withSecret = b.toExtendedText withSecret

theorem interchangeable_of_agrees (same : a.agrees b = true) : a.Interchangeable b := by
  cases agrees_iff.1 same
  exact ⟨fun _ _ => rfl, fun _ _ => rfl, agrees_iff.2 rfl, fun _ => rfl, fun _ => rfl⟩

/-- How the comparison of two live nodes goes with the octets that they are written as and with what can be
    done with them. -/
structure ComparedAsWritten (a b : KeyNode) : Prop where
  publicOctets : ∃ octets octets', a.toExtended false = .ok octets ∧ octets.length = 78 ∧
    b.toExtended false = .ok octets' ∧ octets'.length = 78 ∧
    (a.agrees b = true ↔ octets = octets' ∧
      (a.isPrivate = true ∧ b.isPrivate = true ∨ a.isPrivate = false ∧ b.isPrivate = false))
  secrets : a.isPrivate = true → b.isPrivate = true → a.toExtended false = b.toExtended false →
    (∃ secret, a.key.secret = some secret ∧ b.key.secret = some secret) ∧
      ∃ octets, a.toExtended true = .ok octets ∧ b.toExtended true = .ok octets
  interchangeable : a.agrees b = true ↔ a.Interchangeable b

theorem isPrivate_eq_iff : a.isPrivate = b.isPrivate ↔
    a.isPrivate = true ∧ b.isPrivate = true ∨ a.isPrivate = false ∧ b.isPrivate = false := by
  cases a.isPrivate <;> cases b.isPrivate <;> decide

theorem comparedAsWritten (sound : a.Sound) (sound' : b.Sound) (live : a.cleared = false)
    (live' : b.cleared = false) : a.ComparedAsWritten b := by
  obtain ⟨octets, written⟩ : ∃ octets, a.toExtended false = .ok octets :=
    exists_toExtended live Bool.false_ne_true.elim
  obtain ⟨octets', written'⟩ : ∃ octets, b.toExtended false = .ok octets :=
    exists_toExtended live' Bool.false_ne_true.elim
  have decided := eq_iff_of_toExtended sound sound' written written'
  refine ⟨⟨octets, octets', written, ?_, written', ?_, ?_⟩, fun held held' alike => ?_,
    interchangeable_of_agrees, fun indistinct => ?_⟩
  · exact length_of_ofExtended (ofExtended_toExtended sound written)
  · exact length_of_ofExtended (ofExtended_toExtended sound' written')
  · rw [agrees_iff, decided, isPrivate_eq_iff]
  · rw [written, written'] at alike
    cases decided.2 ⟨Except.ok.inj alike, held.trans held'.symm⟩
    obtain ⟨secret, value⟩ := Option.isSome_iff_exists.1 held
    obtain ⟨whole, writtenWhole⟩ := exists_toExtended live fun _ => held
    exact ⟨⟨secret, value, value⟩, whole, writtenWhole, writtenWhole⟩
  · have alike := indistinct.toExtended false
    rw [written, written'] at alike
    -- Only a node with a secret writes private octets, so these tell whether there is one.
    have secrecy : a.isPrivate = true ↔ b.isPrivate = true := by
      rw [isPrivate_iff_of_live live, isPrivate_iff_of_live live', indistinct.toExtended true]
    exact agrees_iff.2 (decided.2 ⟨Except.ok.inj alike, Bool.eq_iff_iff.2 secrecy⟩)

/-- The comparison of nodes is equality and so an equivalence. Reachable live nodes are equal if their
    public octets are and both or neither have a secret, which is then the same one; and equal nodes are
    those that behave alike. -/
theorem agrees_as_written :
    (∀ a b : KeyNode, a.agrees b = decide (a = b)) ∧ (Equivalence fun a b : KeyNode => a.agrees b = true) ∧
      ∀ a b : KeyNode, a.Reachable → b.Reachable → a.cleared = false → b.cleared = false →
        a.ComparedAsWritten b :=
  ⟨agrees_eq_decide, agrees_equivalence, fun _ _ reachable reachable' live live' =>
    comparedAsWritten reachable.sound reachable'.sound live live'⟩

/-- The master node of the secret one writes the same public octets as its public part and differs from it;
    a private node that writes them too is that master node. -/
theorem agrees_as_written_master :
    (master 1).Reachable ∧ (master 1).publicOnly.Reachable ∧ (master 1).cleared = false ∧
      (master 1).agrees (master 1).publicOnly = false ∧
      ∃ octets, (master 1).toExtended false = .ok octets ∧
        (master 1).publicOnly.toExtended false = .ok octets ∧
        ∀ node : KeyNode, node.Reachable → node.cleared = false → node.isPrivate = true →
          node.toExtended false = .ok octets → node.agrees (master 1) = true ∧ node.key.secret = some 1 := by
  have reachable : (master 1).Reachable := reachable_master (by decide)
  obtain ⟨-, -, compared⟩ := agrees_as_written
  obtain ⟨octets, octets', written, -, written', -, differ⟩ :=
    (compared (master 1) (master 1).publicOnly reachable reachable.publicOnly rfl rfl).publicOctets
  have same : octets' = octets := Except.ok.inj (written'.symm.trans written)
  refine ⟨reachable, reachable.publicOnly, rfl, Bool.eq_false_iff.2 fun agree => ?_,
    octets, written, same ▸ written', fun node reachable' live held alike => ?_⟩
  · rcases (differ.1 agree).2 with ⟨-, lacking⟩ | ⟨held, -⟩
    · cases lacking
    · cases held
  · have comparison := compared node (master 1) reachable' reachable live rfl
    obtain ⟨first, second, writtenFirst, -, writtenSecond, -, decides⟩ := comparison.publicOctets
    rw [alike] at writtenFirst
    rw [written] at writtenSecond
    have octetsAlike : first = second := Except.ok.inj (writtenFirst.symm.trans writtenSecond)
    obtain ⟨⟨secret, value, one⟩, -⟩ := comparison.secrets held rfl (alike.trans written.symm)
    exact ⟨decides.2 ⟨octetsAlike, .inl ⟨held, rfl⟩⟩, value.trans one.symm⟩

end KeyNode

end Bitcoin
