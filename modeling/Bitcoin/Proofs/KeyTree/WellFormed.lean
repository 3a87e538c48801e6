import Bitcoin.Proofs.Curve.Reachable
import Bitcoin.Proofs.KeyPair.PublicKey
import Bitcoin.Proofs.KeyPair.Reachable
import Bitcoin.Proofs.KeyTree.Reachable

/-! # What keys and nodes never lose

The invariant of everything that a program can hold: points are on the curve, pairs have a finite point that
their secret leads to and that is written in a shape that passes the strict check, and nodes keep their place
in the tree. A cleared node has nothing secret left.
-/

namespace Bitcoin

/-- A pair whose point is an affine one of the curve, is what its secret leads to, and has an encoding in either
    form, of which the public key is one. -/
structure KeyPair.WellFormed (key : KeyPair) : Prop where
  onCurve : key.point.OnCurve
  finite : key.point ≠ .infinity
  secret : ∀ d, key.secret = some d → 1 ≤ d.val ∧ d.val < groupOrder ∧
    key.point = Point.generator.multiply d ∧ key.point.toGroup = d.val • Point.generator.toGroup
  encoded : ∀ compressed, key.point.encode compressed = .ok (key.encodePoint compressed)
  length : key.publicKey.length = if key.compressed then 33 else 65
  canonical : Canonical.checkPublicKey key.publicKey = .ok ()

theorem KeyPair.Sound.wellFormed {key : KeyPair} (sound : key.Sound) : key.WellFormed where
  onCurve := sound.onCurve
  finite := sound.finite
  secret := by
    intro d held
    have point := sound.secret d held
    refine ⟨Scalar.val_pos (sound.secret_ne_zero held), d.isLt, point, ?_⟩
    rw [point, Point.toGroup_multiply Point.onCurve_generator]
  encoded := encode_eq_encodePoint sound.finite
  length := sound.length_publicKey
  canonical := Canonical.checkPublicKey_of_decode sound.decode_publicKey

namespace KeyNode

variable {node child : KeyNode}

/-- A cleared node has neither a secret nor a chain code. -/
def Wiped (node : KeyNode) : Prop :=
  node.cleared = true → node.key.secret = none ∧ node.chainCode = Octets.zero 32

theorem wiped_of_live (live : node.cleared = false) : node.Wiped := by
  intro cleared
  rw [live] at cleared
  cases cleared

theorem live_of_ofSeed {seed : Bytes} {network : Network} (h : ofSeed seed network = .ok node) :
    node.cleared = false := by
  obtain ⟨key, -, h⟩ := Outcome.bind_eq_ok.1 h
  cases h
  rfl

theorem live_of_ofExtended {octets : Bytes} (h : ofExtended octets = .ok node) : node.cleared = false := by
  obtain ⟨version, depth, parent, child, chainCode, data, rfl⟩ := exists_fields (length_of_ofExtended h)
  obtain ⟨network, withSecret, key, -, -, -, rfl⟩ := ofExtended_fields_eq_ok.1 h
  rfl

theorem Wiped.publicOnly (wiped : node.Wiped) : node.publicOnly.Wiped := by
  intro cleared
  exact ⟨rfl, (wiped cleared).2⟩

theorem wiped_clear (node : KeyNode) : node.clear.Wiped := by
  intro
  exact ⟨rfl, rfl⟩

/-- Only clearing makes a cleared node, and no operation gives it anything back. -/
theorem Reachable.wiped (reachable : node.Reachable) : node.Wiped :=
  reachable.invariant (fun h => wiped_of_live (live_of_ofSeed h)) (fun h => wiped_of_live (live_of_ofExtended h))
    (fun _ h => wiped_of_live (live_of_derive h)) Wiped.publicOnly (fun {node} _ => wiped_clear node)

/-- A node with a well-formed pair in compressed form, an index of 31 bits, and no parent at depth zero. -/
structure WellFormed (node : KeyNode) : Prop where
  key : node.key.WellFormed
  compressed : node.key.compressed = true
  index : node.child.word.toNat ≤ 0x7fffffff
  master : node.depth = 0 →
    node.parentFingerprint = 0 ∧ node.child.index = 0 ∧ node.child.hardened = false
  wiped : node.cleared = true → node.key.secret = none ∧ node.chainCode = Octets.zero 32

theorem Reachable.wellFormed (reachable : node.Reachable) : node.WellFormed where
  key := reachable.sound.key.wellFormed
  compressed := reachable.sound.compressed
  index := by
    rw [ChildNumber.toNat_word]
    exact Nat.le_of_lt_succ node.child.index.isLt
  master := by
    intro zero
    obtain ⟨parent, child⟩ := reachable.sound.master zero
    rw [child]
    exact ⟨parent, rfl, rfl⟩
  wiped := reachable.wiped

/-- Whatever operations follow one another, their points are those of the curve, their pairs are well formed,
    and so are their nodes, cleared ones included. -/
theorem reachable_wellFormed :
    (∀ point : Point, point.Reachable ↔ point.OnCurve) ∧
      (∀ key : KeyPair, key.Reachable → key.WellFormed) ∧
      ∀ node : KeyNode, node.Reachable → node.WellFormed :=
  ⟨fun _ => Point.reachable_iff_onCurve, fun _ reachable => reachable.sound.wellFormed,
    fun _ reachable => reachable.wellFormed⟩

/-- The first hardened child of the node whose secret is one, as it is and cleared, and the pair of that secret
    in the longer form. -/
theorem reachable_wellFormed_child :
    (Point.generator.Reachable ∧ Point.generator.OnCurve) ∧
      (KeyPair.Reachable ⟨some 1, Point.generator.multiply 1, false⟩ ∧
        KeyPair.WellFormed ⟨some 1, Point.generator.multiply 1, false⟩) ∧
      ∃ child, (master 1).derive 0 true = .ok child ∧ (child.Reachable ∧ child.WellFormed) ∧
        child.clear.Reachable ∧ child.clear.WellFormed := by
  obtain ⟨points, pairs, nodes⟩ := reachable_wellFormed
  have nonzero : (1 : Scalar) ≠ 0 := by decide
  have pair := KeyPair.reachable_secret nonzero false
  have solvable : ((master 1).derive 0 true).isOk = true := by decide +kernel
  obtain ⟨child, derived⟩ := Outcome.exists_of_isOk solvable
  have reachable : child.Reachable := .derive (reachable_master nonzero) derived
  exact ⟨⟨.generator, (points _).1 .generator⟩, ⟨pair, pairs _ pair⟩, child, derived,
    ⟨reachable, nodes _ reachable⟩, reachable.clear, nodes _ reachable.clear⟩

end KeyNode

end Bitcoin
