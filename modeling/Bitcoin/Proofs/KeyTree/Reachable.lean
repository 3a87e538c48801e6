import Bitcoin.KeyTree.Search
import Bitcoin.Proofs.KeyTree.Derivation
import Bitcoin.Proofs.KeyTree.Fields

/-! # Reachable nodes

The nodes that a program can hold: masters, nodes that were read, and what comes of those by derivation, by
search, by dropping the secret and by clearing. Each of these steps keeps a node sound.
-/

namespace Bitcoin.KeyNode

/-- The node comes out of some sequence of operations. -/
inductive Reachable : KeyNode → Prop where
  | ofSeed {seed : Bytes} {network : Network} {node : KeyNode} :
      KeyNode.ofSeed seed network = .ok node → Reachable node
  | ofExtended {octets : Bytes} {node : KeyNode} :
      KeyNode.ofExtended octets = .ok node → Reachable node
  | ofExtendedText {text : String} {node : KeyNode} :
      KeyNode.ofExtendedText text = .ok node → Reachable node
  | derive {node child : KeyNode} {index : UInt32} {hardened : Bool} :
      Reachable node → node.derive index hardened = .ok child → Reachable child
  | deriveWithFactor {node child : KeyNode} {factor : Scalar} {index : UInt32} {hardened : Bool} :
      Reachable node → node.deriveWithFactor index hardened = .ok (child, factor) → Reachable child
  | derivePath {node child : KeyNode} {path : DerivationPath} :
      Reachable node → node.derivePath path = .ok child → Reachable child
  | deriveText {node child : KeyNode} {path : String} :
      Reachable node → node.deriveText path = .ok child → Reachable child
  | find {node child : KeyNode} {target : SearchTarget} {start limit : UInt32} {hardened : Bool} :
      Reachable node → node.find target start hardened limit = .ok child → Reachable child
  | publicOnly {node : KeyNode} : Reachable node → Reachable node.publicOnly
  | clear {node : KeyNode} : Reachable node → Reachable node.clear

variable {node child : KeyNode}

theorem search_eq_some {target : SearchTarget} {hardened : Bool} {tries index : Nat}
    (h : node.search target hardened tries index = .ok (some child)) :
    ∃ word, node.derive word hardened = .ok child := by
  induction tries generalizing index with
  | zero => cases h
  | succ tries ih =>
      unfold search at h
      split_ifs at h
      · cases h
      cases derived : node.derive (UInt32.ofNat index) hardened with
      | ok found =>
          rw [derived] at h
          dsimp only at h
          split_ifs at h
          · cases h
            exact ⟨_, derived⟩
          · exact ih h
      | error e =>
          rw [derived] at h
          dsimp only at h
          split_ifs at h
          exact ih h

theorem find_eq_ok {target : SearchTarget} {start limit : UInt32} {hardened : Bool}
    (h : node.find target start hardened limit = .ok child) :
    ∃ word, node.derive word hardened = .ok child := by
  obtain ⟨found, searched, h⟩ := Outcome.bind_eq_ok.1 h
  cases found with
  | none => cases h
  | some found =>
      cases h
      exact search_eq_some searched

/-- What holds of masters and of nodes that were read, and is kept by derivation, by dropping the secret and
    by clearing, holds of every reachable node: the other operations are made of these. -/
theorem Reachable.invariant {P : KeyNode → Prop}
    (ofSeed : ∀ {seed : Bytes} {network : Network} {node : KeyNode},
      KeyNode.ofSeed seed network = .ok node → P node)
    (ofExtended : ∀ {octets : Bytes} {node : KeyNode}, KeyNode.ofExtended octets = .ok node → P node)
    (derive : ∀ {node child : KeyNode} {index : UInt32} {hardened : Bool},
      P node → node.derive index hardened = .ok child → P child)
    (publicOnly : ∀ {node : KeyNode}, P node → P node.publicOnly)
    (clear : ∀ {node : KeyNode}, P node → P node.clear) (reachable : node.Reachable) : P node := by
  induction reachable with
  | ofSeed h => exact ofSeed h
  | ofExtended h => exact ofExtended h
  | ofExtendedText h =>
      obtain ⟨octets, -, h⟩ := Outcome.bind_eq_ok.1 h
      exact ofExtended h
  | derive _ h ih => exact derive ih h
  | deriveWithFactor _ h ih => exact derive ih (derive_eq_ok.2 ⟨_, h⟩)
  | derivePath _ h ih => exact derivePath_preserves derive ih h
  | deriveText _ h ih =>
      obtain ⟨steps, -, h⟩ := Outcome.bind_eq_ok.1 h
      exact derivePath_preserves derive ih h
  | find _ h ih =>
      obtain ⟨word, h⟩ := find_eq_ok h
      exact derive ih h
  | publicOnly _ ih => exact publicOnly ih
  | clear _ ih => exact clear ih

/-- The invariant of reachable nodes: a sound pair that is written in compressed form, and no parent at
    depth zero. -/
structure Sound (node : KeyNode) : Prop where
  key : node.key.Sound
  compressed : node.key.compressed = true
  master : node.depth = 0 → node.parentFingerprint = 0 ∧ node.child = masterChild

namespace Sound

theorem ofSeed {seed : Bytes} {network : Network} (h : KeyNode.ofSeed seed network = .ok node) :
    node.Sound := by
  obtain ⟨key, made, h⟩ := Outcome.bind_eq_ok.1 h
  cases h
  obtain ⟨secret, -, -, value⟩ := KeyPair.ofSecret_eq_ok.1 made
  exact ⟨.ofSecret made, congrArg KeyPair.compressed value, fun _ => ⟨rfl, rfl⟩⟩

theorem ofKeyData {withSecret : Bool} {data : Octets 33} {key : KeyPair}
    (h : KeyNode.ofKeyData withSecret data.toList = .ok key) : key.Sound ∧ key.compressed = true := by
  unfold KeyNode.ofKeyData at h
  split_ifs at h
  · obtain ⟨secret, -, -, value⟩ := KeyPair.ofSecret_eq_ok.1 h
    exact ⟨.ofSecret h, congrArg KeyPair.compressed value⟩
  · obtain ⟨point, -, value⟩ := KeyPair.ofPublicKey_eq_ok.1 h
    refine ⟨.ofPublicKey h, (congrArg KeyPair.compressed value).trans ?_⟩
    simp

theorem ofExtended {octets : Bytes} (h : KeyNode.ofExtended octets = .ok node) : node.Sound := by
  obtain ⟨version, depth, parent, child, chainCode, data, rfl⟩ := exists_fields (length_of_ofExtended h)
  obtain ⟨network, withSecret, key, -, nobody, read, rfl⟩ := ofExtended_fields_eq_ok.1 h
  obtain ⟨sound, compressed⟩ := ofKeyData read
  exact ⟨sound, compressed, fun zero =>
    ⟨(nobody zero).1, congrArg ChildNumber.ofWire (nobody zero).2⟩⟩

theorem derive {index : UInt32} {hardened : Bool} (sound : node.Sound)
    (h : node.derive index hardened = .ok child) : child.Sound := by
  obtain ⟨factor, derived⟩ := derive_eq_ok.1 h
  obtain ⟨-, shallow, step, seed, -, -, made⟩ := deriveWithFactor_eq_ok.1 derived
  obtain ⟨-, key, added, rfl⟩ := childOfHash_eq_ok.1 made
  obtain ⟨keySound, compressed⟩ := sound_addFactor sound.key added
  refine ⟨keySound, compressed, fun zero => absurd ?_ shallow⟩
  -- Only the greatest depth wraps around to zero.
  have wrapped : node.depth + 1 = 0 := zero
  grind

theorem publicOnly (sound : node.Sound) : node.publicOnly.Sound :=
  ⟨sound.key.publicOnly, sound.compressed, sound.master⟩

theorem clear (sound : node.Sound) : node.clear.Sound :=
  ⟨sound.key.clear, sound.compressed, sound.master⟩

end Sound

/-- Every reachable node is sound. -/
theorem Reachable.sound (reachable : node.Reachable) : node.Sound :=
  reachable.invariant Sound.ofSeed Sound.ofExtended Sound.derive Sound.publicOnly Sound.clear

/-- The private master node of a secret and a chain code of zeros. -/
def master (secret : Scalar) : KeyNode :=
  { key := ⟨some secret, Point.generator.multiply secret, true⟩, chainCode := Octets.zero 32, depth := 0,
    parentFingerprint := 0, child := masterChild, network := .mainnet, cleared := false }

theorem reachable_master {secret : Scalar} (nonzero : secret ≠ 0) : (master secret).Reachable := by
  let key : Octets 33 := ⟨0 :: secret.toOctets.toList, by simp⟩
  have read : ofKeyData true key.toList = .ok (master secret).key :=
    KeyPair.ofSecret_eq_ok.2 ⟨secret, rfl, nonzero, rfl⟩
  exact .ofExtended (ofExtended_fields_eq_ok.2
    ⟨.mainnet, true, _, rfl, fun _ => ⟨rfl, rfl⟩, read, rfl⟩)

end Bitcoin.KeyNode
