import Bitcoin.Proofs.KeyTree.Reachable
import Bitcoin.Proofs.Text.Base58

/-! # Extended keys, both ways

A reachable node comes back from what it is written as, and what is read as a node is what that node is
written as. So extended keys, their texts and the nodes that they stand for determine each other.
-/

namespace Bitcoin.KeyNode

variable {node : KeyNode} {key : KeyPair} {octets : Bytes} {withSecret : Bool}

/-! ## The field of the key -/

theorem ofKeyData_true_eq_ok {data : Bytes} : ofKeyData true data = .ok key ↔
    ∃ secret : Scalar, secret ≠ 0 ∧ data = 0 :: secret.toOctets.toList ∧
      key = ⟨some secret, Point.generator.multiply secret, true⟩ := by
  unfold ofKeyData
  constructor
  · intro h
    cases data with
    | nil => cases h
    | cons marker rest =>
        rw [if_pos rfl] at h
        split_ifs at h with zero
        obtain ⟨secret, written, nonzero, rfl⟩ := KeyPair.ofSecret_eq_ok.1 h
        cases zero
        exact ⟨secret, nonzero, congrArg (0 :: ·) written, rfl⟩
  · rintro ⟨secret, nonzero, rfl, rfl⟩
    exact KeyPair.ofSecret_eq_ok.2 ⟨secret, rfl, nonzero, rfl⟩

theorem ofKeyData_false_eq_ok {data : Bytes} (length : data.length = 33) :
    ofKeyData false data = .ok key ↔ ∃ x y, (Point.affine x y).OnCurve ∧
      data = (if y.isOdd then 3 else 2) :: Point.coordinate x ∧ key = ⟨none, .affine x y, true⟩ := by
  have form : decide (data.length = 33) = true := decide_eq_true length
  unfold ofKeyData
  rw [if_neg Bool.false_ne_true]
  constructor
  · intro h
    split_ifs at h
    obtain ⟨point, decoded, rfl⟩ := KeyPair.ofPublicKey_eq_ok.1 h
    obtain ⟨onCurve, encoded⟩ := Point.encode_decode decoded
    rw [form] at encoded ⊢
    cases point with
    | infinity => cases encoded
    | affine x y => exact ⟨x, y, onCurve, (Except.ok.inj encoded).symm, rfl⟩
  · rintro ⟨x, y, onCurve, rfl, rfl⟩
    have marker : (if y.isOdd then (3 : UInt8) else 2) = 2 ∨ (if y.isOdd then (3 : UInt8) else 2) = 3 := by
      cases y.isOdd <;> decide
    refine (if_pos (marker.imp (congrArg some) (congrArg some))).trans ?_
    refine KeyPair.ofPublicKey_eq_ok.2 ⟨_, Point.decode_encode onCurve (Point.encode_compressed x y), ?_⟩
    rw [form]

/-- The field of the key, written by a sound pair, is read as that pair, with the secret or without. -/
theorem ofKeyData_keyData (sound : node.Sound) {data : Bytes} (h : node.keyData withSecret = .ok data) :
    ofKeyData withSecret data = .ok (if withSecret then node.key else node.key.publicOnly) := by
  have length := length_keyData sound.key.finite h
  cases withSecret with
  | true =>
      obtain ⟨secret, held, h⟩ := Outcome.bind_eq_ok.1 h
      cases h
      rw [KeyPair.requireSecret_eq_ok] at held
      refine ofKeyData_true_eq_ok.2 ⟨secret, sound.key.secret_ne_zero held, rfl, ?_⟩
      rw [if_pos rfl, ← sound.key.secret secret held, ← held, ← sound.compressed]
  | false =>
      cases h
      have encoded := KeyPair.encode_eq_encodePoint sound.key.finite true
      cases point : node.key.point with
      | infinity => exact absurd point sound.key.finite
      | affine x y =>
          rw [point, Point.encode_compressed] at encoded
          refine (ofKeyData_false_eq_ok length).2 ⟨x, y, point ▸ sound.key.onCurve, ?_, ?_⟩
          · exact (Except.ok.inj encoded).symm
          · rw [if_neg Bool.false_ne_true, ← point, ← sound.compressed]
            rfl

/-- The field of the key, read as a pair, is what that pair writes. -/
theorem keyData_ofKeyData {data : Bytes} (length : data.length = 33)
    (h : ofKeyData withSecret data = .ok node.key) :
    node.isPrivate = withSecret ∧ node.keyData withSecret = .ok data := by
  cases withSecret with
  | true =>
      obtain ⟨secret, -, rfl, pair⟩ := ofKeyData_true_eq_ok.1 h
      refine ⟨by rw [isPrivate, pair]; rfl, Outcome.bind_eq_ok.2 ⟨secret, ?_, rfl⟩⟩
      rw [KeyPair.requireSecret_eq_ok, pair]
  | false =>
      obtain ⟨x, y, -, rfl, pair⟩ := (ofKeyData_false_eq_ok length).1 h
      refine ⟨by rw [isPrivate, pair]; rfl, ?_⟩
      rw [keyData, KeyPair.compressedKey, pair]
      rfl

/-! ## Nodes and octets -/

theorem ofExtended_toExtended (sound : node.Sound) (h : node.toExtended withSecret = .ok octets) :
    ofExtended octets = .ok (if withSecret then node else node.publicOnly) := by
  obtain ⟨live, key, data, rfl⟩ := (toExtended_eq_ok sound.key.finite).1 h
  refine ofExtended_fields_eq_ok.2 ⟨node.network, withSecret, _, rfl, fun zero => ?_,
    ofKeyData_keyData sound data, ?_⟩
  · obtain ⟨parent, child⟩ := sound.master zero
    exact ⟨parent, ChildNumber.toWire_eq_zero.2 child⟩
  · rw [ChildNumber.ofWire_toWire, ← live]
    cases withSecret <;> rfl

theorem toExtended_ofExtended (h : ofExtended octets = .ok node) :
    node.toExtended node.isPrivate = .ok octets := by
  have finite := (Sound.ofExtended h).key.finite
  obtain ⟨version, depth, parent, child, chainCode, data, rfl⟩ := exists_fields (length_of_ofExtended h)
  obtain ⟨network, withSecret, pair, rfl, -, read, made⟩ := ofExtended_fields_eq_ok.1 h
  have own : ofKeyData withSecret data.toList = .ok node.key := by
    rw [made]
    exact read
  obtain ⟨secrecy, written⟩ := keyData_ofKeyData data.length_eq own
  rw [secrecy]
  refine (toExtended_eq_ok finite).2 ⟨by rw [made], data, written, ?_⟩
  rw [made, ChildNumber.toWire_ofWire]

/-- The octets have the shape of an extended key: a known version, nobody's child at depth zero, and the key
    that goes with the version. -/
def IsExtended (octets : Bytes) : Prop :=
  octets.length = 78 ∧ ∃ network withSecret,
    octets.take 4 = (Network.extendedKeyVersion network withSecret).toList ∧
    (octets[4]? = some 0 → (octets.drop 5).take 4 = List.replicate 4 0 ∧
      (octets.drop 9).take 4 = List.replicate 4 0) ∧
    if withSecret then
      ∃ secret, 1 ≤ secret ∧ secret < groupOrder ∧ octets.drop 45 = 0 :: (Octets.ofNat 32 secret).toList
    else
      ∃ x y, (Point.affine x y).OnCurve ∧
        octets.drop 45 = (if y.isOdd then 3 else 2) :: Point.coordinate x

theorem ofWord_eq_zeros {word : UInt32} : (Octets.ofWord word).toList = List.replicate 4 0 ↔ word = 0 := by
  constructor
  · intro zeros
    rw [← Octets.toWord_ofWord word, (Octets.ext zeros : Octets.ofWord word = Octets.zero 4)]
    decide
  · rintro rfl
    decide

theorem exists_ofKeyData {data : Bytes} (length : data.length = 33) :
    (∃ pair, ofKeyData withSecret data = .ok pair) ↔
      if withSecret then
        ∃ secret, 1 ≤ secret ∧ secret < groupOrder ∧ data = 0 :: (Octets.ofNat 32 secret).toList
      else
        ∃ x y, (Point.affine x y).OnCurve ∧ data = (if y.isOdd then 3 else 2) :: Point.coordinate x := by
  cases withSecret with
  | true =>
      simp only [ofKeyData_true_eq_ok, if_true]
      constructor
      · rintro ⟨_, secret, nonzero, written, -⟩
        have positive : 1 ≤ secret.val := Nat.pos_of_ne_zero (Fin.val_ne_zero_iff.2 nonzero)
        exact ⟨secret.val, positive, secret.isLt, written⟩
      · rintro ⟨secret, positive, below, written⟩
        refine ⟨_, ⟨secret, below⟩, fun zero => ?_, written, rfl⟩
        have value : secret = 0 := congrArg Fin.val zero
        omega
  | false =>
      simp only [ofKeyData_false_eq_ok length, Bool.false_eq_true, if_false]
      constructor
      · rintro ⟨_, x, y, onCurve, written, -⟩
        exact ⟨x, y, onCurve, written⟩
      · rintro ⟨x, y, onCurve, written⟩
        exact ⟨_, x, y, onCurve, written, rfl⟩

/-- The octets that are read as nodes are those of that shape. -/
theorem exists_ofExtended : (∃ node, ofExtended octets = .ok node) ↔ IsExtended octets := by
  constructor
  · rintro ⟨node, h⟩
    have length := length_of_ofExtended h
    obtain ⟨version, depth, parent, child, chainCode, data, rfl⟩ := exists_fields length
    obtain ⟨network, withSecret, pair, rfl, nobody, read, -⟩ := ofExtended_fields_eq_ok.1 h
    refine ⟨length, network, withSecret, fields_version .., ?_, ?_⟩
    · rw [fields_depth, fields_parent, fields_child, ofWord_eq_zeros, ofWord_eq_zeros]
      exact fun zero => nobody (Option.some.inj zero)
    · rw [fields_key]
      exact (exists_ofKeyData data.length_eq).1 ⟨pair, read⟩
  · rintro ⟨length, network, withSecret, known, nobody, written⟩
    -- Cut into fields, the octets meet each condition in a field of its own.
    obtain ⟨version, depth, parent, child, chainCode, data, rfl⟩ := exists_fields length
    rw [fields_version] at known
    rw [fields_depth, fields_parent, fields_child, ofWord_eq_zeros, ofWord_eq_zeros] at nobody
    rw [fields_key] at written
    obtain ⟨pair, read⟩ := (exists_ofKeyData data.length_eq).2 written
    exact ⟨_, ofExtended_fields_eq_ok.2 ⟨network, withSecret, pair, Octets.ext known,
      fun zero => nobody (congrArg some zero), read, rfl⟩⟩

/-! ## Nodes and texts -/

theorem toExtendedText_eq_ok {text : String} : node.toExtendedText withSecret = .ok text ↔
    ∃ octets, node.toExtended withSecret = .ok octets ∧ text = Base58Check.encode octets :=
  Outcome.bind_pure_eq_ok

theorem ofExtendedText_eq_ok {text : String} : ofExtendedText text = .ok node ↔
    ∃ octets, text = Base58Check.encode octets ∧ ofExtended octets = .ok node := by
  unfold ofExtendedText
  rw [Outcome.bind_eq_ok]
  simp only [Base58Check.decode_eq_ok]

/-! ## The codec -/

/-- The node comes back from the octets and the texts that it is written as: without its secret from the
    public ones, and with it from the private ones, which a node without a secret lacks. -/
structure RoundTrips (node : KeyNode) : Prop where
  publicOctets : ∃ octets, node.toExtended false = .ok octets ∧ ofExtended octets = .ok node.publicOnly
  privateOctets : node.isPrivate = true →
    ∃ octets, node.toExtended true = .ok octets ∧ ofExtended octets = .ok node
  noPrivateOctets : node.isPrivate = false → node.toExtended true = .error .noSecretKey
  publicText : ∃ text, node.toExtendedText false = .ok text ∧ ofExtendedText text = .ok node.publicOnly
  privateText : node.isPrivate = true →
    ∃ text, node.toExtendedText true = .ok text ∧ ofExtendedText text = .ok node
  noPrivateText : node.isPrivate = false → node.toExtendedText true = .error .noSecretKey

theorem ofExtendedText_toExtendedText (sound : node.Sound) {text : String}
    (h : node.toExtendedText withSecret = .ok text) :
    ofExtendedText text = .ok (if withSecret then node else node.publicOnly) := by
  obtain ⟨octets, written, rfl⟩ := toExtendedText_eq_ok.1 h
  exact ofExtendedText_eq_ok.2 ⟨octets, rfl, ofExtended_toExtended sound written⟩

theorem roundTrips (sound : node.Sound) (live : node.cleared = false) : node.RoundTrips := by
  have octets (withSecret : Bool) (held : withSecret = true → node.isPrivate = true) :
      ∃ octets, node.toExtended withSecret = .ok octets ∧
        ofExtended octets = .ok (if withSecret then node else node.publicOnly) := by
    obtain ⟨octets, written⟩ := exists_toExtended live held
    exact ⟨octets, written, ofExtended_toExtended sound written⟩
  have text (withSecret : Bool) (held : withSecret = true → node.isPrivate = true) :
      ∃ text, node.toExtendedText withSecret = .ok text ∧
        ofExtendedText text = .ok (if withSecret then node else node.publicOnly) := by
    obtain ⟨octets, written⟩ := exists_toExtended live held
    have writtenText := toExtendedText_eq_ok.2 ⟨octets, written, rfl⟩
    exact ⟨_, writtenText, ofExtendedText_toExtendedText sound writtenText⟩
  refine ⟨octets false Bool.false_ne_true.elim, fun held => octets true fun _ => held, toExtended_eq_noSecretKey live,
    text false Bool.false_ne_true.elim, fun held => text true fun _ => held, fun lacking => ?_⟩
  rw [toExtendedText, toExtended_eq_noSecretKey live lacking]
  rfl

/-- Writing and reading extended keys are inverse to each other. Reachable live nodes come back from their
    octets and texts; the octets that are read are those of the right shape; and octets or a text that are
    read are what the node read writes, with its secret if it has one. -/
theorem extendedKey_codec :
    (∀ node : KeyNode, node.Reachable → node.cleared = false → node.RoundTrips) ∧
      (∀ octets, (∃ node, ofExtended octets = .ok node) ↔ IsExtended octets) ∧
      (∀ octets node, ofExtended octets = .ok node → node.toExtended node.isPrivate = .ok octets) ∧
      ∀ text node, ofExtendedText text = .ok node → node.toExtendedText node.isPrivate = .ok text := by
  refine ⟨fun node reachable live => roundTrips reachable.sound live, fun octets => exists_ofExtended,
    fun octets node h => toExtended_ofExtended h, fun text node h => ?_⟩
  obtain ⟨octets, rfl, read⟩ := ofExtendedText_eq_ok.1 h
  exact toExtendedText_eq_ok.2 ⟨octets, toExtended_ofExtended read, rfl⟩

/-- The master node of the secret one, from itself to its private text and back. -/
theorem extendedKey_codec_master :
    ((master 1).Reachable ∧ (master 1).cleared = false ∧ (master 1).RoundTrips) ∧
      ∃ octets, ofExtended octets = .ok (master 1) ∧ IsExtended octets ∧
        (master 1).toExtended true = .ok octets := by
  have reachable : (master 1).Reachable := reachable_master (by decide)
  obtain ⟨nodes, shape, octets, -⟩ := extendedKey_codec
  obtain ⟨written, -, read⟩ := (nodes (master 1) reachable rfl).privateOctets rfl
  exact ⟨⟨reachable, rfl, nodes (master 1) reachable rfl⟩, written, read,
    (shape written).1 ⟨_, read⟩, octets written (master 1) read⟩

end Bitcoin.KeyNode
