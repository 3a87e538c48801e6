import Bitcoin.KeyTree.ExtendedKey
import Bitcoin.Proofs.KeyPair.Sound
import Bitcoin.Proofs.Outcome

/-! # The fields of an extended key

Any 78 octets are a version, a depth, a fingerprint, a child number, a chain code and 33 octets of key, in
one way only. Reading and writing nodes is stated on these fields.
-/

namespace Bitcoin

namespace Octets

@[simp] theorem take_toList {n count : Nat} (octets : Octets n) (enough : n ≤ count) :
    octets.toList.take count = octets.toList :=
  List.take_of_length_le (by simpa using enough)

@[simp] theorem drop_toList {n count : Nat} (octets : Octets n) (enough : n ≤ count) :
    octets.toList.drop count = [] :=
  List.drop_eq_nil_of_le (by simpa using enough)

/-- The four octets of a word, most significant first. -/
def ofWord (word : UInt32) : Octets 4 :=
  ofNat 4 word.toNat

/-- The word of four octets. -/
def toWord (octets : Octets 4) : UInt32 :=
  UInt32.ofNat octets.toNat

@[simp] theorem toWord_ofWord (word : UInt32) : (ofWord word).toWord = word := by
  rw [toWord, ofWord, toNat_ofNat_of_lt word.toNat_lt, UInt32.ofNat_toNat]

@[simp] theorem ofWord_toWord (octets : Octets 4) : ofWord octets.toWord = octets := by
  have small : octets.toNat < UInt32.size := octets.toNat_lt
  rw [toWord, ofWord, UInt32.toNat_ofNat_of_lt' small, ofNat_toNat]

end Octets

namespace ChildNumber

theorem toNat_toWire (child : ChildNumber) :
    child.toWire.toNat = child.index.val + if child.hardened then 0x80000000 else 0 := by
  have small := child.index.isLt
  refine UInt32.toNat_ofNat_of_lt' ?_
  change _ < 2 ^ 32
  split_ifs <;> omega

@[simp] theorem ofWire_toWire (child : ChildNumber) : ofWire child.toWire = child := by
  have value := toNat_toWire child
  obtain ⟨⟨index, small⟩, hardened⟩ := child
  unfold ofWire
  simp only [value]
  refine congrArg₂ ChildNumber.mk (Fin.ext ?_) ?_
  · change _ % 0x80000000 = index
    split_ifs <;> omega
  · cases hardened with
    | false => simpa using small
    | true => simp

@[simp] theorem toWire_ofWire (wire : UInt32) : (ofWire wire).toWire = wire := by
  have small := wire.toNat_lt
  apply UInt32.toNat_inj.1
  simp only [toNat_toWire, ofWire, Fin.ofNat, decide_eq_true_eq]
  split_ifs <;> omega

theorem toWire_eq_zero {child : ChildNumber} : child.toWire = 0 ↔ child = KeyNode.masterChild := by
  constructor
  · intro zero
    rw [← ofWire_toWire child, zero]
    rfl
  · rintro rfl
    rfl

end ChildNumber

namespace Network

theorem ofExtendedKeyVersion_eq_ok {version : Octets 4} {network : Network} {withSecret : Bool} :
    ofExtendedKeyVersion version = .ok (network, withSecret) ↔
      version = network.extendedKeyVersion withSecret := by
  constructor
  · intro h
    unfold ofExtendedKeyVersion at h
    split_ifs at h with same same same same <;> cases h <;> exact same
  · rintro rfl
    cases network <;> cases withSecret <;> decide

end Network

namespace KeyNode

/-- The 78 octets of given fields. -/
def fields (version : Octets 4) (depth : UInt8) (parent child : UInt32) (chainCode : Octets 32)
    (key : Octets 33) : Bytes :=
  version.toList ++ [depth] ++ (Octets.ofWord parent).toList ++ (Octets.ofWord child).toList
    ++ chainCode.toList ++ key.toList

variable {version : Octets 4} {depth : UInt8} {parent child : UInt32} {chainCode : Octets 32}
  {key : Octets 33}

@[simp] theorem length_fields : (fields version depth parent child chainCode key).length = 78 := by
  simp [fields]

/-- Any 78 octets are the octets of some fields. -/
theorem exists_fields {octets : Bytes} (length : octets.length = 78) :
    ∃ version depth parent child chainCode key,
      octets = fields version depth parent child chainCode key := by
  refine ⟨⟨octets.take 4, by simp [length]⟩, octets[4],
    Octets.toWord ⟨(octets.drop 5).take 4, by simp [length]⟩,
    Octets.toWord ⟨(octets.drop 9).take 4, by simp [length]⟩,
    ⟨(octets.drop 13).take 32, by simp [length]⟩, ⟨octets.drop 45, by simp [length]⟩, ?_⟩
  have piece (start count : Nat) :
      (octets.drop start).take count ++ octets.drop (start + count) = octets.drop start := by
    rw [← List.drop_drop, List.take_append_drop]
  rw [fields, Octets.ofWord_toWord, Octets.ofWord_toWord]
  simp only [List.append_assoc, List.singleton_append]
  rw [piece 13 32, piece 9 4, List.cons_append, piece 5 4, List.getElem_cons_drop,
    List.take_append_drop]

section Parts

variable (version : Octets 4) (depth : UInt8) (parent child : UInt32) (chainCode : Octets 32)
  (key : Octets 33)

theorem fields_version : (fields version depth parent child chainCode key).take 4 = version.toList := by
  simp [fields]

theorem fields_depth : (fields version depth parent child chainCode key)[4]? = some depth := by
  simp [fields]

theorem fields_parent : ((fields version depth parent child chainCode key).drop 5).take 4 =
    (Octets.ofWord parent).toList := by
  simp [fields, List.drop_append]

theorem fields_child : ((fields version depth parent child chainCode key).drop 9).take 4 =
    (Octets.ofWord child).toList := by
  simp [fields, List.drop_append]

theorem fields_chainCode : ((fields version depth parent child chainCode key).drop 13).take 32 =
    chainCode.toList := by
  simp [fields, List.drop_append]

theorem fields_key : (fields version depth parent child chainCode key).drop 45 = key.toList := by
  simp [fields, List.drop_append]

end Parts

theorem ofExtended_fields : ofExtended (fields version depth parent child chainCode key) =
    (Network.ofExtendedKeyVersion version >>= fun known =>
      if depth = 0 ∧ (parent ≠ 0 ∨ child ≠ 0) then .error (.invalidExtendedKey .masterWithParent)
      else ofKeyData known.2 key.toList >>= fun pair =>
        .ok { key := pair, chainCode := chainCode, depth := depth, parentFingerprint := parent,
              child := ChildNumber.ofWire child, network := known.1, cleared := false }) := by
  have octets : (fields version depth parent child chainCode key).length = 78 := length_fields
  have depthField : (fields version depth parent child chainCode key)[4] = depth :=
    Option.some.inj ((List.getElem?_eq_getElem _).symm.trans (fields_depth ..))
  have word (value : UInt32) : UInt32.ofNat (Bytes.toNat (Octets.ofWord value).toList) = value :=
    Octets.toWord_ofWord value
  unfold ofExtended
  rw [dif_pos octets]
  simp only [fields_version, depthField, fields_parent, fields_child, fields_chainCode, fields_key, word]
  refine congrArg _ (funext fun known => ?_)
  by_cases somebody : depth = 0 ∧ (parent ≠ 0 ∨ child ≠ 0)
  · simp only [if_pos somebody]
    rfl
  · simp only [if_neg somebody]
    rfl

variable {node : KeyNode} {withSecret : Bool}

/-- When fields are read as a node, and as which. -/
theorem ofExtended_fields_eq_ok : ofExtended (fields version depth parent child chainCode key) = .ok node ↔
    ∃ network withSecret pair, version = network.extendedKeyVersion withSecret ∧
      (depth = 0 → parent = 0 ∧ child = 0) ∧ ofKeyData withSecret key.toList = .ok pair ∧
      node = { key := pair, chainCode := chainCode, depth := depth, parentFingerprint := parent,
               child := ChildNumber.ofWire child, network := network, cleared := false } := by
  rw [ofExtended_fields]
  constructor
  · intro h
    obtain ⟨⟨network, withSecret⟩, known, h⟩ := Outcome.bind_eq_ok.1 h
    split_ifs at h with somebody
    obtain ⟨pair, read, h⟩ := Outcome.bind_eq_ok.1 h
    cases h
    refine ⟨network, withSecret, pair, Network.ofExtendedKeyVersion_eq_ok.1 known, fun zero => ?_, read, rfl⟩
    by_contra other
    exact somebody ⟨zero, not_and_or.1 other⟩
  · rintro ⟨network, withSecret, pair, known, nobody, read, rfl⟩
    refine Outcome.bind_eq_ok.2 ⟨_, Network.ofExtendedKeyVersion_eq_ok.2 known, ?_⟩
    rw [if_neg fun somebody => not_and_or.2 somebody.2 (nobody somebody.1), read]
    rfl

theorem length_of_ofExtended {octets : Bytes} (h : ofExtended octets = .ok node) : octets.length = 78 := by
  by_contra other
  rw [ofExtended, dif_neg other] at h
  cases h

theorem requireLive_eq_ok : node.requireLive = .ok () ↔ node.cleared = false := by
  unfold requireLive
  cases node.cleared <;> simp

theorem length_keyData (finite : node.key.point ≠ .infinity) {key : Bytes}
    (h : node.keyData withSecret = .ok key) : key.length = 33 := by
  cases withSecret with
  | true =>
      obtain ⟨secret, -, value⟩ := Outcome.bind_eq_ok.1 h
      cases value
      simp
  | false =>
      cases h
      exact Point.length_encode (KeyPair.encode_eq_encodePoint finite true)

theorem exists_toExtended (live : node.cleared = false)
    (held : withSecret = true → node.isPrivate = true) :
    ∃ octets, node.toExtended withSecret = .ok octets := by
  have data : ∃ key, node.keyData withSecret = .ok key := by
    cases withSecret with
    | false => exact ⟨_, rfl⟩
    | true =>
        obtain ⟨secret, value⟩ := Option.isSome_iff_exists.1 (held rfl)
        exact ⟨_, Outcome.bind_eq_ok.2 ⟨secret, KeyPair.requireSecret_eq_ok.2 value, rfl⟩⟩
  obtain ⟨key, data⟩ := data
  exact ⟨_, Outcome.bind_eq_ok.2 ⟨(), requireLive_eq_ok.2 live, Outcome.bind_eq_ok.2 ⟨key, data, rfl⟩⟩⟩

theorem toExtended_eq_noSecretKey (live : node.cleared = false) (lacking : node.isPrivate = false) :
    node.toExtended true = .error .noSecretKey := by
  have none : node.key.secret = none := Option.isSome_eq_false_iff.1 lacking |> Option.isNone_iff_eq_none.1
  have data : node.keyData true = .error .noSecretKey := by
    rw [keyData, KeyPair.requireSecret, none]
    rfl
  rw [toExtended, requireLive_eq_ok.2 live, data]
  rfl

/-- What a node writes, when it is live and has what it is to write. -/
theorem toExtended_eq_ok (finite : node.key.point ≠ .infinity) {octets : Bytes} :
    node.toExtended withSecret = .ok octets ↔ node.cleared = false ∧ ∃ key : Octets 33,
      node.keyData withSecret = .ok key.toList ∧ octets =
        fields (node.network.extendedKeyVersion withSecret) node.depth node.parentFingerprint
          node.child.toWire node.chainCode key := by
  unfold toExtended
  constructor
  · intro h
    obtain ⟨_, live, h⟩ := Outcome.bind_eq_ok.1 h
    obtain ⟨key, data, h⟩ := Outcome.bind_eq_ok.1 h
    cases h
    exact ⟨requireLive_eq_ok.1 live, ⟨key, length_keyData finite data⟩, data, rfl⟩
  · rintro ⟨live, key, data, rfl⟩
    exact Outcome.bind_eq_ok.2 ⟨(), requireLive_eq_ok.2 live, Outcome.bind_eq_ok.2 ⟨_, data, rfl⟩⟩

end KeyNode

end Bitcoin
