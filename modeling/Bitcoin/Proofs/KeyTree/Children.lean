import Bitcoin.Proofs.KeyTree.Cleared
import Bitcoin.Proofs.Signature.Components

/-! # Children

Every answer of a derivation, with the conditions that lead to it. A factor and a chain code come from a keyed
hash; what they make of a node is the same for a node with a secret and for one without, seen from the points,
and there is no child only if the factor is out of range or cancels the key.
-/

namespace Bitcoin

namespace ChildNumber

variable {index : UInt32} {hardened : Bool}

theorem ofIndex_of_le (low : index.toNat ≤ 0x7fffffff) (hardened : Bool) :
    ofIndex index hardened = .ok ⟨⟨index.toNat, Nat.lt_succ_of_le low⟩, hardened⟩ :=
  dif_pos _

theorem ofIndex_of_lt (high : 0x7fffffff < index.toNat) (hardened : Bool) :
    ofIndex index hardened = .error (.invalidChildIndex index) :=
  dif_neg (Nat.not_lt.2 high)

theorem word_mk (low : index.toNat < 0x80000000) : word ⟨⟨index.toNat, low⟩, hardened⟩ = index :=
  UInt32.ofNat_toNat

theorem toNat_word_le (step : ChildNumber) : step.word.toNat ≤ 0x7fffffff := by
  rw [toNat_word]
  exact Nat.le_of_lt_succ step.index.isLt

end ChildNumber

namespace KeyPair

/-- The scalar cancels the key: it leaves no secret or, of a key without a secret, no point. -/
inductive CancelledBy (key : KeyPair) (factor : Nat) : Prop where
  | secret {d : Scalar} (held : key.secret = some d) (zero : (factor + d.val) % groupOrder = 0)
  | point (lacking : key.secret = none)
      (infinite : key.point.toGroup + factor • Point.generator.toGroup = 0)

/-- The sum of a key and a scalar. The points are added whether or not there is a secret. -/
structure IsShifted (key : KeyPair) (factor : Scalar) (sum : KeyPair) : Prop where
  onCurve : sum.point.OnCurve
  finite : sum.point ≠ .infinity
  point : sum.point.toGroup = key.point.toGroup + factor.val • Point.generator.toGroup
  held : ∀ d, key.secret = some d → ∃ e : Scalar, sum.secret = some e ∧
    e.val = (factor.val + d.val) % groupOrder ∧ 1 ≤ e.val ∧ e.val ≤ groupOrder - 1
  lacking : key.secret = none → sum.secret = none
  compressed : sum.compressed = true

end KeyPair

namespace KeyNode

variable {node child : KeyNode} {key sum : KeyPair} {factor : Scalar} {step : ChildNumber}

/-! ## Sums of keys and factors -/

/-- Seen from the point there is only one branch. -/
theorem addFactor_eq (sound : key.Sound) (factor : Scalar) (step : ChildNumber) :
    addFactor key factor step =
      if key.point.addGenerator factor = .infinity then .error (.invalidChild step.word)
      else .ok ⟨key.secret.map (factor + ·), key.point.addGenerator factor, true⟩ := by
  cases secret : key.secret with
  | none => exact addFactor_point secret factor step
  | some parent =>
      rw [addFactor_secret secret, sound.secret parent secret, Point.addGenerator_generator_multiply]
      simp only [Point.generator_multiply_eq_infinity, Option.map_some]

theorem addGenerator_eq_infinity_iff (sound : key.Sound) :
    key.point.addGenerator factor = .infinity ↔ key.CancelledBy factor.val := by
  cases secret : key.secret with
  | none =>
      rw [← Point.toGroup_eq_zero (Point.onCurve_addGenerator sound.onCurve factor),
        Point.toGroup_addGenerator sound.onCurve]
      constructor
      · intro infinite
        exact .point secret infinite
      · intro cancelled
        cases cancelled with
        | secret held => simp [secret] at held
        | point lacking infinite => exact infinite
  | some parent =>
      rw [sound.secret parent secret, Point.addGenerator_generator_multiply,
        Point.generator_multiply_eq_infinity, Fin.ext_iff, Fin.val_add]
      constructor
      · intro zero
        exact .secret secret zero
      · intro cancelled
        cases cancelled with
        | secret held zero =>
            obtain rfl : parent = _ := Option.some.inj (secret.symm.trans held)
            exact zero
        | point lacking => simp [secret] at lacking

theorem addFactor_eq_ok (sound : key.Sound) :
    addFactor key factor step = .ok sum ↔ key.IsShifted factor sum := by
  rw [addFactor_eq sound]
  have onCurve := Point.onCurve_addGenerator sound.onCurve factor
  have point := Point.toGroup_addGenerator sound.onCurve factor
  constructor
  · intro h
    split_ifs at h with infinite
    cases h
    refine ⟨onCurve, infinite, point, ?_, ?_, rfl⟩
    · intro d held
      have nonzero : factor + d ≠ 0 := by
        intro zero
        apply infinite
        rw [sound.secret d held, Point.addGenerator_generator_multiply, zero]
        exact Point.generator_multiply_eq_infinity.2 rfl
      refine ⟨factor + d, by simp [held], Fin.val_add factor d, ?_, ?_⟩
      · exact Scalar.val_pos nonzero
      · exact Nat.le_sub_one_of_lt (factor + d).isLt
    · intro lacking
      simp [lacking]
  · intro shifted
    have same : sum.point = key.point.addGenerator factor := by
      rw [← Point.toGroup_inj shifted.onCurve onCurve, shifted.point, point]
    have secret : sum.secret = key.secret.map (factor + ·) := by
      cases secret : key.secret with
      | none => exact shifted.lacking secret
      | some d =>
          obtain ⟨e, held, value, -, -⟩ := shifted.held d secret
          rw [held]
          exact congrArg some (Fin.ext (value.trans (Fin.val_add factor d).symm))
    rw [if_neg (same ▸ shifted.finite), ← same, ← secret, ← shifted.compressed]

/-! ## What is hashed -/

/-- The octets that are hashed for a child: its number, with the high bit if it is hardened, behind a zero and
    the secret or behind the compressed public key. -/
inductive Hashes (node : KeyNode) (index : UInt32) : Bool → Bytes → Prop where
  | hardened {d : Scalar} (held : node.key.secret = some d) :
      Hashes node index true
        (0 :: d.toOctets.toList ++ (Octets.ofNat 4 (index.toNat + 0x80000000)).toList)
  | plain :
      Hashes node index false (node.key.compressedKey ++ (Octets.ofNat 4 index.toNat).toList)

variable {index : UInt32} {hardened : Bool} {data : Bytes} {hash : Octets (32 + 32)} {e : Error}

theorem childSeed_of_hashes (low : index.toNat < 0x80000000) (hashes : node.Hashes index hardened data) :
    node.childSeed ⟨⟨index.toNat, low⟩, hardened⟩ = .ok data := by
  unfold childSeed
  rw [ChildNumber.toNat_toWire]
  cases hashes with
  | hardened held => simp [held, pure, Except.pure]
  | plain => rfl

/-- There is something to hash unless the child is hardened and there is no secret. -/
theorem exists_hashes (node : KeyNode) (index : UInt32) (hardened : Bool) :
    (∃ data, node.Hashes index hardened data) ∨ hardened = true ∧ node.key.secret = none := by
  cases hardened with
  | false => exact .inl ⟨_, .plain⟩
  | true =>
      cases secret : node.key.secret with
      | none => exact .inr ⟨rfl, rfl⟩
      | some d => exact .inl ⟨_, .hardened secret⟩

/-! ## What a hash gives -/

/-- The child that a hash leads to, with the factor in it. -/
structure IsChild (node : KeyNode) (index : UInt32) (hardened : Bool) (hash : Octets (32 + 32))
    (child : KeyNode) (factor : Scalar) : Prop where
  left : factor.val = hash.left.toNat
  right : child.chainCode = hash.right
  key : node.key.IsShifted factor child.key
  depth : child.depth.toNat = node.depth.toNat + 1
  parent : (Octets.ofWord child.parentFingerprint).toList = node.identifier.toList.take 4
  index : child.child.index.val = index.toNat
  hardened : child.child.hardened = hardened
  network : child.network = node.network
  live : child.cleared = false

theorem ofWord_fingerprint (node : KeyNode) :
    (Octets.ofWord node.fingerprint).toList = node.identifier.toList.take 4 := by
  have length : (node.identifier.toList.take 4).length = 4 := by simp
  have small := Bytes.toNat_lt (node.identifier.toList.take 4)
  rw [length] at small
  unfold Octets.ofWord fingerprint
  rw [UInt32.toNat_ofNat_of_lt' small, Octets.toList_ofNat_toNat length]

theorem toNat_depth_add_one {depth : UInt8} (shallow : depth ≠ 255) :
    (depth + 1).toNat = depth.toNat + 1 := by
  have deepest : depth.toNat ≠ 255 := fun same => shallow (UInt8.toNat_inj.1 same)
  have octet := depth.toNat_lt
  have one : (1 : UInt8).toNat = 1 := rfl
  rw [UInt8.toNat_add, one, Nat.mod_eq_of_lt (by omega)]

theorem childOfHash_eq_ok_iff_isChild (sound : node.key.Sound) (shallow : node.depth ≠ 255)
    (low : index.toNat < 0x80000000) :
    node.childOfHash ⟨⟨index.toNat, low⟩, hardened⟩ (node.depth + 1) hash = .ok (child, factor) ↔
      node.IsChild index hardened hash child factor := by
  rw [childOfHash_eq_ok]
  have deeper := toNat_depth_add_one shallow
  constructor
  · intro ⟨value, key, added, place⟩
    subst place
    exact
      { left := value.symm
        right := rfl
        key := (addFactor_eq_ok sound).1 added
        depth := deeper
        parent := ofWord_fingerprint node
        index := rfl
        hardened := rfl
        network := rfl
        live := rfl }
  · intro isChild
    refine ⟨isChild.left.symm, child.key, (addFactor_eq_ok sound).2 isChild.key, ?_⟩
    obtain ⟨key, chainCode, depth, parent, ⟨number, flag⟩, network, cleared⟩ := child
    obtain ⟨-, right, -, depths, fingerprint, numbers, flags, networks, live⟩ := isChild
    have words : Octets.ofWord parent = Octets.ofWord node.fingerprint :=
      Octets.ext (fingerprint.trans (ofWord_fingerprint node).symm)
    have parents := congrArg Octets.toWord words
    rw [Octets.toWord_ofWord, Octets.toWord_ofWord] at parents
    obtain rfl : depth = node.depth + 1 := UInt8.toNat_inj.1 (depths.trans deeper.symm)
    obtain rfl : number = ⟨index.toNat, low⟩ := Fin.ext numbers
    subst parents right flags networks live
    rfl

/-- There is no child if the factor is out of range or cancels the key. -/
theorem childOfHash_eq_error (sound : node.key.Sound) {depth : UInt8} :
    node.childOfHash step depth hash = .error e ↔
      e = .invalidChild step.word ∧
        (groupOrder ≤ hash.left.toNat ∨ node.key.CancelledBy hash.left.toNat) := by
  unfold childOfHash
  by_cases below : hash.left.toNat < groupOrder
  · have cancelled : node.key.point.addGenerator ⟨hash.left.toNat, below⟩ = .infinity ↔
        node.key.CancelledBy hash.left.toNat := addGenerator_eq_infinity_iff sound
    rw [dif_pos below, ← cancelled, or_iff_right (Nat.not_le.2 below)]
    have added := addFactor_eq sound ⟨hash.left.toNat, below⟩ step
    by_cases infinite : node.key.point.addGenerator ⟨hash.left.toNat, below⟩ = .infinity
    · rw [if_pos infinite] at added
      simp only [added, Outcome.error_bind, infinite, and_true, Except.error.injEq]
      exact eq_comm
    · rw [if_neg infinite] at added
      simp only [added, Outcome.ok_bind, infinite, and_false, iff_false]
      exact nofun
  · rw [dif_neg below]
    simp only [Except.error.injEq, Nat.le_of_not_lt below, true_or, and_true]
    exact eq_comm

/-! ## Every answer -/

/-- The hash that children are made of, keyed with the chain code. -/
def childHash (node : KeyNode) (data : Bytes) : Octets (32 + 32) :=
  Hash.hmacSha512 node.chainCode.toList data

/-- Nothing but a hash stands between the node and a child of the index. -/
structure IsReady (node : KeyNode) (index : UInt32) : Prop where
  live : node.cleared = false
  low : index.toNat ≤ 0x7fffffff
  shallow : node.depth ≠ 255

/-- The answers of a derivation, each with the conditions that lead to it. A failure is that of the first check
    that fails. -/
inductive Answers (node : KeyNode) (index : UInt32) (hardened : Bool) : Result (KeyNode × Scalar) → Prop where
  | cleared (cleared : node.cleared = true) : Answers node index hardened (.error .cleared)
  | outOfRange (live : node.cleared = false) (high : 0x7fffffff < index.toNat) :
      Answers node index hardened (.error (.invalidChildIndex index))
  | tooDeep (live : node.cleared = false) (low : index.toNat ≤ 0x7fffffff) (deepest : node.depth = 255) :
      Answers node index hardened (.error .maxDepthExceeded)
  | secretless (ready : node.IsReady index) (demanded : hardened = true) (lacking : node.key.secret = none) :
      Answers node index hardened (.error .hardenedNeedsSecret)
  | missing (ready : node.IsReady index) {data : Bytes} (hashes : node.Hashes index hardened data)
      (useless : groupOrder ≤ (node.childHash data).left.toNat ∨
        node.key.CancelledBy (node.childHash data).left.toNat) :
      Answers node index hardened (.error (.invalidChild index))
  | child (ready : node.IsReady index) {data : Bytes} {child : KeyNode} {factor : Scalar}
      (hashes : node.Hashes index hardened data)
      (isChild : node.IsChild index hardened (node.childHash data) child factor) :
      Answers node index hardened (.ok (child, factor))

theorem deriveWithFactor_of_outOfRange (live : node.cleared = false) (high : 0x7fffffff < index.toNat)
    (hardened : Bool) : node.deriveWithFactor index hardened = .error (.invalidChildIndex index) := by
  rw [deriveWithFactor_eq, live, ChildNumber.ofIndex_of_lt high]
  rfl

theorem deriveWithFactor_of_tooDeep (live : node.cleared = false) (low : index.toNat ≤ 0x7fffffff)
    (deepest : node.depth = 255) (hardened : Bool) :
    node.deriveWithFactor index hardened = .error .maxDepthExceeded := by
  rw [deriveWithFactor_eq, live, ChildNumber.ofIndex_of_le low, Outcome.ok_bind, if_pos deepest]
  rfl

theorem deriveWithFactor_of_ready (ready : node.IsReady index) (hardened : Bool) :
    node.deriveWithFactor index hardened =
      node.childSeed ⟨⟨index.toNat, Nat.lt_succ_of_le ready.low⟩, hardened⟩ >>= fun seed =>
        node.childOfHash ⟨⟨index.toNat, Nat.lt_succ_of_le ready.low⟩, hardened⟩ (node.depth + 1)
          (node.childHash seed) := by
  rw [deriveWithFactor_eq, ready.live, ChildNumber.ofIndex_of_le ready.low, Outcome.ok_bind,
    if_neg ready.shallow]
  rfl

theorem deriveWithFactor_of_secretless (ready : node.IsReady index) (lacking : node.key.secret = none) :
    node.deriveWithFactor index true = .error .hardenedNeedsSecret := by
  rw [deriveWithFactor_of_ready ready, childSeed]
  simp only [lacking]
  rfl

theorem deriveWithFactor_of_hashes (ready : node.IsReady index) (hashes : node.Hashes index hardened data) :
    node.deriveWithFactor index hardened =
      node.childOfHash ⟨⟨index.toNat, Nat.lt_succ_of_le ready.low⟩, hardened⟩ (node.depth + 1)
        (node.childHash data) := by
  rw [deriveWithFactor_of_ready ready, childSeed_of_hashes _ hashes, Outcome.ok_bind]

/-- There is always an answer. -/
theorem answers_deriveWithFactor (sound : node.key.Sound) (index : UInt32) (hardened : Bool) :
    node.Answers index hardened (node.deriveWithFactor index hardened) := by
  cases cleared : node.cleared with
  | true =>
      rw [deriveWithFactor_of_cleared cleared]
      exact .cleared cleared
  | false =>
      by_cases high : 0x7fffffff < index.toNat
      · rw [deriveWithFactor_of_outOfRange cleared high]
        exact .outOfRange cleared high
      have low := Nat.le_of_not_lt high
      by_cases deepest : node.depth = 255
      · rw [deriveWithFactor_of_tooDeep cleared low deepest]
        exact .tooDeep cleared low deepest
      have ready : node.IsReady index := ⟨cleared, low, deepest⟩
      obtain ⟨data, hashes⟩ | ⟨rfl, lacking⟩ := exists_hashes node index hardened
      · rw [deriveWithFactor_of_hashes ready hashes]
        cases outcome : node.childOfHash ⟨⟨index.toNat, Nat.lt_succ_of_le ready.low⟩, hardened⟩
          (node.depth + 1) (node.childHash data) with
        | error e =>
            obtain ⟨rfl, useless⟩ := (childOfHash_eq_error sound).1 outcome
            rw [ChildNumber.word_mk]
            exact .missing ready hashes useless
        | ok made =>
            obtain ⟨child, factor⟩ := made
            exact .child ready hashes ((childOfHash_eq_ok_iff_isChild sound deepest _).1 outcome)
      · rw [deriveWithFactor_of_secretless ready lacking]
        exact .secretless ready rfl lacking

/-- An answer whose conditions hold is the one that is given. -/
theorem deriveWithFactor_of_answers (sound : node.key.Sound) {answer : Result (KeyNode × Scalar)}
    (answers : node.Answers index hardened answer) : node.deriveWithFactor index hardened = answer := by
  cases answers with
  | cleared cleared => exact deriveWithFactor_of_cleared cleared index hardened
  | outOfRange live high => exact deriveWithFactor_of_outOfRange live high hardened
  | tooDeep live low deepest => exact deriveWithFactor_of_tooDeep live low deepest hardened
  | secretless ready demanded lacking =>
      rw [demanded]
      exact deriveWithFactor_of_secretless ready lacking
  | missing ready hashes useless =>
      rw [deriveWithFactor_of_hashes ready hashes, childOfHash_eq_error sound, ChildNumber.word_mk]
      exact ⟨rfl, useless⟩
  | child ready hashes isChild =>
      rw [deriveWithFactor_of_hashes ready hashes]
      exact (childOfHash_eq_ok_iff_isChild sound ready.shallow _).2 isChild

/-! ## The child alone -/

theorem derive_of_deriveWithFactor (h : node.deriveWithFactor index hardened = .error e) :
    node.derive index hardened = .error e := by
  rw [derive, h]
  rfl

/-- A sum has a finite point, and a secret if the key has one, whatever the key is. -/
theorem finite_and_hasSecret_of_addFactor (added : addFactor key factor step = .ok sum) :
    sum.point ≠ .infinity ∧ sum.hasSecret = key.hasSecret := by
  unfold KeyPair.hasSecret
  cases secret : key.secret with
  | some d =>
      rw [addFactor_secret secret] at added
      split_ifs at added with zero
      cases added
      exact ⟨Point.generator_multiply_eq_infinity.not.2 zero, rfl⟩
  | none =>
      rw [addFactor_point secret] at added
      split_ifs at added with infinite
      cases added
      exact ⟨infinite, rfl⟩

theorem addFactor_of_derive (h : node.derive index hardened = .ok child) :
    ∃ factor step, addFactor node.key factor step = .ok child.key := by
  obtain ⟨factor, derived⟩ := derive_eq_ok.1 h
  obtain ⟨-, -, step, seed, -, -, made⟩ := deriveWithFactor_eq_ok.1 derived
  obtain ⟨-, key, added, rfl⟩ := childOfHash_eq_ok.1 made
  exact ⟨factor, step, added⟩

theorem finite_of_derive (h : node.derive index hardened = .ok child) : child.key.point ≠ .infinity := by
  obtain ⟨factor, step, added⟩ := addFactor_of_derive h
  exact (finite_and_hasSecret_of_addFactor added).1

theorem isPrivate_of_derive (h : node.derive index hardened = .ok child) : child.isPrivate = node.isPrivate := by
  obtain ⟨factor, step, added⟩ := addFactor_of_derive h
  exact (finite_and_hasSecret_of_addFactor added).2

/-- Why a live node has no children of a kind, whatever their indices. -/
inductive Bars (node : KeyNode) (hardened : Bool) : Error → Prop where
  | tooDeep (deepest : node.depth = 255) : Bars node hardened .maxDepthExceeded
  | secretless (shallow : node.depth ≠ 255) (demanded : hardened = true) (lacking : node.key.secret = none) :
      Bars node hardened .hardenedNeedsSecret

/-- The node has every child of a kind that exists. -/
structure Admits (node : KeyNode) (hardened : Bool) : Prop where
  shallow : node.depth ≠ 255
  held : hardened = true → node.key.secret ≠ none

theorem admits_or_bars (node : KeyNode) (hardened : Bool) :
    node.Admits hardened ∨ ∃ e, node.Bars hardened e := by
  by_cases deepest : node.depth = 255
  · exact .inr ⟨_, .tooDeep deepest⟩
  by_cases bare : hardened = true ∧ node.key.secret = none
  · exact .inr ⟨_, .secretless deepest bare.1 bare.2⟩
  · exact .inl ⟨deepest, fun demanded lacking => bare ⟨demanded, lacking⟩⟩

section Live

variable (live : node.cleared = false) (low : index.toNat ≤ 0x7fffffff)
include live low

theorem derive_of_bars (bars : node.Bars hardened e) : node.derive index hardened = .error e := by
  apply derive_of_deriveWithFactor
  cases bars with
  | tooDeep deepest => exact deriveWithFactor_of_tooDeep live low deepest hardened
  | secretless shallow demanded lacking =>
      rw [demanded]
      exact deriveWithFactor_of_secretless ⟨live, low, shallow⟩ lacking

/-- Only that there is no child of the index can be in the way. -/
theorem derive_of_admits (admits : node.Admits hardened) :
    (∃ child, node.derive index hardened = .ok child) ∨
      node.derive index hardened = .error (.invalidChild index) := by
  have ready : node.IsReady index := ⟨live, low, admits.shallow⟩
  have hashes : ∃ data, node.Hashes index hardened data := by
    apply (exists_hashes node index hardened).resolve_right
    intro ⟨demanded, lacking⟩
    exact admits.held demanded lacking
  obtain ⟨data, hashes⟩ := hashes
  have made := deriveWithFactor_of_hashes ready hashes
  cases outcome : node.deriveWithFactor index hardened with
  | ok made => exact .inl ⟨made.1, derive_eq_ok.2 ⟨made.2, outcome⟩⟩
  | error e =>
      rw [outcome] at made
      have missing := eq_invalidChild_of_childOfHash made.symm
      rw [ChildNumber.word_mk] at missing
      rw [missing] at outcome
      exact .inr (derive_of_deriveWithFactor outcome)

end Live

/-- A derivation gives an answer exactly if its conditions hold, and the child and its key alone are had by the
    same answer. -/
theorem derivation_exact (reachable : node.Reachable) (index : UInt32) (hardened : Bool) :
    (∀ answer, node.deriveWithFactor index hardened = answer ↔ node.Answers index hardened answer) ∧
      (node.derive index hardened = (node.deriveWithFactor index hardened).map fun made => made.1) ∧
      (node.keyAt index hardened = (node.deriveWithFactor index hardened).map fun made => made.1.key) := by
  have sound := reachable.sound.key
  refine ⟨fun answer => ⟨?_, deriveWithFactor_of_answers sound⟩, ?_, ?_⟩
  · intro same
    subst same
    exact answers_deriveWithFactor sound index hardened
  · unfold derive
    cases node.deriveWithFactor index hardened with
    | error e => rfl
    | ok made => rfl
  · unfold keyAt derive
    cases node.deriveWithFactor index hardened with
    | error e => rfl
    | ok made => rfl

/-- The master node of the secret one has a first hardened child, but none of an index with the high bit; without
    its secret it has no hardened child, and cleared it has none at all. -/
theorem derivation_exact_master :
    ((master 1).Reachable ∧ (∃ child factor, (master 1).deriveWithFactor 0 true = .ok (child, factor) ∧
        (master 1).Answers 0 true (.ok (child, factor))) ∧
      (master 1).deriveWithFactor 0x80000000 true = .error (.invalidChildIndex 0x80000000)) ∧
    ((master 1).publicOnly.Reachable ∧
      (master 1).publicOnly.deriveWithFactor 0 true = .error .hardenedNeedsSecret) ∧
    ((master 1).clear.Reachable ∧ (master 1).clear.keyAt 0 false = .error .cleared) := by
  have nonzero : (1 : Scalar) ≠ 0 := by decide
  have reachable : (master 1).Reachable := reachable_master nonzero
  have solvable : ((master 1).derive 0 true).isOk = true := by decide +kernel
  obtain ⟨child, derived⟩ := Outcome.exists_of_isOk solvable
  obtain ⟨factor, made⟩ := derive_eq_ok.1 derived
  refine ⟨⟨reachable, ⟨child, factor, made, ?_⟩, ?_⟩, ⟨reachable.publicOnly, ?_⟩, reachable.clear, ?_⟩
  · exact ((derivation_exact reachable 0 true).1 _).1 made
  · exact ((derivation_exact reachable 0x80000000 true).1 _).2 (.outOfRange rfl (by decide))
  · have ready : (master 1).publicOnly.IsReady 0 := ⟨rfl, by decide, by decide⟩
    exact ((derivation_exact reachable.publicOnly 0 true).1 _).2 (.secretless ready rfl rfl)
  · obtain ⟨answers, -, key⟩ := derivation_exact reachable.clear 0 false
    rw [key, (answers _).2 (.cleared rfl)]
    rfl

end KeyNode

end Bitcoin
