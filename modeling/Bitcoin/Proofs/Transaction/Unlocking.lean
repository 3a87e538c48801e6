import Bitcoin.Proofs.KeyPair.PublicKey
import Bitcoin.Proofs.KeyPair.Signing
import Bitcoin.Proofs.Signature.DerForms
import Bitcoin.Proofs.SignatureHash.Commitment
import Bitcoin.Transaction.KeyHashScript

/-! # Unlocking an input

Unlocking writes one script or nothing. What it signs does not hang on scripts of inputs, so the signature is
good for the transaction that already holds it.
-/

namespace Bitcoin

/-! ## Scripts -/

/-- A locking script shows the key hash that it holds. -/
theorem lockedKeyHash?_lockingScript (keyHash : Octets 20) :
    lockedKeyHash? (lockingScript keyHash) = some keyHash := by
  have front : (lockingScript keyHash).take 3 = [0x76, 0xa9, 0x14] := rfl
  have back : (lockingScript keyHash).drop 23 = [0x88, 0xac] := by
    simp [lockingScript]
  have middle : ((lockingScript keyHash).drop 3).take 20 = keyHash.toList := by
    simp [lockingScript]
  rw [lockedKeyHash?, if_pos ⟨front, back⟩, middle]
  exact Octets.ofList?_toList keyHash

/-! ## Hash types of one octet -/

namespace HashType

variable {hashType : HashType}

theorem toNat_toUInt8 (octet : hashType ≤ 0xff) : hashType.toUInt8.toNat = hashType.toNat := by
  rw [UInt32.toNat_toUInt8]
  exact Nat.mod_eq_of_lt (Nat.lt_succ_of_le (UInt32.le_iff_toNat_le.1 octet))

theorem mem_toUInt8 (member : (hashType &&& 0x7f) ∈ ([1, 2, 3] : List HashType)) :
    (hashType.toUInt8 &&& 0x7f) ∈ ([1, 2, 3] : Bytes) := by
  have low : hashType.toUInt8 &&& 0x7f = (hashType &&& 0x7f).toUInt8 := (UInt32.toUInt8_and hashType 0x7f).symm
  rw [low]
  exact List.mem_map_of_mem (f := UInt32.toUInt8) member

end HashType

theorem Signature.length_toDerWithHashType_le (sig : Signature) (hashType : UInt8) :
    (sig.toDerWithHashType hashType).length ≤ 73 := by
  have bound := length_toDer_le sig
  rw [toDerWithHashType, List.length_append, List.length_singleton]
  omega

namespace Transaction

variable {tx tx' : Transaction} {index : Nat} {unlocker : KeyHashUnlocker} {script subscript : Bytes}
  {hashType : HashType} {hash : Octets 32} {e : TransactionError}

/-! ## The hash that is signed -/

theorem signatureHash_outside (subscript : Bytes) (hashType : HashType) (outside : tx.inputs.length ≤ index) :
    tx.signatureHash index subscript hashType = .error (.inputOutOfRange index tx.inputs.length) := by
  rw [signatureHash, preimage_outside subscript hashType outside]
  rfl

theorem signatureHash_lacking (subscript : Bytes) (inside : index < tx.inputs.length)
    (lacks : ¬ tx.HasSignedOutput index hashType) :
    tx.signatureHash index subscript hashType = .ok hashWithoutOutput := by
  rw [signatureHash, preimage_lacking subscript inside lacks]
  rfl

/-- An input has something to sign, whatever the hash type asks for. -/
theorem exists_signatureHash (subscript : Bytes) (hashType : HashType) (inside : index < tx.inputs.length) :
    ∃ hash, tx.signatureHash index subscript hashType = .ok hash := by
  by_cases has : tx.HasSignedOutput index hashType
  · rw [signatureHash, preimage_having subscript inside has]
    exact ⟨_, rfl⟩
  · exact ⟨_, signatureHash_lacking subscript inside has⟩

/-- The transaction without the scripts of its inputs. -/
def withoutScripts (tx : Transaction) : Transaction :=
  { tx with inputs := tx.inputs.map unscripted }

/-- The transaction with a script in one input. -/
def withScript (tx : Transaction) (index : Nat) (script : Bytes) : Transaction :=
  tx.modifyInput index fun input => { input with script := script }

theorem signatureHash_withoutScripts (tx : Transaction) (index : Nat) (subscript : Bytes) (hashType : HashType) :
    tx.withoutScripts.signatureHash index subscript hashType = tx.signatureHash index subscript hashType := by
  apply signatureHash_of_unscripted
  rw [List.map_map]
  rfl

/-- What is signed does not hang on the scripts that inputs have by then. -/
theorem signatureHash_of_withoutScripts (same : tx'.withoutScripts = tx.withoutScripts) (index : Nat)
    (subscript : Bytes) (hashType : HashType) :
    tx'.signatureHash index subscript hashType = tx.signatureHash index subscript hashType := by
  rw [← signatureHash_withoutScripts tx', same, signatureHash_withoutScripts]

theorem getElem?_withScript_self (tx : Transaction) (index : Nat) (script : Bytes) :
    (tx.withScript index script).inputs[index]? =
      tx.inputs[index]?.map fun input => { input with script := script } := by
  simp [withScript, modifyInput]

theorem getElem?_withScript_of_ne {other : Nat} (apart : other ≠ index) (script : Bytes) :
    (tx.withScript index script).inputs[other]? = tx.inputs[other]? := by
  simp [withScript, modifyInput, Ne.symm apart]

theorem length_withScript (tx : Transaction) (index : Nat) (script : Bytes) :
    (tx.withScript index script).inputs.length = tx.inputs.length :=
  List.length_modify ..

theorem withoutScripts_withScript (tx : Transaction) (index : Nat) (script : Bytes) :
    (tx.withScript index script).withoutScripts = tx.withoutScripts := by
  unfold withoutScripts
  congr 1
  apply List.ext_getElem?
  intro other
  rw [List.getElem?_map, List.getElem?_map]
  by_cases here : other = index
  · rw [here, getElem?_withScript_self, Option.map_map]
    rfl
  · rw [getElem?_withScript_of_ne here]

/-! ## The script -/

/-- The script pushes what is signed of the hash, and the public key. -/
theorem unlockingScript_of_signatureHash (unlocker : KeyHashUnlocker)
    (h : tx.signatureHash index unlocker.locking unlocker.hashType = .ok hash) :
    unlocker.unlockingScript tx index = match unlocker.key.sign hash with
      | .error e => .error (.primitives e)
      | .ok sig => .ok (pushData (sig.toDerWithHashType unlocker.hashType.toUInt8)
          ++ pushData unlocker.key.publicKey) := by
  unfold KeyHashUnlocker.unlockingScript
  rw [h, Outcome.ok_bind, KeyPair.signWithHashType]
  cases unlocker.key.sign hash <;> rfl

theorem exists_unlockingScript {sig : Signature}
    (h : tx.signatureHash index unlocker.locking unlocker.hashType = .ok hash)
    (signed : unlocker.key.sign hash = .ok sig) : ∃ script, unlocker.unlockingScript tx index = .ok script := by
  rw [unlockingScript_of_signatureHash unlocker h, signed]
  exact ⟨_, rfl⟩

theorem unlockingScript_outside (unlocker : KeyHashUnlocker) (outside : tx.inputs.length ≤ index) :
    unlocker.unlockingScript tx index = .error (.inputOutOfRange index tx.inputs.length) := by
  unfold KeyHashUnlocker.unlockingScript
  rw [signatureHash_outside _ _ outside]
  rfl

theorem inside_of_unlockingScript (h : unlocker.unlockingScript tx index = .ok script) :
    index < tx.inputs.length := by
  by_contra outside
  rw [unlockingScript_outside unlocker (Nat.not_lt.1 outside)] at h
  cases h

theorem unlockingScript_congr (same : tx'.withoutScripts = tx.withoutScripts) (unlocker : KeyHashUnlocker)
    (index : Nat) : unlocker.unlockingScript tx' index = unlocker.unlockingScript tx index := by
  unfold KeyHashUnlocker.unlockingScript
  rw [signatureHash_of_withoutScripts same]

/-! ## One step -/

/-- An input is unlocked if there is a script for it; otherwise the transaction stays as it is. An input that
    has a script is there, so the check in front of writing never fails. -/
theorem run_unlockInput (tx : Transaction) (index : Nat) (unlocker : KeyHashUnlocker) :
    (unlockInput index unlocker).run tx = match unlocker.unlockingScript tx index with
      | .error e => .error e tx
      | .ok script => .ok () (tx.withScript index script) := by
  unfold unlockInput
  rw [EStateM.run_bind, EStateM.run_get]
  dsimp only
  rw [EStateM.run_bind]
  cases made : unlocker.unlockingScript tx index with
  | error e => rfl
  | ok script =>
      simp only [inside_of_unlockingScript made, if_true]
      rfl

theorem run_unlockInput_eq_ok : (unlockInput index unlocker).run tx = .ok () tx' ↔
    ∃ script, unlocker.unlockingScript tx index = .ok script ∧ tx' = tx.withScript index script := by
  rw [run_unlockInput]
  cases unlocker.unlockingScript tx index with
  | error e => simp
  | ok script => simp [eq_comm]

theorem run_unlockInput_eq_error : (unlockInput index unlocker).run tx = .error e tx' ↔
    unlocker.unlockingScript tx index = .error e ∧ tx' = tx := by
  rw [run_unlockInput]
  cases unlocker.unlockingScript tx index with
  | error e' => simp [eq_comm]
  | ok script => simp

/-! ## What an unlocked input shows -/

/-- What unlocking an input with the hash of a key leaves behind, when `pushed` is the signature with its hash
    type. Only the script of that input is another one. It pushes the signature and the public key, each behind its
    length, and the signature verifies for the transaction as it is now. -/
structure Unlocked (key : KeyPair) (hashType : HashType) (tx : Transaction) (index : Nat) (tx' : Transaction)
    (pushed : Bytes) : Prop where
  kept : tx'.version = tx.version ∧ tx'.outputs = tx.outputs ∧ tx'.lockTime = tx.lockTime ∧
    tx'.inputs.length = tx.inputs.length ∧ ∀ other, other ≠ index → tx'.inputs[other]? = tx.inputs[other]?
  script : ∃ input script, tx.inputs[index]? = some input ∧
    tx'.inputs[index]? = some { input with script := script } ∧
    script = UInt8.ofNat pushed.length :: pushed ++ UInt8.ofNat key.publicKey.length :: key.publicKey ∧
    script.length ≤ (KeyHashUnlocker.mk key hashType).estimateLength
  lengths : pushed.length < 0x4c ∧ (UInt8.ofNat pushed.length).toNat = pushed.length ∧
    key.publicKey.length < 0x4c ∧ (UInt8.ofNat key.publicKey.length).toNat = key.publicKey.length
  verifies : ∃ der octet hash, pushed = der ++ [octet] ∧ octet.toNat = hashType.toNat ∧
    tx'.signatureHash index (lockingScript (Hash.hash160 key.publicKey)) hashType = .ok hash ∧
    key.verifyDer der hash = true
  locked : lockedKeyHash? (lockingScript (Hash.hash160 key.publicKey)) = some (Hash.hash160 key.publicKey)
  canonical : (hashType &&& 0x7f) ∈ ([1, 2, 3] : List HashType) → Canonical.checkSignature pushed true = .ok ()

/-- A length below 76 fits into the octet in front of what is pushed. -/
theorem toNat_pushLength {data : Bytes} (short : data.length < 0x4c) :
    (UInt8.ofNat data.length).toNat = data.length :=
  UInt8.toNat_ofNat_of_lt' (Nat.lt_trans short (by decide))

theorem unlocked_withScript {key : KeyPair} {sig : Signature} (sound : key.Sound) (octet : hashType ≤ 0xff)
    (inside : index < tx.inputs.length)
    (hashed : tx.signatureHash index (lockingScript key.keyHash) hashType = .ok hash)
    (signed : key.sign hash = .ok sig) :
    Unlocked key hashType tx index (tx.withScript index
      (pushData (sig.toDerWithHashType hashType.toUInt8) ++ pushData key.publicKey))
      (sig.toDerWithHashType hashType.toUInt8) := by
  have signs := KeyPair.signs_of_sign sound signed
  have pushed := sig.length_toDerWithHashType_le hashType.toUInt8
  have pushedShort : (sig.toDerWithHashType hashType.toUInt8).length < 0x4c := by omega
  have keyLength := sound.length_publicKey
  have keyShort : key.publicKey.length < 0x4c := by
    rw [keyLength]
    split_ifs <;> decide
  constructor
  case kept =>
    refine ⟨rfl, rfl, rfl, length_withScript .., ?_⟩
    intro other elsewhere
    exact getElem?_withScript_of_ne elsewhere _
  case script =>
    refine ⟨tx.inputs[index], _, List.getElem?_eq_getElem inside, ?_, rfl, ?_⟩
    · rw [getElem?_withScript_self, List.getElem?_eq_getElem inside]
      rfl
    · rw [KeyHashUnlocker.estimateLength, ← keyLength, List.length_append, List.length_cons, List.length_cons]
      omega
  case lengths => exact ⟨pushedShort, toNat_pushLength pushedShort, keyShort, toNat_pushLength keyShort⟩
  case verifies =>
    refine ⟨sig.toDer, hashType.toUInt8, hash, rfl, HashType.toNat_toUInt8 octet, ?_, signs.verifyDer⟩
    -- The script just written is blanked before hashing, as the one before it was.
    exact (signatureHash_of_withoutScripts (withoutScripts_withScript ..) ..).trans hashed
  case locked => exact lockedKeyHash?_lockingScript _
  case canonical =>
    intro member
    have defined := Canonical.isDefinedHashType_of_mem (HashType.mem_toUInt8 member)
    exact Canonical.checkSignature_toDerWithHashType defined fun _ => signs.isLowS

variable {key : KeyPair}

/-- Unlocking an input that is there succeeds exactly if the pair signs the hash, and otherwise fails with what
    kept the pair from signing. -/
theorem run_unlockInput_inside (key : KeyPair) (hashType : HashType) (inside : index < tx.inputs.length) :
    ∃ hash, tx.signatureHash index (lockingScript key.keyHash) hashType = .ok hash ∧
      (unlockInput index ⟨key, hashType⟩).run tx = match key.sign hash with
        | .error e => .error (.primitives e) tx
        | .ok sig => .ok () (tx.withScript index
            (pushData (sig.toDerWithHashType hashType.toUInt8) ++ pushData key.publicKey)) := by
  obtain ⟨hash, hashed⟩ := exists_signatureHash (lockingScript key.keyHash) hashType inside
  refine ⟨hash, hashed, ?_⟩
  rw [run_unlockInput, unlockingScript_of_signatureHash ⟨key, hashType⟩ hashed]
  cases key.sign hash <;> rfl

theorem run_unlockInput_outside (unlocker : KeyHashUnlocker) (outside : tx.inputs.length ≤ index) :
    (unlockInput index unlocker).run tx = .error (.inputOutOfRange index tx.inputs.length) tx := by
  rw [run_unlockInput, unlockingScript_outside unlocker outside]

theorem unlocked_of_run (sound : key.Sound) (octet : hashType ≤ 0xff)
    (h : (unlockInput index ⟨key, hashType⟩).run tx = .ok () tx') :
    ∃ pushed, Unlocked key hashType tx index tx' pushed := by
  obtain ⟨script, made, -⟩ := run_unlockInput_eq_ok.1 h
  have inside := inside_of_unlockingScript made
  obtain ⟨hash, hashed, outcome⟩ := run_unlockInput_inside key hashType inside
  rw [h] at outcome
  cases signed : key.sign hash with
  | error e =>
      simp only [signed] at outcome
      cases outcome
  | ok sig =>
      simp only [signed] at outcome
      cases outcome
      exact ⟨_, unlocked_withScript sound octet inside hashed signed⟩

/-- Unlocking an input with a pair and a hash type of one octet, or none. It fails if there is no such input, then
    for want of a secret, then only with what keeps the pair from signing, and leaves the transaction as it was.
    When it succeeds, the input passes for the transaction that it leaves behind. -/
theorem unlockInput_passes (reachable : key.Reachable) (given : Option HashType)
    (octet : given.getD HashType.all ≤ 0xff) (tx : Transaction) (index : Nat) :
    (tx.inputs.length ≤ index → (unlockInput index (.ofKey key given)).run tx =
      .error (.inputOutOfRange index tx.inputs.length) tx) ∧
    (index < tx.inputs.length → key.secret = none →
      (unlockInput index (.ofKey key given)).run tx = .error (.primitives .noSecretKey) tx) ∧
    (index < tx.inputs.length → ∃ hash,
      tx.signatureHash index (lockingScript key.keyHash) (given.getD HashType.all) = .ok hash ∧
      ((∃ sig tx', key.sign hash = .ok sig ∧ (unlockInput index (.ofKey key given)).run tx = .ok () tx') ∨
        ∃ e, key.sign hash = .error e ∧
          (unlockInput index (.ofKey key given)).run tx = .error (.primitives e) tx)) ∧
    (∀ e tx', (unlockInput index (.ofKey key given)).run tx = .error e tx' → tx' = tx) ∧
    ∀ tx', (unlockInput index (.ofKey key given)).run tx = .ok () tx' →
      ∃ pushed, Unlocked key (given.getD HashType.all) tx index tx' pushed := by
  refine ⟨run_unlockInput_outside _, ?_, ?_, ?_, ?_⟩
  · intro inside lacking
    obtain ⟨hash, -, outcome⟩ := run_unlockInput_inside key (given.getD HashType.all) inside
    have failed : key.sign hash = .error .noSecretKey :=
      KeyPair.sign_eq_error.2 (KeyPair.signRecoverable_of_none lacking)
    simp only [failed] at outcome
    exact outcome
  · intro inside
    obtain ⟨hash, hashed, outcome⟩ := run_unlockInput_inside key (given.getD HashType.all) inside
    refine ⟨hash, hashed, ?_⟩
    cases signed : key.sign hash with
    | ok sig =>
        simp only [signed] at outcome
        exact .inl ⟨sig, _, rfl, outcome⟩
    | error e =>
        simp only [signed] at outcome
        exact .inr ⟨e, rfl, outcome⟩
  · intro e tx' failed
    exact (run_unlockInput_eq_error.1 failed).2
  · intro tx' succeeded
    exact unlocked_of_run reachable.sound octet succeeded

/-- A transaction that spends outputs without paying any. -/
def unpaid (count : Nat) : Transaction where
  version := 1
  inputs := (List.range count).map fun index => TxInput.unsigned (Octets.zero 32) (UInt32.ofNat index)
  outputs := []
  lockTime := 0

/-- The pair of the secret one unlocks, in either form, an input whose output is not there. -/
theorem exists_unlockingScript_lacking (compressed : Bool) (inside : index < tx.inputs.length)
    (lacks : ¬ tx.HasSignedOutput index hashType) : ∃ script,
      (KeyHashUnlocker.mk (KeyPair.unitKey.withCompressed compressed) hashType).unlockingScript tx index =
        .ok script := by
  have solvable : (Ecdsa.sign? 1 hashWithoutOutput).isSome = true := by decide +kernel
  obtain ⟨⟨sig, id⟩, found⟩ := Option.isSome_iff_exists.1 solvable
  have signed : (KeyPair.unitKey.withCompressed compressed).sign hashWithoutOutput = .ok sig := by
    refine KeyPair.sign_eq_ok.2 ⟨id, ?_⟩
    rw [KeyPair.signRecoverable_of_some (KeyPair.reachable_unitKey.sound.withCompressed compressed) rfl, found]
  exact exists_unlockingScript (signatureHash_lacking _ inside lacks) signed

/-- In particular for a single output of a transaction that pays none. -/
theorem not_hasSignedOutput_unpaid {count : Nat} (single : HashType.base hashType = HashType.single) :
    ¬ (unpaid count).HasSignedOutput index hashType :=
  fun has => Nat.not_lt_zero index (has single)

/-- An input is unlocked for a single output that is not there, with an uncompressed key; it is not unlocked
    without the secret, and no other one is. -/
theorem unlockInput_passes_unpaid :
    (KeyPair.unitKey.withCompressed false).Reachable ∧ (some HashType.single).getD HashType.all ≤ 0xff ∧
      (∃ tx' pushed,
        (unlockInput 0 (.ofKey (KeyPair.unitKey.withCompressed false) (some HashType.single))).run (unpaid 1) =
          .ok () tx' ∧
        Unlocked (KeyPair.unitKey.withCompressed false) HashType.single (unpaid 1) 0 tx' pushed) ∧
      KeyPair.unitKey.clear.Reachable ∧ none.getD HashType.all ≤ 0xff ∧
      (unlockInput 0 (.ofKey KeyPair.unitKey.clear none)).run (unpaid 1) =
        .error (.primitives .noSecretKey) (unpaid 1) ∧
      (unlockInput 1 (.ofKey KeyPair.unitKey.clear none)).run (unpaid 1) =
        .error (.inputOutOfRange 1 1) (unpaid 1) := by
  have reachable := KeyPair.reachable_unitKey.withCompressed false
  have octet : (some HashType.single).getD HashType.all ≤ 0xff := by decide
  have cleared := KeyPair.reachable_unitKey.clear
  have octet' : none.getD HashType.all ≤ 0xff := by decide
  refine ⟨reachable, octet, ?_, cleared, octet', ?_, ?_⟩
  · have lacks : ¬ (unpaid 1).HasSignedOutput 0 HashType.single := not_hasSignedOutput_unpaid rfl
    obtain ⟨script, made⟩ := exists_unlockingScript_lacking false (by decide) lacks
    have succeeded := run_unlockInput_eq_ok.2 ⟨script, made, rfl⟩
    obtain ⟨-, -, -, -, passes⟩ := unlockInput_passes reachable (some HashType.single) octet (unpaid 1) 0
    obtain ⟨pushed, unlocked⟩ := passes _ succeeded
    exact ⟨_, pushed, succeeded, unlocked⟩
  · exact (unlockInput_passes cleared none octet' (unpaid 1) 0).2.1 (by decide) rfl
  · exact (unlockInput_passes cleared none octet' (unpaid 1) 1).1 (by decide)

end Transaction

end Bitcoin
