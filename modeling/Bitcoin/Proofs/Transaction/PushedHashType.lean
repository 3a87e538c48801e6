import Bitcoin.Proofs.SignatureHash.Commitment
import Bitcoin.Proofs.Transaction.Unlocking

/-! # The hash type behind the signature

Of the hash type that is signed, an unlocking script shows one octet, and whoever checks the signature hashes with
the hash type that is this octet alone. It says the same about inputs and outputs, but it is hashed itself: both
preimages are the same only if nothing was lost or there is no preimage.
-/

namespace Bitcoin

namespace HashType

variable {hashType mask : HashType}

/-- The hash type that an octet behind a signature stands for. -/
def ofOctet (octet : UInt8) : HashType :=
  octet.toUInt32

theorem ofOctet_toUInt8_eq_iff : ofOctet hashType.toUInt8 = hashType ↔ hashType ≤ 0xff := by
  rw [ofOctet, ← UInt32.toNat_inj, UInt32.le_iff_toNat_le, UInt8.toNat_toUInt32, UInt32.toNat_toUInt8]
  show hashType.toNat % 256 = hashType.toNat ↔ hashType.toNat ≤ 255
  omega

/-- The bits below the ninth are kept. -/
theorem ofOctet_toUInt8_and (low : 0xff &&& mask = mask) : ofOctet hashType.toUInt8 &&& mask = hashType &&& mask := by
  have cut : ofOctet hashType.toUInt8 = hashType &&& 0xff := by
    rw [ofOctet, ← UInt32.toNat_inj, UInt8.toNat_toUInt32, UInt32.toNat_toUInt8, UInt32.toNat_and]
    exact (Nat.and_two_pow_sub_one_eq_mod hashType.toNat 8).symm
  rw [cut, UInt32.and_assoc, low]

theorem base_ofOctet (hashType : HashType) : base (ofOctet hashType.toUInt8) = base hashType :=
  ofOctet_toUInt8_and (by decide)

theorem anyoneCanPay_ofOctet (hashType : HashType) :
    anyoneCanPay (ofOctet hashType.toUInt8) = anyoneCanPay hashType := by
  rw [anyoneCanPay, anyoneCanPay, ofOctet_toUInt8_and (by decide)]

end HashType

namespace Transaction

variable {tx : Transaction} {index : Nat} {subscript script : Bytes} {hashType hashType' : HashType}
  {unlocker : KeyHashUnlocker} {key : KeyPair}

/-- The view hangs on the meaning of the hash type alone. -/
theorem committed_congr (base : HashType.base hashType = HashType.base hashType')
    (alone : HashType.anyoneCanPay hashType = HashType.anyoneCanPay hashType') :
    tx.committed index subscript hashType = tx.committed index subscript hashType' := by
  have opens : HashType.opensSequences hashType = HashType.opensSequences hashType' := by
    rw [HashType.opensSequences, HashType.opensSequences, base]
  have blanked : blankedInput hashType index subscript = blankedInput hashType' index subscript := by
    funext other input
    rw [blankedInput, blankedInput, opens]
  rw [committed, committed, blankInputs, blankInputs, blanked, blankOutputs, blankOutputs, base, isolateInput,
    isolateInput, alone]

theorem hasSignedOutput_ofOctet :
    tx.HasSignedOutput index (HashType.ofOctet hashType.toUInt8) ↔ tx.HasSignedOutput index hashType := by
  rw [HasSignedOutput, HasSignedOutput, HashType.base_ofOctet]

/-- The preimage with the octet alone ends in another hash type behind the same view. -/
theorem preimage_ofOctet (subscript : Bytes) (inside : index < tx.inputs.length)
    (has : tx.HasSignedOutput index hashType) : tx.preimage index subscript (HashType.ofOctet hashType.toUInt8) =
      .ok (some ((tx.committed index subscript hashType).encode ++ Wire.u32 (HashType.ofOctet hashType.toUInt8))) := by
  rw [preimage_having subscript inside (hasSignedOutput_ofOctet.2 has),
    committed_congr (HashType.base_ofOctet hashType) (HashType.anyoneCanPay_ofOctet hashType)]

theorem preimage_ofOctet_eq_iff (subscript : Bytes) (inside : index < tx.inputs.length) :
    tx.preimage index subscript (HashType.ofOctet hashType.toUInt8) = tx.preimage index subscript hashType ↔
      hashType ≤ 0xff ∨ ¬ tx.HasSignedOutput index hashType := by
  by_cases has : tx.HasSignedOutput index hashType
  · rw [or_iff_left (not_not.2 has), ← HashType.ofOctet_toUInt8_eq_iff]
    constructor
    · intro same
      have octets := preimage_ofOctet subscript inside has
      exact hashType_eq_of_preimage octets (same ▸ octets)
    · intro same
      rw [same]
  · rw [preimage_lacking subscript inside has, preimage_lacking subscript inside (mt hasSignedOutput_ofOctet.1 has)]
    exact iff_of_true rfl (.inr has)

/-! ## What a script shows -/

/-- The data that a script pushes first, when its length alone stands in front of it. -/
def firstPush? : Bytes → Option Bytes
  | [] => none
  | length :: rest =>
      if length.toNat < 0x4c ∧ length.toNat ≤ rest.length then some (rest.take length.toNat) else none

theorem firstPush?_pushData {data : Bytes} (short : data.length < 0x4c) (rest : Bytes) :
    firstPush? (pushData data ++ rest) = some data := by
  have length := toNat_pushLength short
  unfold pushData
  rw [List.cons_append, firstPush?, length, if_pos ⟨short, by simp⟩, List.take_left]

/-- What an unlocking script pushes first is a signature of the hash that the whole hash type gives, with the low
    octet of that type behind it. -/
theorem firstPush?_unlockingScript (h : unlocker.unlockingScript tx index = .ok script) :
    ∃ hash sig, tx.signatureHash index unlocker.locking unlocker.hashType = .ok hash ∧
      unlocker.key.sign hash = .ok sig ∧ firstPush? script = some (sig.toDer ++ [unlocker.hashType.toUInt8]) := by
  obtain ⟨hash, hashed⟩ := exists_signatureHash unlocker.locking unlocker.hashType (inside_of_unlockingScript h)
  rw [unlockingScript_of_signatureHash unlocker hashed] at h
  cases signed : unlocker.key.sign hash with
  | error e =>
      simp only [signed] at h
      cases h
  | ok sig =>
      simp only [signed] at h
      cases h
      have short := sig.length_toDerWithHashType_le unlocker.hashType.toUInt8
      exact ⟨hash, sig, hashed, signed, firstPush?_pushData (by omega) _⟩

/-- An unlocking script shows the low octet of the hash type that was signed. The preimage that a verifier makes with
    this octet has the same view in it, and is the one that was hashed exactly if the hash type is one octet or, for
    want of the single output, there is none. -/
theorem pushed_hashType_agrees_iff
    (h : (KeyHashUnlocker.ofKey key (some hashType)).unlockingScript tx index = .ok script) :
    ∃ hash sig octet, tx.signatureHash index (lockingScript key.keyHash) hashType = .ok hash ∧
      key.sign hash = .ok sig ∧ firstPush? script = some (sig.toDer ++ [octet]) ∧
      octet.toNat = hashType.toNat % 256 ∧
      (tx.preimage index (lockingScript key.keyHash) hashType =
          tx.preimage index (lockingScript key.keyHash) (HashType.ofOctet octet) ↔
        hashType ≤ 0xff ∨ ¬ tx.HasSignedOutput index hashType) ∧
      (tx.HasSignedOutput index hashType → ∃ view : Transaction,
        tx.preimage index (lockingScript key.keyHash) hashType = .ok (some (view.encode ++ Wire.u32 hashType)) ∧
        tx.preimage index (lockingScript key.keyHash) (HashType.ofOctet octet) =
          .ok (some (view.encode ++ Wire.u32 (HashType.ofOctet octet)))) := by
  have inside := inside_of_unlockingScript h
  obtain ⟨hash, sig, hashed, signed, pushed⟩ := firstPush?_unlockingScript h
  refine ⟨hash, sig, hashType.toUInt8, hashed, signed, pushed, UInt32.toNat_toUInt8 _, ?_, ?_⟩
  · exact eq_comm.trans (preimage_ofOctet_eq_iff _ inside)
  · intro has
    exact ⟨_, preimage_having _ inside has, preimage_ofOctet _ inside has⟩

/-! ## A hash type of two octets -/

/-- It signs everything, as its low octet does, and has one more bit. -/
def wideAll : HashType :=
  0x101

theorem exists_unlockingScript_wideAll :
    ∃ script, (KeyHashUnlocker.ofKey .unitKey (some wideAll)).unlockingScript (paying 1) 0 = .ok script :=
  Outcome.exists_of_isOk (by decide +kernel)

theorem hasSignedOutput_wideAll : (paying 1).HasSignedOutput 0 wideAll :=
  fun single => absurd single (by decide)

/-- The preimage of the whole hash type is not the one of the octet that is shown. -/
theorem pushed_hashType_agrees_iff_wideAll :
    ∃ script, (KeyHashUnlocker.ofKey .unitKey (some wideAll)).unlockingScript (paying 1) 0 = .ok script ∧
      ∃ octet, octet.toNat = 1 ∧
        (paying 1).preimage 0 (lockingScript KeyPair.unitKey.keyHash) wideAll ≠
          (paying 1).preimage 0 (lockingScript KeyPair.unitKey.keyHash) (HashType.ofOctet octet) := by
  obtain ⟨script, made⟩ := exists_unlockingScript_wideAll
  obtain ⟨-, -, octet, -, -, -, low, agrees, -⟩ := pushed_hashType_agrees_iff made
  refine ⟨script, made, octet, low, fun same => ?_⟩
  cases agrees.1 same with
  | inl narrow => exact absurd narrow (by decide)
  | inr lacks => exact lacks hasSignedOutput_wideAll

/-- So the octet behind a signature does not always stand for the hash type that was signed. -/
theorem not_pushed_hashType_signed : ¬ ∀ (tx : Transaction) (index : Nat) (key : KeyPair) (hashType : HashType)
    (script der : Bytes) (octet : UInt8),
    (KeyHashUnlocker.ofKey key (some hashType)).unlockingScript tx index = .ok script →
    firstPush? script = some (der ++ [octet]) →
    tx.preimage index (lockingScript key.keyHash) hashType =
      tx.preimage index (lockingScript key.keyHash) (HashType.ofOctet octet) := by
  intro always
  obtain ⟨script, made⟩ := exists_unlockingScript_wideAll
  obtain ⟨-, sig, -, -, pushed⟩ := firstPush?_unlockingScript made
  have same := always _ _ _ _ _ _ _ made pushed
  cases (preimage_ofOctet_eq_iff _ (inside_of_unlockingScript made)).1 same.symm with
  | inl narrow => exact absurd narrow (by decide)
  | inr lacks => exact lacks hasSignedOutput_wideAll

end Transaction

end Bitcoin
