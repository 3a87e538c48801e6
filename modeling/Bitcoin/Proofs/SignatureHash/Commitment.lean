import Bitcoin.Proofs.SignatureHash.View
import Bitcoin.Proofs.Transaction.Reads

/-! # What a signature commits to

Two preimages are the same octets exactly when the two calls have the same hash type and the same masked
view. One direction is that nothing outside the view is hashed, the other that nothing inside it can be
traded for something else, although scripts and counts have no fixed width.
-/

namespace Bitcoin.Transaction

/-- An input without its script. -/
def unscripted (input : TxInput) : TxInput :=
  { input with script := [] }

variable {tx tx' : Transaction} {signed signed' : Nat} {subscript subscript' : Bytes}
  {hashType hashType' : HashType}

/-- Calls with one signed position and hash type, and with one masked view, have one preimage, and also
    fail alike if the transactions have as many inputs. -/
theorem preimage_congr (count : tx.inputs.length = tx'.inputs.length ∨
      (signed < tx.inputs.length ∧ signed < tx'.inputs.length))
    (has : tx.HasSignedOutput signed hashType ↔ tx'.HasSignedOutput signed hashType)
    (version : tx.version = tx'.version) (lockTime : tx.lockTime = tx'.lockTime)
    (inputs : tx.maskedInputs signed subscript hashType =
      tx'.maskedInputs signed subscript hashType)
    (outputs : tx.maskedOutputs signed hashType = tx'.maskedOutputs signed hashType) :
    tx.preimage signed subscript hashType = tx'.preimage signed subscript hashType := by
  by_cases inside : signed < tx.inputs.length
  · have inside' : signed < tx'.inputs.length := by omega
    by_cases here : tx.HasSignedOutput signed hashType
    · have there := has.1 here
      rw [preimage_having subscript inside here, preimage_having subscript inside' there,
        committed_eq_masked subscript here, committed_eq_masked subscript there, version, lockTime,
        inputs, outputs]
    · rw [preimage_lacking subscript inside here, preimage_lacking subscript inside' (mt has.2 here)]
  · have same : tx.inputs.length = tx'.inputs.length := by omega
    rw [preimage_outside subscript hashType (Nat.not_lt.1 inside),
      preimage_outside subscript hashType (same ▸ Nat.not_lt.1 inside), same]

theorem signatureHash_congr (same : tx.preimage signed subscript hashType =
      tx'.preimage signed' subscript' hashType') :
    tx.signatureHash signed subscript hashType = tx'.signatureHash signed' subscript' hashType' := by
  rw [signatureHash, signatureHash, same]

theorem mem_maskedInputs {input : TxInput}
    (member : input ∈ tx.maskedInputs signed subscript hashType) :
    ∃ index original, maskedInput signed subscript hashType index original = input := by
  unfold maskedInputs at member
  split_ifs at member
  · obtain ⟨original, -, masked⟩ := List.mem_map.1 member
    exact ⟨signed, original, masked⟩
  · obtain ⟨index, inside, masked⟩ := List.mem_mapIdx.1 member
    exact ⟨index, tx.inputs[index], masked⟩

/-- Masking makes no count or length larger than that of the transaction or the subscript. -/
theorem fits_committed (fits : tx.Fits) (small : subscript.length < UInt64.size)
    (has : tx.HasSignedOutput signed hashType) :
    (tx.committed signed subscript hashType).Fits := by
  refine ⟨?_, ?_, ?_, ?_⟩
  · rw [inputs_committed, maskedInputs]
    split_ifs
    · cases tx.inputs[signed]? <;> simp
    · rw [List.length_mapIdx]
      exact fits.inputCount
  · rw [outputs_committed subscript has, maskedOutputs]
    split_ifs with none single
    · decide
    · have inside := has single
      have bound := fits.outputCount
      rw [List.getElem?_eq_getElem inside, List.length_append, List.length_replicate]
      exact Nat.lt_of_le_of_lt inside bound
    · exact fits.outputCount
  · intro input member
    rw [inputs_committed] at member
    obtain ⟨index, original, rfl⟩ := mem_maskedInputs member
    change (if index = signed then subscript else []).length < UInt64.size
    split_ifs
    · exact small
    · decide
  · intro output member
    rw [outputs_committed subscript has, maskedOutputs] at member
    split_ifs at member with none single
    · cases member
    · rcases List.mem_append.1 member with member | member
      · rw [List.eq_of_mem_replicate member]
        decide
      · exact fits.outputScript output (List.mem_of_getElem? (Option.mem_toList.1 member))
    · exact fits.outputScript output member

theorem preimage_eq_iff {octets octets' : Bytes} (fits : tx.Fits)
    (small : subscript.length < UInt64.size) (fits' : tx'.Fits)
    (small' : subscript'.length < UInt64.size)
    (some_octets : tx.preimage signed subscript hashType = .ok (some octets))
    (some_octets' : tx'.preimage signed' subscript' hashType' = .ok (some octets')) :
    octets = octets' ↔
      hashType = hashType' ∧ tx.version = tx'.version ∧ tx.lockTime = tx'.lockTime ∧
        tx.maskedInputs signed subscript hashType = tx'.maskedInputs signed' subscript' hashType' ∧
        tx.maskedOutputs signed hashType = tx'.maskedOutputs signed' hashType' := by
  obtain ⟨-, has, rfl⟩ := preimage_eq_some_iff.1 some_octets
  obtain ⟨-, has', rfl⟩ := preimage_eq_some_iff.1 some_octets'
  constructor
  · intro same
    -- A transaction tells where it ends, so the hash type is what both have left over.
    obtain ⟨view, rest⟩ := encode_append_inj (fits_committed fits small has)
      (fits_committed fits' small' has') same
    have types := ((Reader.Reads.u32 hashType).unique (Reader.Reads.u32 hashType')
      (congrArg (· ++ []) rest)).1
    refine ⟨types, ?_, ?_, ?_, ?_⟩
    · rw [← version_committed tx signed subscript hashType, view, version_committed]
    · rw [← lockTime_committed tx signed subscript hashType, view, lockTime_committed]
    · rw [← inputs_committed, view, inputs_committed]
    · rw [← outputs_committed subscript has, view, outputs_committed subscript' has']
  · rintro ⟨rfl, version, lockTime, inputs, outputs⟩
    rw [committed_eq_masked subscript has, committed_eq_masked subscript' has', version, lockTime,
      inputs, outputs]

/-- The hash type stands at the end in full, so no preimage belongs to two of them. -/
theorem hashType_eq_of_preimage {octets : Bytes}
    (some_octets : tx.preimage signed subscript hashType = .ok (some octets))
    (some_octets' : tx'.preimage signed' subscript' hashType' = .ok (some octets)) :
    hashType = hashType' := by
  obtain ⟨-, -, written⟩ := preimage_eq_some_iff.1 some_octets
  obtain ⟨-, -, written'⟩ := preimage_eq_some_iff.1 some_octets'
  have widths : (Wire.u32 hashType).length = (Wire.u32 hashType').length := by
    rw [Wire.length_u32, Wire.length_u32]
  have last := (List.append_inj' (written.symm.trans written') widths).2
  exact ((Reader.Reads.u32 hashType).unique (Reader.Reads.u32 hashType')
    (congrArg (· ++ []) last)).1

theorem maskedInputs_unscripted (tx : Transaction) :
    maskedInputs { tx with inputs := tx.inputs.map unscripted } signed subscript hashType =
      tx.maskedInputs signed subscript hashType := by
  have inPlace : (tx.inputs.map unscripted).mapIdx (maskedInput signed subscript hashType) =
      tx.inputs.mapIdx (maskedInput signed subscript hashType) := by
    rw [List.mapIdx_eq_iff]
    intro index
    rw [List.getElem?_mapIdx, List.getElem?_map, Option.map_map]
    rfl
  unfold maskedInputs
  simp only [inPlace, List.getElem?_map, Option.toList_map, List.map_map]
  rfl

variable {inputs : List TxInput} {outputs : List TxOutput}

theorem signatureHash_of_unscripted (same : inputs.map unscripted = tx.inputs.map unscripted) :
    signatureHash { tx with inputs := inputs } signed subscript hashType =
      tx.signatureHash signed subscript hashType := by
  refine signatureHash_congr (preimage_congr (.inl ?_) Iff.rfl rfl rfl ?_ rfl)
  · simpa using congrArg List.length same
  · rw [← maskedInputs_unscripted, ← maskedInputs_unscripted tx]
    simp only [same]

theorem signatureHash_of_anyoneCanPay {input input' : TxInput}
    (alone : HashType.anyoneCanPay hashType = true) (here : tx.inputs[signed]? = some input)
    (there : inputs[signed]? = some input') (same : unscripted input = unscripted input') :
    signatureHash { tx with inputs := inputs } signed subscript hashType =
      tx.signatureHash signed subscript hashType := by
  obtain ⟨inside, -⟩ := List.getElem?_eq_some_iff.1 here
  obtain ⟨inside', -⟩ := List.getElem?_eq_some_iff.1 there
  refine signatureHash_congr (preimage_congr (.inr ⟨inside', inside⟩) Iff.rfl rfl rfl ?_ rfl)
  rw [← maskedInputs_unscripted, ← maskedInputs_unscripted tx]
  simp only [maskedInputs, if_pos alone, List.getElem?_map, here, there, Option.map_some, same]

theorem signatureHash_of_none (none : HashType.base hashType = HashType.none) :
    signatureHash { tx with outputs := outputs } signed subscript hashType =
      tx.signatureHash signed subscript hashType := by
  have vacuous (tx : Transaction) : tx.HasSignedOutput signed hashType := by
    intro single
    exact absurd (none.symm.trans single) (by decide)
  refine signatureHash_congr (preimage_congr (.inl rfl) ?_ rfl rfl rfl ?_)
  · exact iff_of_true (vacuous _) (vacuous _)
  · rw [maskedOutputs, maskedOutputs, if_pos none, if_pos none]

theorem signatureHash_of_single (single : HashType.base hashType = HashType.single)
    (same : outputs[signed]? = tx.outputs[signed]?) :
    signatureHash { tx with outputs := outputs } signed subscript hashType =
      tx.signatureHash signed subscript hashType := by
  have inside : signed < outputs.length ↔ signed < tx.outputs.length := by
    rw [← Nat.not_le, ← Nat.not_le, ← List.getElem?_eq_none_iff, ← List.getElem?_eq_none_iff, same]
  refine signatureHash_congr (preimage_congr (.inl rfl) ?_ rfl rfl rfl ?_)
  · exact imp_congr_right fun _ => inside
  · simp only [maskedOutputs, same, single, if_true]

/-- A preimage commits to the masked view and to nothing else. Among calls whose counts and lengths fit
    on the wire, equal octets mean equal views. Hence scripts of inputs never matter, other inputs do not
    if the signed one stands alone, outputs do not if none is signed, and only the one in the signed place
    does if one is; and no two hash types share a preimage. -/
theorem preimage_commits_to_view :
    (∀ {tx tx' : Transaction} {signed signed' : Nat} {subscript subscript' : Bytes}
        {hashType hashType' : HashType} {octets octets' : Bytes},
      tx.Fits → subscript.length < UInt64.size → tx'.Fits → subscript'.length < UInt64.size →
      tx.preimage signed subscript hashType = .ok (some octets) →
      tx'.preimage signed' subscript' hashType' = .ok (some octets') →
      (octets = octets' ↔
        hashType = hashType' ∧ tx.version = tx'.version ∧ tx.lockTime = tx'.lockTime ∧
          tx.maskedInputs signed subscript hashType =
            tx'.maskedInputs signed' subscript' hashType' ∧
          tx.maskedOutputs signed hashType = tx'.maskedOutputs signed' hashType')) ∧
    (∀ (tx : Transaction) (inputs : List TxInput) (signed : Nat) (subscript : Bytes)
        (hashType : HashType),
      inputs.map unscripted = tx.inputs.map unscripted →
      signatureHash { tx with inputs := inputs } signed subscript hashType =
        tx.signatureHash signed subscript hashType) ∧
    (∀ (tx : Transaction) (inputs : List TxInput) (signed : Nat) (subscript : Bytes)
        (hashType : HashType) (input input' : TxInput),
      HashType.anyoneCanPay hashType = true → tx.inputs[signed]? = some input →
      inputs[signed]? = some input' → unscripted input = unscripted input' →
      signatureHash { tx with inputs := inputs } signed subscript hashType =
        tx.signatureHash signed subscript hashType) ∧
    (∀ (tx : Transaction) (outputs : List TxOutput) (signed : Nat) (subscript : Bytes)
        (hashType : HashType),
      HashType.base hashType = HashType.none →
      signatureHash { tx with outputs := outputs } signed subscript hashType =
        tx.signatureHash signed subscript hashType) ∧
    (∀ (tx : Transaction) (outputs : List TxOutput) (signed : Nat) (subscript : Bytes)
        (hashType : HashType),
      HashType.base hashType = HashType.single → outputs[signed]? = tx.outputs[signed]? →
      signatureHash { tx with outputs := outputs } signed subscript hashType =
        tx.signatureHash signed subscript hashType) ∧
    (∀ (tx tx' : Transaction) (signed signed' : Nat) (subscript subscript' : Bytes)
        (hashType hashType' : HashType) (octets : Bytes),
      tx.preimage signed subscript hashType = .ok (some octets) →
      tx'.preimage signed' subscript' hashType' = .ok (some octets) → hashType = hashType') := by
  refine ⟨preimage_eq_iff, ?_, ?_, ?_, ?_, ?_⟩
  · intro tx inputs signed subscript hashType
    exact signatureHash_of_unscripted
  · intro tx inputs signed subscript hashType input input'
    exact signatureHash_of_anyoneCanPay
  · intro tx outputs signed subscript hashType
    exact signatureHash_of_none
  · intro tx outputs signed subscript hashType
    exact signatureHash_of_single
  · intro tx tx' signed signed' subscript subscript' hashType hashType' octets
    exact hashType_eq_of_preimage

/-- A transaction that spends one output and pays one amount. -/
def paying (amount : Int64) : Transaction where
  version := 1
  inputs := [TxInput.unsigned (Octets.zero 32) 0]
  outputs := [{ value := amount, script := [] }]
  lockTime := 0

/-- Paying another amount needs another signature. -/
theorem preimage_paying_ne :
    ∃ octets octets', (paying 1).preimage 0 [] HashType.all = .ok (some octets) ∧
      (paying 2).preimage 0 [] HashType.all = .ok (some octets') ∧ octets ≠ octets' := by
  have fits (amount : Int64) : (paying amount).Fits :=
    ⟨by simp [paying], by simp [paying], by simp [paying, TxInput.unsigned], by simp [paying]⟩
  have has (amount : Int64) : (paying amount).HasSignedOutput 0 HashType.all := fun _ => by
    simp [paying]
  have first := preimage_having [] (show 0 < (paying 1).inputs.length by decide) (has 1)
  have second := preimage_having [] (show 0 < (paying 2).inputs.length by decide) (has 2)
  refine ⟨_, _, first, second, fun same => ?_⟩
  have view := (preimage_commits_to_view.1 (fits 1) (by decide) (fits 2) (by decide) first second).1 same
  exact absurd view.2.2.2.2 (by decide)

end Bitcoin.Transaction
