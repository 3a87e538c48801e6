import Bitcoin.Transaction.SignatureHash
import Mathlib.Data.List.Basic

/-! # The committed view

What the blanked copy of a transaction is, said of each list as a whole and without the steps that lead
there: the inputs and outputs that a signature commits to, with everything masked that it leaves open.
-/

namespace Bitcoin.Transaction

/-- An input of which only the place it spends, the signed script and the signed sequence are kept. -/
def maskedInput (signed : Nat) (subscript : Bytes) (hashType : HashType) (index : Nat)
    (input : TxInput) : TxInput where
  previousTxid := input.previousTxid
  previousIndex := input.previousIndex
  script := if index = signed then subscript else []
  sequence := if index = signed ∨ ¬ HashType.opensSequences hashType then input.sequence else 0

/-- The inputs that a signature commits to. -/
def maskedInputs (tx : Transaction) (signed : Nat) (subscript : Bytes) (hashType : HashType) :
    List TxInput :=
  if HashType.anyoneCanPay hashType then
    tx.inputs[signed]?.toList.map (maskedInput signed subscript hashType signed)
  else tx.inputs.mapIdx (maskedInput signed subscript hashType)

/-- The outputs that a signature commits to. -/
def maskedOutputs (tx : Transaction) (signed : Nat) (hashType : HashType) : List TxOutput :=
  if HashType.base hashType = HashType.none then []
  else if HashType.base hashType = HashType.single then
    List.replicate signed { value := -1, script := [] } ++ tx.outputs[signed]?.toList
  else tx.outputs

/-- The base of the hash type asks for no output that the transaction lacks. -/
def HasSignedOutput (tx : Transaction) (signed : Nat) (hashType : HashType) : Prop :=
  HashType.base hashType = HashType.single → signed < tx.outputs.length

theorem blankedInput_eq_masked (hashType : HashType) (signed : Nat) (subscript : Bytes) :
    blankedInput hashType signed subscript = maskedInput signed subscript hashType := by
  funext index input
  by_cases here : index = signed
  · simp [blankedInput, maskedInput, here]
  · by_cases opens : HashType.opensSequences hashType <;>
      simp [blankedInput, maskedInput, here, opens]

/-- Cutting behind a position and nulling before it leaves one element of the list. -/
theorem mapIdx_take_null {outputs : List TxOutput} {signed : Nat} (inside : signed < outputs.length) :
    ((outputs.take (signed + 1)).mapIdx fun index output =>
        if index < signed then TxOutput.null else output) =
      List.replicate signed TxOutput.null ++ [outputs[signed]] := by
  apply List.ext_getElem
  · simp only [List.length_mapIdx, List.length_take, List.length_append, List.length_replicate,
      List.length_singleton]
    omega
  · intro index here there
    simp only [List.length_append, List.length_replicate, List.length_singleton] at there
    rw [List.getElem_mapIdx, List.getElem_take]
    by_cases before : index < signed
    · simp [before]
    · have last : index = signed := by omega
      subst last
      simp

theorem outputs_blankOutputs {scratch : Transaction} {signed : Nat} {hashType : HashType}
    (has : scratch.HasSignedOutput signed hashType) :
    (scratch.blankOutputs signed hashType).outputs = scratch.maskedOutputs signed hashType := by
  unfold blankOutputs maskedOutputs
  split
  · rfl
  · split
    · have inside := has ‹_›
      simp only [mapIdx_take_null inside, List.getElem?_eq_getElem inside, Option.toList_some]
      rfl
    · rfl

@[simp] theorem inputs_blankOutputs (scratch : Transaction) (signed : Nat) (hashType : HashType) :
    (scratch.blankOutputs signed hashType).inputs = scratch.inputs := by
  unfold blankOutputs
  split
  · rfl
  · split <;> rfl

@[simp] theorem version_committed (tx : Transaction) (signed : Nat) (subscript : Bytes)
    (hashType : HashType) : (tx.committed signed subscript hashType).version = tx.version := by
  simp only [committed, isolateInput, blankOutputs, blankInputs]
  split_ifs <;> rfl

@[simp] theorem lockTime_committed (tx : Transaction) (signed : Nat) (subscript : Bytes)
    (hashType : HashType) : (tx.committed signed subscript hashType).lockTime = tx.lockTime := by
  simp only [committed, isolateInput, blankOutputs, blankInputs]
  split_ifs <;> rfl

theorem inputs_committed (tx : Transaction) (signed : Nat) (subscript : Bytes)
    (hashType : HashType) :
    (tx.committed signed subscript hashType).inputs =
      tx.maskedInputs signed subscript hashType := by
  unfold committed isolateInput maskedInputs
  split
  · simp [blankInputs, blankedInput_eq_masked, List.getElem?_mapIdx, Option.toList_map]
  · simp [blankInputs, blankedInput_eq_masked]

theorem outputs_committed {tx : Transaction} {signed : Nat} (subscript : Bytes)
    {hashType : HashType} (has : tx.HasSignedOutput signed hashType) :
    (tx.committed signed subscript hashType).outputs = tx.maskedOutputs signed hashType := by
  have isolated (scratch : Transaction) :
      (scratch.isolateInput signed hashType).outputs = scratch.outputs := by
    unfold isolateInput
    split <;> rfl
  rw [committed, isolated, outputs_blankOutputs]
  · rfl
  · exact has

/-- The steps that blank the copy lead to the masked lists. -/
theorem committed_eq_masked {tx : Transaction} {signed : Nat} (subscript : Bytes)
    {hashType : HashType} (has : tx.HasSignedOutput signed hashType) :
    tx.committed signed subscript hashType =
      { version := tx.version
        inputs := tx.maskedInputs signed subscript hashType
        outputs := tx.maskedOutputs signed hashType
        lockTime := tx.lockTime } := by
  rw [← inputs_committed, ← outputs_committed subscript has, ← version_committed tx signed subscript
    hashType, ← lockTime_committed tx signed subscript hashType]

theorem preimage_outside {tx : Transaction} {signed : Nat} (subscript : Bytes) (hashType : HashType)
    (outside : tx.inputs.length ≤ signed) :
    tx.preimage signed subscript hashType =
      .error (.inputOutOfRange signed tx.inputs.length) := by
  rw [preimage, if_pos outside]

theorem preimage_lacking {tx : Transaction} {signed : Nat} (subscript : Bytes) {hashType : HashType}
    (inside : signed < tx.inputs.length) (lacks : ¬ tx.HasSignedOutput signed hashType) :
    tx.preimage signed subscript hashType = .ok none := by
  obtain ⟨single, short⟩ := Classical.not_imp.1 lacks
  rw [preimage, if_neg (Nat.not_le.2 inside), if_pos ⟨single, Nat.not_lt.1 short⟩]

theorem preimage_having {tx : Transaction} {signed : Nat} (subscript : Bytes) {hashType : HashType}
    (inside : signed < tx.inputs.length) (has : tx.HasSignedOutput signed hashType) :
    tx.preimage signed subscript hashType =
      .ok (some ((tx.committed signed subscript hashType).encode ++ Wire.u32 hashType)) := by
  rw [preimage, if_neg (Nat.not_le.2 inside), if_neg]
  rintro ⟨single, short⟩
  exact Nat.not_lt.2 short (has single)

/-- There is a preimage exactly when there is the input to sign and the output that the hash type asks
    for, and then it is the view and the hash type. -/
theorem preimage_eq_some_iff {tx : Transaction} {signed : Nat} {subscript : Bytes}
    {hashType : HashType} {octets : Bytes} :
    tx.preimage signed subscript hashType = .ok (some octets) ↔
      signed < tx.inputs.length ∧ tx.HasSignedOutput signed hashType ∧
        octets = (tx.committed signed subscript hashType).encode ++ Wire.u32 hashType := by
  by_cases inside : signed < tx.inputs.length
  · by_cases has : tx.HasSignedOutput signed hashType
    · rw [preimage_having subscript inside has]
      constructor
      · rintro same
        cases same
        exact ⟨inside, has, rfl⟩
      · rintro ⟨-, -, rfl⟩
        rfl
    · simp [preimage_lacking subscript inside has, has]
  · simp [preimage_outside subscript hashType (Nat.not_lt.1 inside), inside]

end Bitcoin.Transaction
