import Bitcoin.Proofs.SignatureHash.View

/-! # Signature hashes without a copy

The octets of a preimage can be written one after another while going through the transaction once,
with no second transaction at any point. The main statement is that blanking a copy and writing it out
gives the same octets, the same failures and the same hash.
-/

namespace Bitcoin.SignatureStream

/-- The octets of the input at `index`: the output that it spends, a script and a sequence number. -/
def inputOctets (hashType : HashType) (signed : Nat) (subscript : Bytes) (index : Nat)
    (input : TxInput) : Bytes :=
  input.previousTxid.toList ++ Wire.u32 input.previousIndex ++
    if index = signed then Wire.varBytes subscript ++ Wire.u32 input.sequence
    else if hashType &&& 0x1f = 2 ∨ hashType &&& 0x1f = 3 then Wire.varBytes [] ++ Wire.u32 0
    else Wire.varBytes [] ++ Wire.u32 input.sequence

/-- The octets of several inputs, the first of which is the one at `index`. -/
def inputsFrom (hashType : HashType) (signed : Nat) (subscript : Bytes) :
    Nat → List TxInput → Bytes
  | _, [] => []
  | index, input :: rest =>
      inputOctets hashType signed subscript index input ++
        inputsFrom hashType signed subscript (index + 1) rest

/-- The inputs after their count: the signed one alone, or all of them. -/
def inputs (tx : Transaction) (signed : Nat) (subscript : Bytes) (hashType : HashType) : Bytes :=
  if hashType &&& 0x80 ≠ 0 then
    Wire.count 1 ++ tx.inputs[signed]?.elim [] (inputOctets hashType signed subscript signed)
  else Wire.count tx.inputs.length ++ inputsFrom hashType signed subscript 0 tx.inputs

/-- The octets of an output of value -1 without a script. -/
def nullOctets : Bytes :=
  List.replicate 8 0xff ++ [0]

/-- The outputs after their count: none, the signed one in its place, or all of them. -/
def outputs (tx : Transaction) (signed : Nat) (hashType : HashType) : Bytes :=
  if hashType &&& 0x1f = 2 then Wire.count 0
  else if hashType &&& 0x1f = 3 then
    Wire.count (signed + 1) ++ (List.replicate signed nullOctets).flatten ++
      tx.outputs[signed]?.elim [] TxOutput.encode
  else Wire.count tx.outputs.length ++ tx.outputs.flatMap TxOutput.encode

/-- The octets to hash, or why there are none. -/
def preimage (tx : Transaction) (signed : Nat) (subscript : Bytes) (hashType : HashType) :
    Except TransactionError (Option Bytes) :=
  if tx.inputs.length ≤ signed then .error (.inputOutOfRange signed tx.inputs.length)
  else if hashType &&& 0x1f = 3 ∧ tx.outputs.length ≤ signed then .ok none
  else .ok (some (Wire.u32 tx.version ++ inputs tx signed subscript hashType ++
    outputs tx signed hashType ++ Wire.u32 tx.lockTime ++ Wire.u32 hashType))

/-- The hash of the octets. Without any it is an octet 1 and 31 octets 0. -/
def digest : Option Bytes → Octets 32
  | some octets => Hash.sha256d octets
  | none => ⟨1 :: List.replicate 31 0, rfl⟩

variable (hashType : HashType) (signed : Nat) (subscript : Bytes)

theorem encode_maskedInput (index : Nat) (input : TxInput) :
    (Transaction.maskedInput signed subscript hashType index input).encode =
      inputOctets hashType signed subscript index input := by
  have opens : HashType.opensSequences hashType = true ↔
      (hashType &&& 0x1f = 2 ∨ hashType &&& 0x1f = 3) :=
    decide_eq_true_iff
  unfold Transaction.maskedInput TxInput.encode inputOctets
  by_cases here : index = signed
  · simp only [here, true_or, if_true, List.append_assoc]
  · by_cases loose : HashType.opensSequences hashType = true
    · simp only [here, loose, opens.1 loose, not_true_eq_false, or_self, if_false, if_true,
        List.append_assoc]
    · simp only [here, loose, mt opens.2 loose, if_false, List.append_assoc]
      rfl

/-- Masking every input in its place and writing the list is writing from the first place on. -/
theorem flatMap_encode_masked (start : Nat) (rest : List TxInput) :
    (rest.mapIdx fun index =>
        Transaction.maskedInput signed subscript hashType (start + index)).flatMap TxInput.encode =
      inputsFrom hashType signed subscript start rest := by
  induction rest generalizing start with
  | nil => rfl
  | cons input rest ih =>
      have next : (fun index => Transaction.maskedInput signed subscript hashType
            (start + (index + 1))) =
          fun index => Transaction.maskedInput signed subscript hashType (start + 1 + index) := by
        funext index
        rw [Nat.add_right_comm, Nat.add_assoc]
      rw [List.mapIdx_cons, List.flatMap_cons, inputsFrom, Nat.add_zero, encode_maskedInput, next,
        ih (start + 1)]

variable {signed} (tx : Transaction)

theorem encode_maskedInputs (inside : signed < tx.inputs.length) :
    Wire.count (tx.maskedInputs signed subscript hashType).length ++
        (tx.maskedInputs signed subscript hashType).flatMap TxInput.encode =
      inputs tx signed subscript hashType := by
  have alone : HashType.anyoneCanPay hashType = true ↔ hashType &&& 0x80 ≠ 0 :=
    decide_eq_true_iff
  unfold Transaction.maskedInputs inputs
  by_cases h : HashType.anyoneCanPay hashType = true
  · rw [if_pos h, if_pos (alone.1 h), List.getElem?_eq_getElem inside]
    simp [encode_maskedInput]
  · have all := flatMap_encode_masked hashType signed subscript 0 tx.inputs
    simp only [Nat.zero_add] at all
    rw [if_neg h, if_neg (mt alone.2 h), all, List.length_mapIdx]

theorem encode_null : TxOutput.encode { value := -1, script := [] } = nullOctets := by
  decide

theorem encode_maskedOutputs (has : tx.HasSignedOutput signed hashType) :
    Wire.count (tx.maskedOutputs signed hashType).length ++
        (tx.maskedOutputs signed hashType).flatMap TxOutput.encode =
      outputs tx signed hashType := by
  unfold Transaction.maskedOutputs outputs
  by_cases none : hashType &&& 0x1f = 2
  · rw [if_pos none, if_pos (show HashType.base hashType = HashType.none from none)]
    rfl
  · rw [if_neg none, if_neg (show ¬ HashType.base hashType = HashType.none from none)]
    by_cases single : hashType &&& 0x1f = 3
    · have inside := has single
      rw [if_pos single, if_pos (show HashType.base hashType = HashType.single from single),
        List.getElem?_eq_getElem inside]
      simp [encode_null, List.flatMap_append, List.flatMap_replicate]
    · rw [if_neg single, if_neg (show ¬ HashType.base hashType = HashType.single from single)]

theorem encode_committed (inside : signed < tx.inputs.length)
    (has : tx.HasSignedOutput signed hashType) :
    (tx.committed signed subscript hashType).encode =
      Wire.u32 tx.version ++ inputs tx signed subscript hashType ++ outputs tx signed hashType ++
        Wire.u32 tx.lockTime := by
  rw [Transaction.committed_eq_masked subscript has, ← encode_maskedInputs hashType subscript tx inside,
    ← encode_maskedOutputs hashType tx has]
  simp only [Transaction.encode, List.append_assoc]

theorem hashWithoutOutput_eq : Transaction.hashWithoutOutput = digest none := by
  decide

/-- Blanking a copy and writing it out, and writing straight from the transaction, are one function:
    they fail alike, find alike that there is nothing to hash, and hash the same octets. -/
theorem preimage_eq_stream (tx : Transaction) (signed : Nat) (subscript : Bytes)
    (hashType : HashType) :
    tx.preimage signed subscript hashType = preimage tx signed subscript hashType ∧
      tx.signatureHash signed subscript hashType =
        (preimage tx signed subscript hashType).map digest := by
  have same : tx.preimage signed subscript hashType = preimage tx signed subscript hashType := by
    unfold preimage
    by_cases outside : tx.inputs.length ≤ signed
    · rw [Transaction.preimage_outside subscript hashType outside, if_pos outside]
    · rw [if_neg outside]
      by_cases missing : hashType &&& 0x1f = 3 ∧ tx.outputs.length ≤ signed
      · have lacks : ¬ tx.HasSignedOutput signed hashType := fun has =>
          Nat.not_lt.2 missing.2 (has missing.1)
        rw [if_pos missing, Transaction.preimage_lacking subscript (Nat.not_le.1 outside) lacks]
      · have has : tx.HasSignedOutput signed hashType := by
          intro single
          by_contra short
          exact missing ⟨single, Nat.not_lt.1 short⟩
        rw [if_neg missing, Transaction.preimage_having subscript (Nat.not_le.1 outside) has,
          encode_committed hashType subscript tx (Nat.not_le.1 outside) has]
  refine ⟨same, ?_⟩
  rw [Transaction.signatureHash, same]
  cases preimage tx signed subscript hashType with
  | error e => rfl
  | ok octets =>
      cases octets with
      | none => exact congrArg Except.ok hashWithoutOutput_eq
      | some octets => rfl

end Bitcoin.SignatureStream
