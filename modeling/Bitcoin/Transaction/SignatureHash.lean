import Bitcoin.Transaction.Basic

/-! # Signature hashes

What a signature of an input commits to: the transaction with other scripts emptied and, according to
the hash type, with other inputs or outputs left out, followed by the hash type itself.
-/

namespace Bitcoin

/-- Which parts of a transaction a signature commits to. The low five bits choose the outputs, one more
    bit restricts the inputs, and the others have no meaning but are signed. -/
abbrev HashType := UInt32

namespace HashType

def all : HashType := 1

def none : HashType := 2

/-- Commit to the output at the index of the signed input. -/
def single : HashType := 3

def base (hashType : HashType) : HashType :=
  hashType &&& 0x1f

/-- Whether a signature commits to no input but the signed one. -/
def anyoneCanPay (hashType : HashType) : Bool :=
  hashType &&& 0x80 ≠ 0

/-- Whether a signature leaves the sequence numbers of other inputs open, as it does when it does not
    commit to all outputs. -/
def opensSequences (hashType : HashType) : Bool :=
  base hashType = none ∨ base hashType = single

end HashType

namespace Transaction

/-- An input of the copy: the signed one gets the subscript, any other loses its script and perhaps
    its sequence number. -/
def blankedInput (hashType : HashType) (signed : Nat) (subscript : Bytes) (index : Nat)
    (input : TxInput) : TxInput :=
  if index = signed then { input with script := subscript }
  else
    { input with
      script := []
      sequence := if HashType.opensSequences hashType then 0 else input.sequence }

/-- Go through the inputs of the copy, which are all still there. -/
def blankInputs (scratch : Transaction) (signed : Nat) (subscript : Bytes) (hashType : HashType) :
    Transaction :=
  { scratch with inputs := scratch.inputs.mapIdx (blankedInput hashType signed subscript) }

/-- Leave out the outputs that are not signed. If only one is signed, those before it keep their place
    and nothing else. -/
def blankOutputs (scratch : Transaction) (signed : Nat) (hashType : HashType) : Transaction :=
  if HashType.base hashType = HashType.none then { scratch with outputs := [] }
  else if HashType.base hashType = HashType.single then
    { scratch with
      outputs := (scratch.outputs.take (signed + 1)).mapIdx fun index output =>
        if index < signed then TxOutput.null else output }
  else scratch

/-- Leave out all inputs but the signed one, if the hash type says so. -/
def isolateInput (scratch : Transaction) (signed : Nat) (hashType : HashType) : Transaction :=
  if HashType.anyoneCanPay hashType then { scratch with inputs := scratch.inputs[signed]?.toList }
  else scratch

/-- What a signature of the input at `signed` commits to: a copy of the transaction, blanked step by
    step. -/
def committed (tx : Transaction) (signed : Nat) (subscript : Bytes) (hashType : HashType) :
    Transaction :=
  ((tx.blankInputs signed subscript hashType).blankOutputs signed hashType).isolateInput signed
    hashType

/-- The octets that a signature of an input hashes. There are none if a single output is to be signed
    that the transaction does not have. -/
def preimage (tx : Transaction) (signed : Nat) (subscript : Bytes) (hashType : HashType) :
    Except TransactionError (Option Bytes) :=
  if tx.inputs.length ≤ signed then .error (.inputOutOfRange signed tx.inputs.length)
  else if HashType.base hashType = HashType.single ∧ tx.outputs.length ≤ signed then .ok none
  else .ok (some ((tx.committed signed subscript hashType).encode ++ Wire.u32 hashType))

/-- The hash that is signed when there are no octets to hash: the number one, low octet first. -/
def hashWithoutOutput : Octets 32 :=
  Octets.ofNatLE 32 1

/-- The hash that a signature of an input signs. -/
def signatureHash (tx : Transaction) (signed : Nat) (subscript : Bytes) (hashType : HashType) :
    Except TransactionError (Octets 32) := do
  match ← tx.preimage signed subscript hashType with
  | some octets => return Hash.sha256d octets
  | none => return hashWithoutOutput

end Transaction

end Bitcoin
