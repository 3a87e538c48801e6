import Bitcoin.Hash.Double
import Bitcoin.Transaction.Error
import Bitcoin.Wire.VarInt

/-! # Transactions

A transaction spends earlier outputs, its inputs, and creates new ones. On the wire come the version,
the inputs after their count, the outputs after their count and the lock time.
-/

namespace Bitcoin

/-- A reference to an earlier output, and the script that unlocks it. -/
structure TxInput where
  previousTxid : Octets 32
  previousIndex : UInt32
  script : Bytes
  sequence : UInt32
  deriving DecidableEq

structure TxOutput where
  value : Int64
  script : Bytes
  deriving DecidableEq

structure Transaction where
  version : UInt32
  inputs : List TxInput
  outputs : List TxOutput
  lockTime : UInt32
  deriving DecidableEq

namespace TxInput

/-- The sequence number of an input that is not to be replaced. -/
def finalSequence : UInt32 := 0xffffffff

def unsigned (previousTxid : Octets 32) (previousIndex : UInt32) : TxInput :=
  { previousTxid := previousTxid, previousIndex := previousIndex, script := []
    sequence := finalSequence }

def encode (input : TxInput) : Bytes :=
  input.previousTxid.toList ++ Wire.u32 input.previousIndex ++ Wire.varBytes input.script
    ++ Wire.u32 input.sequence

end TxInput

namespace TxOutput

/-- The output that stands for one that is not signed. -/
def null : TxOutput := { value := -1, script := [] }

def encode (output : TxOutput) : Bytes :=
  Wire.i64 output.value ++ Wire.varBytes output.script

end TxOutput

/-- Read a field of a transaction, and name it if that fails. -/
def Reader.field {α : Type} (field : TransactionField) (reader : Reader Error α) :
    Reader TransactionError α :=
  reader.onError fun cause => .serialization (.reading field cause)

def TxInput.read : Reader TransactionError TxInput := do
  let previousTxid ← Reader.field .previousTxid (Reader.octets 32)
  let previousIndex ← Reader.field .previousIndex Reader.u32
  let script ← Reader.field .inputScript Reader.varBytes
  let sequence ← Reader.field .sequence Reader.u32
  return { previousTxid, previousIndex, script, sequence }

def TxOutput.read : Reader TransactionError TxOutput := do
  let value ← Reader.field .outputValue Reader.i64
  let script ← Reader.field .outputScript Reader.varBytes
  return { value, script }

namespace Transaction

/-- The transaction of version 1 without inputs and outputs. -/
def empty : Transaction := { version := 1, inputs := [], outputs := [], lockTime := 0 }

instance : Inhabited Transaction := ⟨empty⟩

def encode (tx : Transaction) : Bytes :=
  Wire.u32 tx.version
    ++ Wire.count tx.inputs.length ++ tx.inputs.flatMap TxInput.encode
    ++ Wire.count tx.outputs.length ++ tx.outputs.flatMap TxOutput.encode
    ++ Wire.u32 tx.lockTime

def toHex (tx : Transaction) : String :=
  Hex.encode tx.encode

/-- Read a transaction. A count that is too large fails where the octets end. -/
def read : Reader TransactionError Transaction := do
  let version ← Reader.field .version Reader.u32
  let inputCount ← Reader.field .inputCount VarInt.read
  let inputs ← Reader.many TxInput.read inputCount.toNat
  let outputCount ← Reader.field .outputCount VarInt.read
  let outputs ← Reader.many TxOutput.read outputCount.toNat
  let lockTime ← Reader.field .lockTime Reader.u32
  return { version, inputs, outputs, lockTime }

/-- The transaction that the octets are, with nothing behind it. -/
def decode (octets : Bytes) : Except TransactionError Transaction :=
  match read.run octets with
  | .ok tx [] => .ok tx
  | .ok _ unread => .error (.serialization (.trailing unread.length))
  | .error e _ => .error e

def ofHex (text : String) : Except TransactionError Transaction := do
  decode (← (Hex.decode text).mapError (.serialization ∘ .badHex))

def txid (tx : Transaction) : Octets 32 :=
  Hash.sha256d tx.encode

/-- The identifier as it is shown, last octet first. -/
def txidHex (tx : Transaction) : String :=
  Hex.encode tx.txid.reverse.toList

def addInput (tx : Transaction) (input : TxInput) : Transaction :=
  { tx with inputs := tx.inputs ++ [input] }

def addOutput (tx : Transaction) (output : TxOutput) : Transaction :=
  { tx with outputs := tx.outputs ++ [output] }

def modifyInput (tx : Transaction) (index : Nat) (change : TxInput → TxInput) : Transaction :=
  { tx with inputs := tx.inputs.modify index change }

end Transaction

end Bitcoin
