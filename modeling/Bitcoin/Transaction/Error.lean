import Bitcoin.Error

/-! # Errors of transactions

What can go wrong with a transaction beyond the errors of keys: an input that it does not have, and
octets that are not a transaction.
-/

namespace Bitcoin

/-- A field of a transaction, as reading goes through them. -/
inductive TransactionField where
  | version
  | inputCount
  | previousTxid
  | previousIndex
  | inputScript
  | sequence
  | outputCount
  | outputValue
  | outputScript
  | lockTime
  deriving DecidableEq, Repr

def TransactionField.name : TransactionField → String
  | .version => "version"
  | .inputCount => "input count"
  | .previousTxid => "previous txid"
  | .previousIndex => "previous output index"
  | .inputScript => "input script"
  | .sequence => "sequence"
  | .outputCount => "output count"
  | .outputValue => "output value"
  | .outputScript => "output script"
  | .lockTime => "lock time"

/-- Why octets or a text are not a transaction. -/
inductive WireFault where
  | reading (field : TransactionField) (cause : Error)
  /-- Octets are left behind the transaction. -/
  | trailing (count : Nat)
  | badHex (fault : Hex.Fault)
  deriving DecidableEq

def WireFault.message : WireFault → String
  | .reading field cause => s!"reading {field.name}: {cause.message}"
  | .trailing count => s!"trailing {count} bytes after transaction"
  | .badHex fault => s!"invalid hex: {fault.message}"

inductive TransactionError where
  | inputOutOfRange (index count : Nat)
  | serialization (fault : WireFault)
  | primitives (cause : Error)
  deriving DecidableEq

def TransactionError.message : TransactionError → String
  | .inputOutOfRange index count => s!"input index {index} out of range for {count} inputs"
  | .serialization fault => s!"serialization error: {fault.message}"
  | .primitives cause => s!"primitives error: {cause.message}"

end Bitcoin
