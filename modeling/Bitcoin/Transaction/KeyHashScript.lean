import Bitcoin.KeyPair.Signing
import Bitcoin.Transaction.SignatureHash

/-! # Paying to the hash of a public key

The locking script of an output holds the hash of a public key; the script that unlocks it pushes a
signature with its hash type, and the public key.
-/

namespace Bitcoin

/-- The locking script of a key hash: duplicate, hash, compare with the key hash, check a signature. -/
def lockingScript (keyHash : Octets 20) : Bytes :=
  [0x76, 0xa9, 0x14] ++ keyHash.toList ++ [0x88, 0xac]

/-- The key hash in a locking script of exactly this form. -/
def lockedKeyHash? (script : Bytes) : Option (Octets 20) :=
  if script.take 3 = [0x76, 0xa9, 0x14] ∧ script.drop 23 = [0x88, 0xac] then
    Octets.ofList? 20 ((script.drop 3).take 20)
  else none

/-- Push data of fewer than 76 octets: its length and itself. -/
def pushData (data : Bytes) : Bytes :=
  UInt8.ofNat data.length :: data

/-- Unlocks outputs that are locked with the hash of a pair's public key. -/
structure KeyHashUnlocker where
  key : KeyPair
  hashType : HashType
  deriving DecidableEq

namespace KeyHashUnlocker

/-- The unlocker of a pair; without a hash type it commits to everything. -/
def ofKey (key : KeyPair) (hashType : Option HashType) : KeyHashUnlocker :=
  { key := key, hashType := hashType.getD HashType.all }

/-- The script that this unlocks. -/
def locking (unlocker : KeyHashUnlocker) : Bytes :=
  lockingScript unlocker.key.keyHash

/-- The script that unlocks an input. Of the hash type only the low octet goes with the signature. -/
def unlockingScript (unlocker : KeyHashUnlocker) (tx : Transaction) (index : Nat) :
    Except TransactionError Bytes := do
  let hash ← tx.signatureHash index unlocker.locking unlocker.hashType
  let signature ←
    (unlocker.key.signWithHashType hash unlocker.hashType.toUInt8).mapError .primitives
  return pushData signature ++ pushData unlocker.key.publicKey

/-- The greatest length of an unlocking script. -/
def estimateLength (unlocker : KeyHashUnlocker) : Nat :=
  1 + 73 + 1 + if unlocker.key.compressed then 33 else 65

end KeyHashUnlocker

namespace Transaction

/-- Unlock an input of the transaction at hand. Nothing is written before there is a script and the input. -/
def unlockInput (index : Nat) (unlocker : KeyHashUnlocker) :
    EStateM TransactionError Transaction Unit := do
  let tx ← get
  let script ← MonadExcept.ofExcept (unlocker.unlockingScript tx index)
  if index < tx.inputs.length then
    set (tx.modifyInput index fun input => { input with script := script })
  else throw (.inputOutOfRange index tx.inputs.length)

/-- The transaction with one input unlocked. -/
def signInput (tx : Transaction) (index : Nat) (unlocker : KeyHashUnlocker) :
    Except TransactionError Transaction :=
  match (unlockInput index unlocker).run tx with
  | .ok _ unlocked => .ok unlocked
  | .error e _ => .error e

end Transaction

end Bitcoin
