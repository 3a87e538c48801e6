import Bitcoin.Error

/-! # Reading from octets

A reader takes octets from the front of what is still unread. Reading a single field takes nothing when
it fails; a reader made of several fields has by then taken the fields before the one that failed.
-/

namespace Bitcoin

/-- A step of reading: the state is what is still unread, and failing keeps it. -/
abbrev Reader (ε α : Type) := EStateM ε Bytes α

namespace Reader

/-- Take `n` octets, or none if fewer are left. -/
def take (n : Nat) : Reader Error Bytes := fun unread =>
  if n ≤ unread.length then .ok (unread.take n) (unread.drop n) else .error .unexpectedEnd unread

/-- Take exactly `n` octets as a string of that length. -/
def octets (n : Nat) : Reader Error (Octets n) := fun unread =>
  if h : n ≤ unread.length then .ok ⟨unread.take n, by simp [h]⟩ (unread.drop n)
  else .error .unexpectedEnd unread

def u8 : Reader Error UInt8 := do
  return UInt8.ofNat (← octets 1).toNatLE

/-- A word of 16 bits, low octet first. -/
def u16 : Reader Error UInt16 := do
  return UInt16.ofNat (← octets 2).toNatLE

def u32 : Reader Error UInt32 := do
  return UInt32.ofNat (← octets 4).toNatLE

def u64 : Reader Error UInt64 := do
  return UInt64.ofNat (← octets 8).toNatLE

/-- A signed word of 64 bits in two's complement, low octet first. -/
def i64 : Reader Error Int64 := do
  return (← u64).toInt64

def many {ε α : Type} (item : Reader ε α) : Nat → Reader ε (List α)
  | 0 => pure []
  | count + 1 => do
      let head ← item
      let tail ← many item count
      return head :: tail

/-- Read with another account of what went wrong. -/
def onError {ε ε' α : Type} (f : ε → ε') (reader : Reader ε α) : Reader ε' α :=
  EStateM.adaptExcept f reader

end Reader

end Bitcoin
