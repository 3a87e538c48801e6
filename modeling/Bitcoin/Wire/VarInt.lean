import Bitcoin.Wire.Reader

/-! # Lengths and counts on the wire

A number of up to 64 bits takes one octet if it is below 253; otherwise an octet tells whether two, four
or eight octets follow. Writing uses the shortest form and reading takes any. Octet strings of unknown
length are written after their length.
-/

namespace Bitcoin

namespace Wire

/-- The octets of a word of 16 bits, low octet first. -/
def u16 (value : UInt16) : Bytes :=
  (Octets.ofNatLE 2 value.toNat).toList

def u32 (value : UInt32) : Bytes :=
  (Octets.ofNatLE 4 value.toNat).toList

def u64 (value : UInt64) : Bytes :=
  (Octets.ofNatLE 8 value.toNat).toList

/-- The octets of a signed word of 64 bits in two's complement, low octet first. -/
def i64 (value : Int64) : Bytes :=
  u64 value.toUInt64

end Wire

namespace VarInt

/-- How many octets the shortest form of a number has. -/
def length (value : UInt64) : Nat :=
  if value ≤ 0xfc then 1
  else if value ≤ 0xffff then 3
  else if value ≤ 0xffffffff then 5
  else 9

/-- The form of that length. -/
def encode (value : UInt64) : Bytes :=
  match length value with
  | 1 => [value.toUInt8]
  | 3 => 0xfd :: Wire.u16 value.toUInt16
  | 5 => 0xfe :: Wire.u32 value.toUInt32
  | _ => 0xff :: Wire.u64 value

/-- Read any of the four forms. -/
def read : Reader Error UInt64 := do
  let first ← Reader.u8
  if first = 0xff then Reader.u64
  else if first = 0xfe then return (← Reader.u32).toUInt64
  else if first = 0xfd then return (← Reader.u16).toUInt64
  else return first.toUInt64

/-- The number at the front of octets, and how many octets it takes. -/
def decode (bs : Bytes) : Result (UInt64 × Nat) :=
  match read.run bs with
  | .ok value unread => .ok (value, bs.length - unread.length)
  | .error e _ => .error e

end VarInt

namespace Wire

def count (n : Nat) : Bytes :=
  VarInt.encode (UInt64.ofNat n)

def varBytes (bs : Bytes) : Bytes :=
  count bs.length ++ bs

end Wire

def Reader.varBytes : Reader Error Bytes := do
  let length ← VarInt.read
  Reader.take length.toNat

end Bitcoin
