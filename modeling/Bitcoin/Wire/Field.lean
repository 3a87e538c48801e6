import Bitcoin.Transaction.Basic

/-! # Sequences of fields

A field of any kind that the wire knows, its octets, and reading one back when its kind is known.
-/

namespace Bitcoin.Wire

/-- A value of one of the kinds that are written. -/
inductive Field where
  | u8 (value : UInt8)
  | u32 (value : UInt32)
  | u64 (value : UInt64)
  | i64 (value : Int64)
  | varInt (value : UInt64)
  /-- Octets whose number the reader knows. -/
  | octets (value : Bytes)
  /-- Octets after their number. -/
  | varBytes (value : Bytes)
  | input (value : TxInput)
  | output (value : TxOutput)
  deriving DecidableEq

/-- What a reader has to know of a field. -/
inductive FieldKind where
  | u8
  | u32
  | u64
  | i64
  | varInt
  | octets (length : Nat)
  | varBytes
  | input
  | output
  deriving DecidableEq

namespace Field

def kind : Field → FieldKind
  | .u8 _ => .u8
  | .u32 _ => .u32
  | .u64 _ => .u64
  | .i64 _ => .i64
  | .varInt _ => .varInt
  | .octets value => .octets value.length
  | .varBytes _ => .varBytes
  | .input _ => .input
  | .output _ => .output

def encode : Field → Bytes
  | .u8 value => [value]
  | .u32 value => Wire.u32 value
  | .u64 value => Wire.u64 value
  | .i64 value => Wire.i64 value
  | .varInt value => VarInt.encode value
  | .octets value => value
  | .varBytes value => Wire.varBytes value
  | .input value => value.encode
  | .output value => value.encode

/-- Write a field behind what is already written. -/
def write (written : Bytes) (field : Field) : Bytes :=
  written ++ field.encode

end Field

def FieldKind.read : FieldKind → Reader TransactionError Field
  | .u8 => .u8 <$> Reader.u8.onError .primitives
  | .u32 => .u32 <$> Reader.u32.onError .primitives
  | .u64 => .u64 <$> Reader.u64.onError .primitives
  | .i64 => .i64 <$> Reader.i64.onError .primitives
  | .varInt => .varInt <$> VarInt.read.onError .primitives
  | .octets length => .octets <$> (Reader.take length).onError .primitives
  | .varBytes => .varBytes <$> Reader.varBytes.onError .primitives
  | .input => .input <$> TxInput.read
  | .output => .output <$> TxOutput.read

end Bitcoin.Wire
