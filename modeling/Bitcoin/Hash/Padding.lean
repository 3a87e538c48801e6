import Bitcoin.Bytes

/-! # Padding of hashed messages

A message is followed by one set bit, zeros, and its length, so that whole blocks result.
-/

namespace Bitcoin.Hash

/-- How many zero octets stand between the marker octet and the length field. -/
def paddingZeros (blockSize lengthSize messageSize : Nat) : Nat :=
  let used := (messageSize + 1 + lengthSize) % blockSize
  (blockSize - used) % blockSize

/-- A message followed by the octet `0x80`, zeros and the length field, so that the whole is a
    multiple of the block size. -/
def pad (blockSize : Nat) (lengthField message : Bytes) : Bytes :=
  message ++ 0x80 :: List.replicate (paddingZeros blockSize lengthField.length message.length) 0
    ++ lengthField

end Bitcoin.Hash
