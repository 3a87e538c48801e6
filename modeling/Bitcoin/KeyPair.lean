import Bitcoin.Curve.Encoding
import Bitcoin.Network
import Bitcoin.Text.Base58Check

/-! # Key pairs

A point that is not infinity, with or without the secret that it is a multiple of the generator by. The
pair also remembers in which form its point is written, since the address hangs on that form.
-/

namespace Bitcoin

/-- A public point, perhaps its secret, and the form in which the point is written. -/
structure KeyPair where
  secret : Option Scalar
  point : Point
  compressed : Bool
  deriving DecidableEq

namespace KeyPair

def ofScalar (secret : Scalar) : Result KeyPair :=
  if secret = 0 then .error (.invalidKey .zeroSecret)
  else .ok { secret := some secret, point := Point.generator.multiply secret, compressed := true }

def ofSecret (octets : Bytes) : Result KeyPair := do
  ofScalar (← Scalar.ofBytes octets)

/-- The pair of a point alone, which must not be infinity. -/
def ofPoint (point : Point) : Result KeyPair :=
  if point = .infinity then .error (.invalidKey .infinityKey)
  else .ok { secret := none, point := point, compressed := true }

/-- The pair of an encoded point alone, to be written in the form it came in. -/
def ofPublicKey (octets : Bytes) : Result KeyPair := do
  return { secret := none, point := (← Point.decode octets), compressed := octets.length = 33 }

def publicOnly (key : KeyPair) : KeyPair :=
  { key with secret := none }

def clear (key : KeyPair) : KeyPair :=
  { key with secret := none }

/-- The pair with its point to be written in the given form. -/
def withCompressed (key : KeyPair) (compressed : Bool) : KeyPair :=
  { key with compressed := compressed }

def hasSecret (key : KeyPair) : Bool :=
  key.secret.isSome

/-- The secret, which not every pair has. -/
def requireSecret (key : KeyPair) : Result Scalar :=
  match key.secret with
  | some secret => .ok secret
  | none => .error .noSecretKey

/-- The encoding of the point in a form of the caller's choice; infinity would have none. -/
def encodePoint (key : KeyPair) (compressed : Bool) : Bytes :=
  match key.point.encode compressed with
  | .ok octets => octets
  | .error _ => []

/-- The encoding of the point in the form of the pair. -/
def publicKey (key : KeyPair) : Bytes :=
  key.encodePoint key.compressed

def compressedKey (key : KeyPair) : Bytes :=
  key.encodePoint true

def uncompressedKey (key : KeyPair) : Bytes :=
  key.encodePoint false

/-- The hash of the public key that addresses and locking scripts hold. -/
def keyHash (key : KeyPair) : Octets 20 :=
  Hash.hash160 key.publicKey

def compressedKeyHash (key : KeyPair) : Octets 20 :=
  Hash.hash160 key.compressedKey

def uncompressedKeyHash (key : KeyPair) : Octets 20 :=
  Hash.hash160 key.uncompressedKey

def address (key : KeyPair) (network : Network) : String :=
  Base58Check.encode (network.addressVersion :: key.keyHash.toList)

/-- The point that the secret of one pair and the point of another share. -/
def diffieHellman (key other : KeyPair) : Result KeyPair := do
  ofPoint (other.point.multiply (← key.requireSecret))

/-- The comparison of pairs: of their points, of the forms that these are written in, and of their secrets. -/
def agrees (key other : KeyPair) : Bool :=
  key.point == other.point && key.compressed == other.compressed && key.secret == other.secret

/-- A pair among other values: never its secret. -/
def describe (key : KeyPair) : String :=
  "KeyPair \x7b public: " ++ Quoted.text (Hex.encode key.publicKey)
    ++ s!", has_secret: {key.hasSecret}, compressed: {key.compressed}" ++ " \x7d"

end KeyPair

end Bitcoin
