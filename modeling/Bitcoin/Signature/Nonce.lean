import Bitcoin.Curve.Scalar
import Bitcoin.Hash.Hmac

/-! # Deterministic nonces

The secret and the hash to be signed seed a generator of octets made of keyed hashes; the nonce is its
first draw that is a scalar other than zero. The hash enters as it is, not reduced modulo the group
order.
-/

namespace Bitcoin.Nonce

/-- The generator: a key, and the value that it hashed last. -/
structure State where
  key : Octets 32
  value : Octets 32

/-- Mix a marker and a seed into the generator. -/
def State.mix (state : State) (marker : UInt8) (seed : Bytes) : State :=
  let key := Hash.hmacSha256 state.key.toList (state.value.toList ++ marker :: seed)
  { key := key, value := Hash.hmacSha256 key.toList state.value.toList }

/-- The generator that a secret and a hash seed. -/
def start (secret : Scalar) (hash : Octets 32) : State :=
  let seed := secret.toOctets.toList ++ hash.toList
  let blank : State :=
    { key := Octets.zero 32, value := ⟨List.replicate 32 1, List.length_replicate⟩ }
  (blank.mix 0 seed).mix 1 seed

/-- The next draw, as the generator's new value. -/
def State.draw (state : State) : State :=
  { state with value := Hash.hmacSha256 state.key.toList state.value.toList }

/-- The first draw among `tries` that is a scalar other than zero. -/
def search : Nat → State → Option Scalar
  | 0, _ => none
  | tries + 1, state =>
      let drawn := state.draw
      if h : drawn.value.toNat < groupOrder then
        if drawn.value.toNat = 0 then search tries (drawn.mix 0 [])
        else some ⟨drawn.value.toNat, h⟩
      else search tries (drawn.mix 0 [])

/-- How many draws are tried. A draw fails with a probability of less than `2 ^ (-127)`. -/
def maxTries : Nat := 256

/-- The nonce for signing a hash with a secret, unless no draw that is tried is one. -/
def derive? (secret : Scalar) (hash : Octets 32) : Option Scalar :=
  search maxTries (start secret hash)

end Bitcoin.Nonce
