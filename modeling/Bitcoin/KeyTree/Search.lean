import Bitcoin.KeyTree.Derivation

/-! # Searching for a child

Children are derived one after another until one has the wanted point or key hash.
-/

namespace Bitcoin

inductive SearchTarget where
  | publicPoint (point : Point)
  /-- The hash of either form of the public key. -/
  | keyHash (hash : Octets 20)
  deriving DecidableEq

namespace SearchTarget

/-- The key hash in an address of either network. -/
def ofAddress (address : String) : Result SearchTarget := do
  match ← Base58Check.decode address with
  | [] => throw (.invalidBase58 (.addressLength 0))
  | version :: hash =>
      match Octets.ofList? 20 hash with
      | none => throw (.invalidBase58 (.addressLength (hash.length + 1)))
      | some hash =>
          if (Network.ofAddressVersion? version).isNone then
            throw (.invalidBase58 (.addressVersion version))
          return .keyHash hash

def isMetBy (target : SearchTarget) (key : KeyPair) : Bool :=
  match target with
  | .publicPoint point => key.point = point
  | .keyHash hash => key.compressedKeyHash = hash ∨ key.uncompressedKeyHash = hash

end SearchTarget

namespace KeyNode

/-- The first of at most `tries` children from `index` on that meets the target. Indices without a child
    are passed over; the search ends with the last index or with any other error. -/
def search (node : KeyNode) (target : SearchTarget) (hardened : Bool) :
    Nat → Nat → Result (Option KeyNode)
  | 0, _ => .ok none
  | tries + 1, index =>
      if 0x80000000 ≤ index then .ok none
      else match node.derive (UInt32.ofNat index) hardened with
        | .ok child =>
            if target.isMetBy child.key then .ok (some child)
            else node.search target hardened tries (index + 1)
        | .error e =>
            if e.isRetryable then node.search target hardened tries (index + 1) else .error e

/-- The first child from `start` on, among `limit` indices, that meets the target. -/
def find (node : KeyNode) (target : SearchTarget) (start : UInt32) (hardened : Bool)
    (limit : UInt32) : Result KeyNode := do
  match ← node.search target hardened limit.toNat start.toNat with
  | some child => return child
  | none => throw (.keyNotFound limit)

end KeyNode

end Bitcoin
