import Bitcoin.Hash.Hmac
import Bitcoin.KeyPair
import Bitcoin.KeyTree.ChildNumber

/-! # Nodes of a key tree

A node is a key pair with a chain code and its place in the tree. A cleared node keeps its public point
and its place, but neither secret nor chain code.
-/

namespace Bitcoin

/-- A key pair, the code that its children are derived with, and its place in the tree. -/
structure KeyNode where
  key : KeyPair
  chainCode : Octets 32
  depth : UInt8
  parentFingerprint : UInt32
  child : ChildNumber
  network : Network
  cleared : Bool
  deriving DecidableEq

namespace KeyNode

/-- The key of the hash that turns a seed into a master node. -/
def masterKey : Bytes :=
  "Bitcoin seed".toList.map fun c => UInt8.ofNat c.toNat

def masterChild : ChildNumber :=
  ChildNumber.ofWire 0

/-- The master node of a seed: half of the hash is the secret and half is the chain code. -/
def ofSeed (seed : Bytes) (network : Network) : Result KeyNode := do
  let hash : Octets (32 + 32) := Hash.hmacSha512 masterKey seed
  let key ← KeyPair.ofSecret hash.left.toList
  return { key := key, chainCode := hash.right, depth := 0, parentFingerprint := 0,
           child := masterChild, network := network, cleared := false }

def isPrivate (node : KeyNode) : Bool :=
  node.key.hasSecret

def identifier (node : KeyNode) : Octets 20 :=
  node.key.compressedKeyHash

/-- The first four octets of the identifier, as a word. -/
def fingerprint (node : KeyNode) : UInt32 :=
  UInt32.ofNat (Bytes.toNat (node.identifier.toList.take 4))

def publicOnly (node : KeyNode) : KeyNode :=
  { node with key := node.key.publicOnly }

/-- Forget the secret and the chain code. -/
def clear (node : KeyNode) : KeyNode :=
  { node with key := node.key.clear, chainCode := Octets.zero 32, cleared := true }

/-- The comparison of nodes: of their places in the tree, of their chain codes, of whether they are cleared,
    and of their pairs. -/
def agrees (a b : KeyNode) : Bool :=
  a.network == b.network && a.depth == b.depth && a.parentFingerprint == b.parentFingerprint
    && a.child.index == b.child.index && a.child.hardened == b.child.hardened
    && a.chainCode == b.chainCode && a.cleared == b.cleared && a.key.agrees b.key

def requireLive (node : KeyNode) : Result Unit :=
  if node.cleared then .error .cleared else .ok ()

end KeyNode

end Bitcoin
