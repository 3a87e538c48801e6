import Bitcoin.KeyTree.Node
import Bitcoin.KeyTree.Path

/-! # Derivation of children

A keyed hash of the parent's key and the child number gives a factor, which is added to the parent's
secret or, times the generator, to its point, and the child's chain code. A node without a secret has
the same children as one with it, except hardened ones.
-/

namespace Bitcoin.KeyNode

/-- What is hashed for a child: the secret or the public key, and the child number. -/
def childSeed (node : KeyNode) (child : ChildNumber) : Result Bytes := do
  let wire := (Octets.ofNat 4 child.toWire.toNat).toList
  if child.hardened then
    match node.key.secret with
    | some secret => return 0 :: secret.toOctets.toList ++ wire
    | none => throw .hardenedNeedsSecret
  else return node.key.compressedKey ++ wire

/-- The pair that a factor is added to: to the secret if there is one, else to the point. In the rare
    case that nothing is left there is no such child. -/
def addFactor (key : KeyPair) (factor : Scalar) (child : ChildNumber) : Result KeyPair :=
  match key.secret with
  | some parent =>
      if factor + parent = 0 then .error (.invalidChild child.word)
      else KeyPair.ofScalar (factor + parent)
  | none =>
      let point := key.point.addGenerator factor
      if point = .infinity then .error (.invalidChild child.word) else KeyPair.ofPoint point

/-- The child that a hash gives, and the factor in it. -/
def childOfHash (node : KeyNode) (child : ChildNumber) (depth : UInt8) (hash : Octets (32 + 32)) :
    Result (KeyNode × Scalar) :=
  if h : hash.left.toNat < groupOrder then do
    let factor : Scalar := ⟨hash.left.toNat, h⟩
    let key ← addFactor node.key factor child
    return ({ key := key, chainCode := hash.right, depth := depth,
              parentFingerprint := node.fingerprint, child := child, network := node.network,
              cleared := false }, factor)
  else .error (.invalidChild child.word)

/-- A child of a live node, and the factor that was added for it. -/
def deriveWithFactor (node : KeyNode) (index : UInt32) (hardened : Bool) :
    Result (KeyNode × Scalar) := do
  node.requireLive
  let child ← ChildNumber.ofIndex index hardened
  if node.depth = 255 then throw .maxDepthExceeded
  let seed ← node.childSeed child
  node.childOfHash child (node.depth + 1) (Hash.hmacSha512 node.chainCode.toList seed)

def derive (node : KeyNode) (index : UInt32) (hardened : Bool) : Result KeyNode := do
  return (← node.deriveWithFactor index hardened).1

def keyAt (node : KeyNode) (index : UInt32) (hardened : Bool) : Result KeyPair := do
  return (← node.derive index hardened).key

/-- Descend along a path. The empty path leads to the node itself. -/
def derivePath (node : KeyNode) : DerivationPath → Result KeyNode
  | [] => .ok node
  | step :: path => do
      let child ← node.derive step.word step.hardened
      derivePath child path

def deriveText (node : KeyNode) (path : String) : Result KeyNode := do
  node.derivePath (← DerivationPath.parse path)

end Bitcoin.KeyNode
