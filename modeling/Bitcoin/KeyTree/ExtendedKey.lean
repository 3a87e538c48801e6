import Bitcoin.KeyTree.Node

/-! # Extended keys

A node as 78 octets: the version, the depth, the parent's fingerprint, the child number, the chain code
and 33 octets of key, which are the secret after a zero octet or the compressed public key. As text it
is Base58Check.
-/

namespace Bitcoin.KeyNode

def keyData (node : KeyNode) (withSecret : Bool) : Result Bytes := do
  if withSecret then
    let secret ← node.key.requireSecret
    return 0 :: secret.toOctets.toList
  else return node.key.compressedKey

/-- The 78 octets of a live node, with its secret or with its public key. -/
def toExtended (node : KeyNode) (withSecret : Bool) : Result Bytes := do
  node.requireLive
  let key ← node.keyData withSecret
  return (node.network.extendedKeyVersion withSecret).toList ++ [node.depth]
    ++ (Octets.ofNat 4 node.parentFingerprint.toNat).toList
    ++ (Octets.ofNat 4 node.child.toWire.toNat).toList
    ++ node.chainCode.toList ++ key

def toExtendedText (node : KeyNode) (withSecret : Bool) : Result String := do
  return Base58Check.encode (← node.toExtended withSecret)

/-- Read the 33 octets of key, according to whether the version is that of a secret. -/
def ofKeyData (withSecret : Bool) (keyData : Bytes) : Result KeyPair :=
  if withSecret then
    if keyData.head? = some 0 then KeyPair.ofSecret (keyData.drop 1)
    else .error (.invalidExtendedKey .privateMarker)
  else
    if keyData.head? = some 2 ∨ keyData.head? = some 3 then KeyPair.ofPublicKey keyData
    else .error (.invalidExtendedKey .publicMarker)

/-- Read 78 octets. A node without depth must be nobody's child. -/
def ofExtended (octets : Bytes) : Result KeyNode :=
  if h : octets.length = 78 then do
    let (network, withSecret) ←
      Network.ofExtendedKeyVersion ⟨octets.take 4, by simp [h]⟩
    let depth := octets[4]
    let parent := UInt32.ofNat (Bytes.toNat ((octets.drop 5).take 4))
    let child := UInt32.ofNat (Bytes.toNat ((octets.drop 9).take 4))
    if depth = 0 ∧ (parent ≠ 0 ∨ child ≠ 0) then throw (.invalidExtendedKey .masterWithParent)
    let key ← ofKeyData withSecret (octets.drop 45)
    return { key := key, chainCode := ⟨(octets.drop 13).take 32, by simp [h]⟩, depth := depth,
             parentFingerprint := parent, child := ChildNumber.ofWire child, network := network,
             cleared := false }
  else .error (.extendedKeyLength octets.length)

def ofExtendedText (text : String) : Result KeyNode := do
  ofExtended (← Base58Check.decode text)

/-- A node among other values: its public text, unless it is cleared, and its place. -/
def describe (node : KeyNode) : String :=
  let xpub := match node.toExtendedText false with
    | .ok text => "Some(" ++ Quoted.text text ++ ")"
    | .error _ => "None"
  "HdKeychain \x7b xpub: " ++ xpub ++ s!", private: {node.isPrivate}, depth: {node.depth}, child: "
    ++ Quoted.text node.child.toText ++ " \x7d"

end Bitcoin.KeyNode
