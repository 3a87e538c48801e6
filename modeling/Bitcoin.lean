import Bitcoin.KeyPair.Message
import Bitcoin.KeyPair.Wif
import Bitcoin.KeyTree.ExtendedKey
import Bitcoin.KeyTree.Search
import Bitcoin.Proofs.Curve.Action
import Bitcoin.Proofs.Curve.Encoding
import Bitcoin.Proofs.Curve.Generator
import Bitcoin.Proofs.Curve.Group
import Bitcoin.Proofs.Curve.Jacobian
import Bitcoin.Proofs.Curve.Order
import Bitcoin.Proofs.Curve.Reachable
import Bitcoin.Proofs.Curve.Residue
import Bitcoin.Proofs.Integer.Division
import Bitcoin.Proofs.Integer.Modular
import Bitcoin.Proofs.Integer.Scalars
import Bitcoin.Proofs.Integer.Text
import Bitcoin.Proofs.KeyPair.Message
import Bitcoin.Proofs.KeyPair.PublicKey
import Bitcoin.Proofs.KeyPair.PublicKeyForms
import Bitcoin.Proofs.KeyPair.Reachable
import Bitcoin.Proofs.KeyPair.Recovery
import Bitcoin.Proofs.KeyPair.SharedPoint
import Bitcoin.Proofs.KeyPair.Signing
import Bitcoin.Proofs.KeyPair.Sound
import Bitcoin.Proofs.KeyPair.Verification
import Bitcoin.Proofs.KeyPair.Wif
import Bitcoin.Proofs.KeyTree.Children
import Bitcoin.Proofs.KeyTree.Cleared
import Bitcoin.Proofs.KeyTree.Derivation
import Bitcoin.Proofs.KeyTree.Equality
import Bitcoin.Proofs.KeyTree.ExtendedKey
import Bitcoin.Proofs.KeyTree.Fields
import Bitcoin.Proofs.KeyTree.PathText
import Bitcoin.Proofs.KeyTree.Paths
import Bitcoin.Proofs.KeyTree.PublicDerivation
import Bitcoin.Proofs.KeyTree.Reachable
import Bitcoin.Proofs.KeyTree.Search
import Bitcoin.Proofs.KeyTree.WellFormed
import Bitcoin.Proofs.Signature.Canonical
import Bitcoin.Proofs.Signature.Der
import Bitcoin.Proofs.Signature.DerForms
import Bitcoin.Proofs.Signature.Grammar
import Bitcoin.Proofs.Signature.Normalized
import Bitcoin.Proofs.SignatureHash.Commitment
import Bitcoin.Proofs.SignatureHash.Stream
import Bitcoin.Proofs.Text.Base58Check
import Bitcoin.Proofs.Text.Hex
import Bitcoin.Proofs.Transaction.Codec
import Bitcoin.Proofs.Transaction.Delimited
import Bitcoin.Proofs.Transaction.PushedHashType
import Bitcoin.Proofs.Transaction.SigningOrder
import Bitcoin.Proofs.Transaction.Unlocking
import Bitcoin.Proofs.Wire.Decoding
import Bitcoin.Proofs.Wire.Fields
import Bitcoin.Proofs.Wire.Pieces
import Bitcoin.Proofs.Wire.Session
import Bitcoin.Proofs.Wire.VarInt
import Bitcoin.Transaction.KeyHashScript
import Bitcoin.Wire.Field
