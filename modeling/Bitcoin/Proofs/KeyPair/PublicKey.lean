import Bitcoin.Proofs.KeyPair.Sound
import Bitcoin.Signature.Canonical

/-! # Public keys

The strict check of a public key accepts the shapes that points are read from. The public key of a sound pair
has one of them: it is the encoding of its point in the form of the pair, and is read as that point.
-/

namespace Bitcoin

/-- A key passes if its first octet and its length are those of one of the two forms. -/
theorem Canonical.checkPublicKey_eq_ok {octets : Bytes} : checkPublicKey octets = .ok () ↔
    ∃ tag content, octets = tag :: content ∧ Point.hasForm tag content = true := by
  cases octets with
  | nil => simp [checkPublicKey]
  | cons tag content =>
      have shape : (∃ first rest, tag :: content = first :: rest ∧ Point.hasForm first rest = true) ↔
          Point.hasForm tag content = true := by simp
      rw [shape, Point.hasForm, decide_eq_true_eq, checkPublicKey]
      simp only [List.length_cons, List.getElem_cons_zero]
      constructor
      · intro h
        split_ifs at h with short uncompressed long compressed length
        · exact .inr ⟨uncompressed, by omega⟩
        · exact .inl ⟨compressed, by omega⟩
      · rintro (⟨compressed, length⟩ | ⟨rfl, length⟩)
        · have other : tag ≠ 4 := by
            rcases compressed with rfl | rfl <;> decide
          rw [dif_neg (by omega), if_neg other, if_pos compressed, if_pos (by omega)]
        · rw [dif_neg (by omega), if_pos rfl, if_pos (by omega)]

/-- Octets that are read as a point pass the strict check. -/
theorem Canonical.checkPublicKey_of_decode {octets : Bytes} {p : Point} (h : Point.decode octets = .ok p) :
    checkPublicKey octets = .ok () := by
  cases octets with
  | nil => cases h
  | cons tag content => exact checkPublicKey_eq_ok.2 ⟨tag, content, rfl, (Point.decode_cons_eq_ok_iff.1 h).1⟩

namespace KeyPair.Sound

variable {key : KeyPair}

theorem length_publicKey (sound : key.Sound) :
    key.publicKey.length = if key.compressed then 33 else 65 :=
  Point.length_encode (encode_eq_encodePoint sound.finite key.compressed)

theorem decode_publicKey (sound : key.Sound) : Point.decode key.publicKey = .ok key.point :=
  Point.decode_encode sound.onCurve (encode_eq_encodePoint sound.finite key.compressed)

end KeyPair.Sound

end Bitcoin
