import Bitcoin.Proofs.Outcome
import Bitcoin.Proofs.Text.Hex
import Bitcoin.Proofs.Transaction.Reads

/-! # Transactions on the wire

The octets of a transaction are its pieces, and nothing else is read as it. Among them what is written has the
fewest octets, and is what was read exactly if every number there had its shortest form.
-/

namespace Bitcoin.Transaction

open Wire

variable {tx : Transaction} {octets : Bytes}

/-- The octets that are read as a transaction are its pieces, with its numbers in any forms. -/
theorem decode_eq_ok : decode octets = .ok tx ↔ ∃ forms, Spelled tx.pieces forms octets := by
  unfold decode
  constructor
  · intro h
    split at h
    · rename_i found read
      cases h
      obtain ⟨_, ⟨forms, spelled⟩, whole⟩ := Reader.exact_transaction.takes read
      rw [List.append_nil] at whole
      exact ⟨forms, whole ▸ spelled⟩
    · cases h
    · cases h
  · rintro ⟨forms, spelled⟩
    have whole := Reader.exact_transaction.reads spelled []
    rw [List.append_nil] at whole
    have run : read.run octets = .ok tx [] := whole
    rw [run]

theorem decode_encode (fits : tx.Fits) : decode tx.encode = .ok tx :=
  decode_eq_ok.2 fits.exists_spelled

theorem ofHex_toHex (h : decode tx.encode = .ok tx) : ofHex tx.toHex = .ok tx := by
  unfold ofHex toHex
  rw [Hex.decode_encode]
  exact h

/-- What was read is written so that it is read again. -/
theorem decode_encode_of_decode (h : decode octets = .ok tx) : decode tx.encode = .ok tx := by
  obtain ⟨forms, spelled⟩ := decode_eq_ok.1 h
  rw [decode_eq_ok, encode_eq_spell]
  exact exists_spelled spelled.number_lt

/-- Writing and reading are inverse, also as hexadecimal text. And of the octets that are read as a
    transaction, the written ones are the fewest: all others have some count or script length that is not in its
    shortest form. Octets without such a number are hashed to the identifier. -/
theorem encode_canonical :
    (∀ tx : Transaction, tx.Fits → decode tx.encode = .ok tx ∧ ofHex tx.toHex = .ok tx) ∧
    ∀ octets tx, decode octets = .ok tx →
      tx.encode.length ≤ octets.length ∧ decode tx.encode = .ok tx ∧
      ∃ forms, (∀ forms', Spelled tx.pieces forms' octets ↔ forms' = forms) ∧
        (tx.encode = octets ↔ ∀ form ∈ forms, VarInt.IsShortest form) ∧
        ((∀ form ∈ forms, VarInt.IsShortest form) → tx.txid = Hash.sha256d octets) := by
  refine ⟨fun tx fits => ⟨decode_encode fits, ofHex_toHex (decode_encode fits)⟩, fun octets tx h => ?_⟩
  obtain ⟨forms, spelled⟩ := decode_eq_ok.1 h
  have canonical : tx.encode = octets ↔ ∀ form ∈ forms, VarInt.IsShortest form := by
    rw [encode_eq_spell]
    exact spelled.spell_eq_iff
  refine ⟨?_, decode_encode_of_decode h, forms, fun forms' => ⟨fun spelled' => ?_, ?_⟩, canonical,
    fun shortest => ?_⟩
  · rw [encode_eq_spell]
    exact spelled.length_spell_le
  · have same : octets ++ [] = octets ++ [] := rfl
    exact (spelled'.unique spelled same).1
  · rintro rfl
    exact spelled
  · rw [txid, canonical.2 shortest]

/-- A transaction with a short script and a negative value. -/
def minting : Transaction :=
  { version := 1
    inputs := [{ TxInput.unsigned (Octets.zero 32) 0 with script := [0x51] }]
    outputs := [TxOutput.null]
    lockTime := 0 }

/-- Its octets with the count of inputs in three octets. -/
def loose : Bytes :=
  Wire.u32 1 ++ [0xfd, 1, 0] ++ minting.inputs.flatMap TxInput.encode ++ [1] ++ TxOutput.null.encode
    ++ Wire.u32 0

/-- Both are read as it, and only the shorter ones are written. -/
theorem encode_canonical_minting :
    (minting.Fits ∧ decode minting.encode = .ok minting ∧ ofHex minting.toHex = .ok minting) ∧
    decode loose = .ok minting ∧ minting.encode.length ≤ loose.length ∧
      ∃ forms, Spelled minting.pieces forms loose ∧ ¬∀ form ∈ forms, VarInt.IsShortest form := by
  have fits : minting.Fits := ⟨by decide, by decide, by decide, by decide⟩
  have read : decode loose = .ok minting := rfl
  obtain ⟨written, others⟩ := encode_canonical
  obtain ⟨length, -, forms, spelled, canonical, -⟩ := others loose minting read
  refine ⟨⟨fits, written minting fits⟩, read, length, forms, (spelled forms).2 rfl, fun shortest => ?_⟩
  have different : minting.encode ≠ loose := by decide
  exact different (canonical.2 shortest)

end Bitcoin.Transaction
