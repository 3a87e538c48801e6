import Bitcoin.Proofs.Signature.Canonical

/-! # Three accounts of DER

Reading tolerates padding that writing never makes and that the strict check refuses. Otherwise the three agree:
what is read is a sequence of two integers with values in range, and it passes the strict check exactly if it
is what would be written.
-/

namespace Bitcoin.Signature

variable {sig : Signature} {der r s : Bytes} {e : Error} {hashType : UInt8} {lowS : Bool}

/-- The octets are those of two integers with the given contents, each behind its tag and its length, and all of
    it behind the tag and the length of a sequence. -/
def IsSequence (der r s : Bytes) : Prop :=
  ∃ total lengthR lengthS : UInt8, der = 0x30 :: total :: 2 :: lengthR :: (r ++ 2 :: lengthS :: s) ∧
    total.toNat + 2 = der.length ∧ lengthR.toNat = r.length ∧ lengthS.toNat = s.length

/-- The lengths fit into their octets as long as the contents have no more than 251 octets. -/
theorem isSequence_iff : IsSequence der r s ↔ der = sequence r s ∧ r.length + s.length ≤ 251 := by
  constructor
  · rintro ⟨total, lengthR, lengthS, rfl, whole, front, back⟩
    have octet := total.toNat_lt
    have size : (element r ++ element s).length = total.toNat := by
      simp only [element, List.length_append, List.length_cons] at whole ⊢
      omega
    rw [sequence, size, UInt8.ofNat_toNat, element, element, ← front, ← back, UInt8.ofNat_toNat,
      UInt8.ofNat_toNat]
    refine ⟨by simp, ?_⟩
    simp only [element, List.length_append, List.length_cons] at size
    omega
  · rintro ⟨rfl, small⟩
    have width : UInt8.size = 256 := rfl
    have size : (element r ++ element s).length = r.length + s.length + 4 := by
      simp [element]
      omega
    refine ⟨UInt8.ofNat (element r ++ element s).length, UInt8.ofNat r.length, UInt8.ofNat s.length, ?_, ?_, ?_, ?_⟩
    · simp [sequence, element]
    · rw [length_sequence, size, UInt8.toNat_ofNat_of_lt' (by omega)]
    · exact UInt8.toNat_ofNat_of_lt' (by omega)
    · exact UInt8.toNat_ofNat_of_lt' (by omega)

/-- What is read: a sequence of two contents that are not empty, with values in range and any padding. -/
theorem ofDer_eq_ok_iff_isSequence : ofDer der = .ok sig ↔
    8 ≤ der.length ∧ ∃ r s, IsSequence der r s ∧ 1 ≤ r.length ∧ 1 ≤ s.length ∧
      Bytes.toNat r = sig.r.toNat ∧ Bytes.toNat s = sig.s.toNat ∧ InRange sig.r ∧ InRange sig.s := by
  rw [ofDer_eq_ok]
  constructor
  · rintro ⟨r, s, split, values⟩
    obtain ⟨rSome, sSome, small, rfl⟩ := splitSequence_eq_ok.1 split
    have rPositive := List.length_pos_iff.2 rSome
    have sPositive := List.length_pos_iff.2 sSome
    refine ⟨?_, r, s, isSequence_iff.2 ⟨rfl, small⟩, rPositive, sPositive, values⟩
    rw [length_sequence]
    omega
  · rintro ⟨-, r, s, shape, rPositive, sPositive, values⟩
    obtain ⟨rfl, small⟩ := isSequence_iff.1 shape
    refine ⟨r, s, splitSequence_eq_ok.2 ⟨?_, ?_, small, rfl⟩, values⟩
    · exact List.length_pos_iff.1 rPositive
    · exact List.length_pos_iff.1 sPositive

theorem eq_invalidSignature_of_widen {content : Bytes} (h : widen content = .error e) :
    ∃ fault, e = .invalidSignature fault := by
  unfold widen at h
  dsimp only at h
  split_ifs at h
  cases h
  exact ⟨_, rfl⟩

theorem eq_invalidSignature_of_checkRange {part : SignaturePart} {octets : Octets 32}
    (h : checkRange part octets = .error e) : ∃ fault, e = .invalidSignature fault := by
  unfold checkRange at h
  split_ifs at h <;> cases h <;> exact ⟨_, rfl⟩

/-- Reading fails with one kind of error. -/
theorem eq_invalidSignature_of_ofDer (h : ofDer der = .error e) : ∃ fault, e = .invalidSignature fault := by
  unfold ofDer at h
  rcases Outcome.bind_eq_error.1 h with h | ⟨⟨r, s⟩, -, h⟩
  · cases split : splitSequence der with
    | error fault =>
        rw [split] at h
        cases h
        exact ⟨_, rfl⟩
    | ok contents =>
        rw [split] at h
        cases h
  rcases Outcome.bind_eq_error.1 h with h | ⟨rOctets, -, h⟩
  · exact eq_invalidSignature_of_widen h
  rcases Outcome.bind_eq_error.1 h with h | ⟨sOctets, -, h⟩
  · exact eq_invalidSignature_of_widen h
  rcases Outcome.bind_eq_error.1 h with h | ⟨-, -, h⟩
  · exact eq_invalidSignature_of_checkRange h
  rcases Outcome.bind_eq_error.1 h with h | ⟨-, -, h⟩
  · exact eq_invalidSignature_of_checkRange h
  · cases h

/-! ## What is written -/

theorem isSequence_toDer (sig : Signature) : IsSequence sig.toDer (derContent sig.r) (derContent sig.s) := by
  have rLength := length_derContent_le sig.r
  have sLength := length_derContent_le sig.s
  exact isSequence_iff.2 ⟨toDer_eq sig, by omega⟩

theorem length_toDer_le (sig : Signature) : sig.toDer.length ≤ 72 := by
  have rLength := length_derContent_le sig.r
  have sLength := length_derContent_le sig.s
  rw [toDer_eq, length_sequence]
  omega

/-- What is written is read back or refused, according to the range of both numbers. -/
theorem ofDer_toDer_eq_error (outside : ¬(InRange sig.r ∧ InRange sig.s)) :
    ∃ fault, ofDer sig.toDer = .error (.invalidSignature fault) := by
  cases outcome : ofDer sig.toDer with
  | error e =>
      obtain ⟨fault, rfl⟩ := eq_invalidSignature_of_ofDer outcome
      exact ⟨fault, rfl⟩
  | ok read =>
      obtain rfl := eq_of_ofDer_toDer outcome
      obtain ⟨r, s, -, -, -, inRange⟩ := ofDer_eq_ok.1 outcome
      exact absurd inRange outside

/-! ## Reading and the strict check -/

/-- Of the octets that are read as a signature, the strict check accepts those that are written for it. -/
theorem checkSignature_of_ofDer (read : ofDer der = .ok sig)
    (defined : Canonical.isDefinedHashType hashType = true) :
    Canonical.checkSignature (der ++ [hashType]) lowS = .ok () ↔
      sig.toDer = der ∧ (lowS = true → sig.isLowS = true) := by
  constructor
  · intro passed
    obtain ⟨r, s, h, same, short, -, front, back, low⟩ := Canonical.checkSignature_eq_ok.1 passed
    obtain ⟨rfl, -⟩ := List.append_inj' same rfl
    -- There is only one way to take the octets apart, so the strict contents are those that were read.
    have split : splitSequence (sequence r s) = .ok (r, s) :=
      splitSequence_eq_ok.2 ⟨front.ne_nil, back.ne_nil, by omega, rfl⟩
    obtain ⟨r', s', split', rValue, sValue, -, -⟩ := ofDer_eq_ok.1 read
    rw [split] at split'
    cases split'
    refine ⟨?_, fun demanded => ?_⟩
    · rw [toDer_eq, ← front.eq_derContent rValue, ← back.eq_derContent sValue]
    · exact decide_eq_true (sValue ▸ low demanded)
  · rintro ⟨rfl, low⟩
    exact Canonical.checkSignature_toDerWithHashType defined low

/-- Reading, writing and checking agree. What is written is at most 72 octets with every length in its octet,
    and is read back if and only if both numbers are in range. What is read is a sequence of two integers with
    values in range, whatever their padding. And what is read passes the strict check, before a defined hash
    type, if and only if it is what is written, and `s` is low where that is demanded. -/
theorem derForms_agree :
    (∀ sig : Signature,
      (InRange sig.r ∧ InRange sig.s → ofDer sig.toDer = .ok sig) ∧
      (¬(InRange sig.r ∧ InRange sig.s) → ∃ fault, ofDer sig.toDer = .error (.invalidSignature fault)) ∧
      sig.toDer.length ≤ 72 ∧
      ∃ r s, IsSequence sig.toDer r s ∧ Bytes.toNat r = sig.r.toNat ∧ Bytes.toNat s = sig.s.toNat) ∧
    (∀ (der : Bytes) (r s : Octets 32), ofDer der = .ok ⟨r, s⟩ ↔
      8 ≤ der.length ∧ ∃ first second, IsSequence der first second ∧ 1 ≤ first.length ∧ 1 ≤ second.length ∧
        Bytes.toNat first = r.toNat ∧ Bytes.toNat second = s.toNat ∧ InRange r ∧ InRange s) ∧
    ∀ (der : Bytes) (sig : Signature) (hashType : UInt8), ofDer der = .ok sig →
      (hashType &&& 0x7f) ∈ ([1, 2, 3] : Bytes) →
      (Canonical.checkSignature (der ++ [hashType]) false = .ok () ↔ sig.toDer = der) ∧
      (Canonical.checkSignature (der ++ [hashType]) true = .ok () ↔ sig.toDer = der ∧ sig.isLowS = true) := by
  refine ⟨fun sig => ?_, fun der r s => ofDer_eq_ok_iff_isSequence, fun der sig hashType read member => ?_⟩
  · exact ⟨fun inRange => ofDer_toDer inRange.1 inRange.2, ofDer_toDer_eq_error, length_toDer_le sig, _, _,
      isSequence_toDer sig, toNat_derContent sig.r, toNat_derContent sig.s⟩
  · have defined := Canonical.isDefinedHashType_of_mem member
    rw [checkSignature_of_ofDer read defined, checkSignature_of_ofDer read defined]
    simp

/-- The signature whose numbers are both one. -/
def ones : Signature :=
  ⟨Octets.ofNat 32 1, Octets.ofNat 32 1⟩

/-- Its octets with a needless zero in front of the first number. -/
def paddedOnes : Bytes :=
  [0x30, 7, 2, 2, 0, 1, 2, 1, 1]

/-- They are read as it but do not pass, while what is written for it does. -/
theorem derForms_agree_ones :
    (ofDer paddedOnes = .ok ones ∧ Canonical.checkSignature (paddedOnes ++ [1]) false ≠ .ok ()) ∧
      (InRange ones.r ∧ InRange ones.s) ∧ ofDer ones.toDer = .ok ones ∧
      ((1 : UInt8) &&& 0x7f) ∈ ([1, 2, 3] : Bytes) ∧
      Canonical.checkSignature (ones.toDer ++ [1]) true = .ok () := by
  have read : ofDer paddedOnes = .ok ones := rfl
  have member : ((1 : UInt8) &&& 0x7f) ∈ ([1, 2, 3] : Bytes) := by decide
  have inRange : InRange ones.r ∧ InRange ones.s := by decide
  have different : ones.toDer ≠ paddedOnes := by decide
  obtain ⟨written, -, checked⟩ := derForms_agree
  have again := (written ones).1 inRange
  refine ⟨⟨read, fun passed => ?_⟩, inRange, again, member, ?_⟩
  · exact different ((checked paddedOnes ones 1 read member).1.1 passed)
  · exact (checked ones.toDer ones 1 again member).2.2 ⟨rfl, by decide⟩

end Bitcoin.Signature
