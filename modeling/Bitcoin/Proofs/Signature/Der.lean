import Bitcoin.Proofs.Outcome
import Bitcoin.Proofs.Signature.Components
import Bitcoin.Signature.Der

/-! # Signatures in DER, both ways

What is read is a sequence of two contents, each behind its tag and its length, and the numbers are the values
of the contents. Writing chooses the shortest contents that are not negative. So a signature is read back
exactly when both its numbers are in range.
-/

namespace Bitcoin.Signature

variable {sig : Signature} {octets : Octets 32} {der content r s : Bytes}

/-- An integer: its tag, its length and its content. -/
def element (content : Bytes) : Bytes :=
  2 :: UInt8.ofNat content.length :: content

/-- The sequence of two integers with the given contents. -/
def sequence (r s : Bytes) : Bytes :=
  0x30 :: UInt8.ofNat (element r ++ element s).length :: (element r ++ element s)

theorem length_sequence (r s : Bytes) : (sequence r s).length = r.length + s.length + 6 := by
  simp [sequence, element]
  omega

theorem toDer_eq (sig : Signature) : sig.toDer = sequence (derContent sig.r) (derContent sig.s) :=
  rfl

/-! ## The contents that are written -/

/-- The shortest content of a number that is not negative: its high bit is clear, and a leading zero is the
    whole number or keeps a set bit from being the high one. -/
def IsMinimal (content : Bytes) : Prop :=
  ∃ first rest, content = first :: rest ∧ first < 0x80 ∧
    (first = 0 → ∀ second ∈ rest.head?, 0x80 ≤ second)

/-- Zero keeps one octet, and other numbers are left with their shortest form. -/
theorem trimZeros_eq {bs : Bytes} (nonempty : bs ≠ []) :
    trimZeros bs = if Bytes.toNat bs = 0 then [0] else Bytes.ofNat (Bytes.toNat bs) := by
  unfold trimZeros
  rw [Bytes.dropWhile_zero]
  split_ifs with zero
  · have none : Bytes.ofNat (Bytes.toNat bs) = [] := Bytes.ofNat_eq_nil.2 zero
    have zeros : bs = List.replicate bs.length 0 := by
      have whole := Bytes.zeros_append_ofNat bs
      rw [none, List.append_nil] at whole
      have all := takeWhile_eq_replicate 0 bs
      rwa [whole] at all
    have positive := List.length_pos_iff.2 nonempty
    rw [none]
    dsimp only
    rw [zeros, List.length_replicate, List.drop_replicate, Nat.sub_sub_self positive]
    rfl
  · split
    · exact absurd (Bytes.ofNat_eq_nil.1 ‹_›) zero
    · rfl

theorem trimZeros_toList (octets : Octets 32) : trimZeros octets.toList =
    if octets.toNat = 0 then [0] else Bytes.ofNat octets.toNat :=
  trimZeros_eq (List.ne_nil_of_length_pos (by simp))

theorem toNat_derContent (octets : Octets 32) : Bytes.toNat (derContent octets) = octets.toNat := by
  have trimmed : Bytes.toNat (trimZeros octets.toList) = octets.toNat := by
    rw [trimZeros_toList]
    split_ifs with zero
    · rw [zero]
      rfl
    · exact Bytes.toNat_ofNat _
  unfold derContent
  dsimp only
  split_ifs
  · exact (Bytes.toNat_replicate_zero_append 1 _).trans trimmed
  · exact trimmed

theorem length_derContent_le (octets : Octets 32) : (derContent octets).length ≤ 33 := by
  have trimmed : (trimZeros octets.toList).length ≤ 32 := by
    rw [trimZeros_toList]
    split_ifs
    · decide
    · exact Bytes.length_ofNat_le.2 octets.toNat_lt
  unfold derContent
  dsimp only
  split_ifs
  · exact Nat.succ_le_succ trimmed
  · omega

theorem isMinimal_derContent (octets : Octets 32) : IsMinimal (derContent octets) := by
  have trimmed : ∃ first rest, trimZeros octets.toList = first :: rest ∧ (first = 0 → rest = []) := by
    rw [trimZeros_toList]
    split_ifs with zero
    · exact ⟨0, [], rfl, fun _ => rfl⟩
    · have head := Bytes.head?_ofNat_ne_zero octets.toNat
      cases shortest : Bytes.ofNat octets.toNat with
      | nil => exact absurd (Bytes.ofNat_eq_nil.1 shortest) zero
      | cons first rest =>
          rw [shortest] at head
          exact ⟨first, rest, rfl, fun same => absurd (congrArg some same) head⟩
  obtain ⟨first, rest, shape, lone⟩ := trimmed
  unfold derContent
  rw [shape]
  by_cases high : 0x80 ≤ first
  · refine ⟨0, first :: rest, if_pos high, by decide, fun _ second member => ?_⟩
    cases member
    exact high
  · refine ⟨first, rest, if_neg high, UInt8.not_le.1 high, fun zero second member => ?_⟩
    rw [lone zero] at member
    cases member

theorem IsMinimal.ne_nil (minimal : IsMinimal content) : content ≠ [] := by
  obtain ⟨first, rest, rfl, -⟩ := minimal
  exact List.cons_ne_nil first rest

/-- The shortest content of a number that is not negative. -/
def shortestContent (n : Nat) : Bytes :=
  match Bytes.ofNat n with
  | [] => [0]
  | first :: rest => if first < 0x80 then first :: rest else 0 :: first :: rest

/-- A minimal content is determined by its value: less its sign octet it has no leading zero. -/
theorem IsMinimal.eq_shortestContent (minimal : IsMinimal content) :
    content = shortestContent (Bytes.toNat content) := by
  obtain ⟨first, rest, rfl, clear, needed⟩ := minimal
  unfold shortestContent
  by_cases zero : first = 0
  · subst zero
    have value : Bytes.toNat (0 :: rest) = Bytes.toNat rest := Bytes.toNat_replicate_zero_append 1 rest
    cases rest with
    | nil =>
        have none : Bytes.ofNat (Bytes.toNat [0]) = [] := Bytes.ofNat_eq_nil.2 rfl
        rw [none]
    | cons second tail =>
        have high : 0x80 ≤ second := needed rfl second rfl
        have trimmed : (second :: tail).head? ≠ some 0 := by
          rintro ⟨⟩
          exact absurd high (by decide)
        rw [value, Bytes.ofNat_toNat trimmed]
        exact (if_neg (UInt8.not_lt.2 high)).symm
  · have trimmed : (first :: rest).head? ≠ some 0 := fun same => zero (Option.some.inj same)
    rw [Bytes.ofNat_toNat trimmed]
    exact (if_pos clear).symm

/-- The minimal content of a number is the one that is written. -/
theorem IsMinimal.eq_derContent (minimal : IsMinimal content) (value : Bytes.toNat content = octets.toNat) :
    content = derContent octets := by
  calc
    content = shortestContent octets.toNat := value ▸ minimal.eq_shortestContent
    _ = derContent octets := by
      rw [← toNat_derContent octets]
      exact (isMinimal_derContent octets).eq_shortestContent.symm

/-! ## Reading -/

/-- What is split off is one element with a content that is not empty. -/
theorem splitInteger?_eq_some {bs rest : Bytes} : splitInteger? bs = some (content, rest) ↔
    content ≠ [] ∧ content.length < 256 ∧ bs = element content ++ rest := by
  constructor
  · intro h
    unfold splitInteger? at h
    split at h
    · rename_i length tail
      split_ifs at h with inside
      cases h
      have octet := length.toNat_lt
      have taken : (tail.take length.toNat).length = length.toNat := List.length_take_of_le inside.2
      refine ⟨List.ne_nil_of_length_pos (by omega), by omega, ?_⟩
      rw [element, taken, UInt8.ofNat_toNat, List.cons_append, List.cons_append, List.take_append_drop]
    · cases h
  · rintro ⟨nonempty, small, rfl⟩
    have length : (UInt8.ofNat content.length).toNat = content.length := UInt8.toNat_ofNat_of_lt' small
    have positive := List.length_pos_iff.2 nonempty
    simp [splitInteger?, element, length, positive]

/-- What is taken apart is the sequence of two contents that are not empty, with a length that fits into its
    octet. -/
theorem splitSequence_eq_ok : splitSequence der = .ok (r, s) ↔
    r ≠ [] ∧ s ≠ [] ∧ r.length + s.length ≤ 251 ∧ der = sequence r s := by
  constructor
  · intro h
    unfold splitSequence at h
    split_ifs at h with short tag total
    have whole : der = der[0] :: der[1] :: der.drop 2 := by
      rw [List.getElem_cons_drop, List.getElem_cons_drop, List.drop_zero]
    split at h
    · cases h
    · rename_i front rest first
      obtain ⟨frontSome, -, firstShape⟩ := splitInteger?_eq_some.1 first
      split at h
      · cases h
      · rename_i back second
        cases h
        obtain ⟨backSome, -, secondShape⟩ := splitInteger?_eq_some.1 second
        rw [secondShape, List.append_nil] at firstShape
        rw [firstShape] at whole
        have length := congrArg List.length whole
        have octet := der[1].toNat_lt
        rw [not_not] at tag total
        simp only [List.length_cons, List.length_append, element] at length
        refine ⟨frontSome, backSome, by omega, ?_⟩
        have size : der[1] = UInt8.ofNat (element r ++ element s).length := by
          rw [← UInt8.ofNat_toNat (x := der[1])]
          congr 1
          simp only [List.length_cons, List.length_append, element]
          omega
        rw [sequence, ← size, ← tag]
        exact whole
      · cases h
  · rintro ⟨rSome, sSome, small, rfl⟩
    have rPositive := List.length_pos_iff.2 rSome
    have sPositive := List.length_pos_iff.2 sSome
    have length := length_sequence r s
    have size : (UInt8.ofNat (element r ++ element s).length).toNat + 2 = (sequence r s).length := by
      rw [UInt8.toNat_ofNat_of_lt']
      · rfl
      · simp [element, UInt8.size]
        omega
    have first : splitInteger? ((sequence r s).drop 2) = some (r, element s) :=
      splitInteger?_eq_some.2 ⟨rSome, by omega, rfl⟩
    have second : splitInteger? (element s) = some (s, []) :=
      splitInteger?_eq_some.2 ⟨sSome, by omega, (List.append_nil _).symm⟩
    unfold splitSequence
    rw [dif_neg (by omega), if_neg (fun different => different rfl), if_neg (fun different => different size),
      first]
    dsimp only
    rw [second]

/-- Whatever zeros lead a content, its value is read. -/
theorem widen_eq_ok : widen content = .ok octets ↔ Bytes.toNat content = octets.toNat := by
  unfold widen
  rw [Bytes.dropWhile_zero]
  dsimp only
  constructor
  · intro h
    split_ifs at h with wide
    cases h
    rw [Octets.toNat_padLeft (Nat.le_of_not_lt wide), Bytes.toNat_ofNat]
  · intro value
    have narrow : (Bytes.ofNat (Bytes.toNat content)).length ≤ 32 :=
      Bytes.length_ofNat_le.2 (value ▸ octets.toNat_lt)
    rw [if_neg (Nat.not_lt.2 narrow)]
    refine congrArg Except.ok (Octets.toNat_inj.1 ?_)
    rw [Octets.toNat_padLeft narrow, Bytes.toNat_ofNat, value]

/-- The first octets that differ decide whether a number is below the group order. -/
theorem orderOctets_le : orderOctets.toList ≤ octets.toList ↔ groupOrder ≤ octets.toNat := by
  rw [Bytes.le_iff_toNat_le (by simp), ← toNat_orderOctets]
  rfl

theorem all_zero_iff : octets.toList.all (· = 0) = true ↔ octets.toNat = 0 := by
  rw [Octets.toNat, Bytes.toNat_eq_zero]
  simp

/-- What is checked of the octets holds of their number. -/
theorem checkRange_eq (part : SignaturePart) (octets : Octets 32) : checkRange part octets =
    if octets.toNat = 0 then .error (.invalidSignature (.zero part))
    else if groupOrder ≤ octets.toNat then .error (.invalidSignature (.outOfRange part))
    else .ok () := by
  unfold checkRange
  simp only [all_zero_iff, orderOctets_le]

theorem checkRange_eq_ok {part : SignaturePart} : checkRange part octets = .ok () ↔ InRange octets := by
  rw [checkRange_eq]
  unfold InRange
  split_ifs with zero large
  · simp [zero]
  · simp only [false_iff, not_and, Nat.not_lt]
    exact fun _ => large
  · simp only [true_iff]
    omega

/-- The octets that are read, and the numbers in them. -/
theorem ofDer_eq_ok : ofDer der = .ok sig ↔
    ∃ r s, splitSequence der = .ok (r, s) ∧ Bytes.toNat r = sig.r.toNat ∧ Bytes.toNat s = sig.s.toNat ∧
      InRange sig.r ∧ InRange sig.s := by
  unfold ofDer
  constructor
  · intro h
    obtain ⟨⟨r, s⟩, split, h⟩ := Outcome.bind_eq_ok.1 h
    obtain ⟨rOctets, rWide, h⟩ := Outcome.bind_eq_ok.1 h
    obtain ⟨sOctets, sWide, h⟩ := Outcome.bind_eq_ok.1 h
    obtain ⟨⟨⟩, rRange, h⟩ := Outcome.bind_eq_ok.1 h
    obtain ⟨⟨⟩, sRange, h⟩ := Outcome.bind_eq_ok.1 h
    cases h
    exact ⟨r, s, Outcome.mapError_eq_ok.1 split, widen_eq_ok.1 rWide, widen_eq_ok.1 sWide,
      checkRange_eq_ok.1 rRange, checkRange_eq_ok.1 sRange⟩
  · rintro ⟨r, s, split, rValue, sValue, rRange, sRange⟩
    refine Outcome.bind_eq_ok.2 ⟨(r, s), Outcome.mapError_eq_ok.2 split, ?_⟩
    refine Outcome.bind_eq_ok.2 ⟨sig.r, widen_eq_ok.2 rValue, ?_⟩
    refine Outcome.bind_eq_ok.2 ⟨sig.s, widen_eq_ok.2 sValue, ?_⟩
    refine Outcome.bind_eq_ok.2 ⟨(), checkRange_eq_ok.2 rRange, ?_⟩
    exact Outcome.bind_eq_ok.2 ⟨(), checkRange_eq_ok.2 sRange, rfl⟩

theorem splitSequence_toDer (sig : Signature) :
    splitSequence sig.toDer = .ok (derContent sig.r, derContent sig.s) := by
  have rLength := length_derContent_le sig.r
  have sLength := length_derContent_le sig.s
  exact splitSequence_eq_ok.2 ⟨(isMinimal_derContent sig.r).ne_nil, (isMinimal_derContent sig.s).ne_nil,
    by omega, toDer_eq sig⟩

/-- What is written is read back if both numbers are in range. -/
theorem ofDer_toDer (rRange : InRange sig.r) (sRange : InRange sig.s) : ofDer sig.toDer = .ok sig :=
  ofDer_eq_ok.2 ⟨_, _, splitSequence_toDer sig, toNat_derContent sig.r, toNat_derContent sig.s, rRange, sRange⟩

/-- No other signature is read from what is written, since its contents have the values of its numbers. -/
theorem eq_of_ofDer_toDer {read : Signature} (h : ofDer sig.toDer = .ok read) : read = sig := by
  obtain ⟨r, s, split, rValue, sValue, -, -⟩ := ofDer_eq_ok.1 h
  rw [splitSequence_toDer] at split
  cases split
  rw [toNat_derContent] at rValue sValue
  cases sig
  cases read
  cases Octets.toNat_inj.1 rValue
  cases Octets.toNat_inj.1 sValue
  rfl

end Bitcoin.Signature
