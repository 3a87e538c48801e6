import Bitcoin.Proofs.Signature.Der

/-! # Canonical signatures

The strict check is written with positions in the octets. Where it passes, the positions are those of a
sequence of two minimal contents and of the hash type behind it, so what is written in DER passes whenever the
hash type is a defined one and, on demand, `s` is low.
-/

namespace Bitcoin.Canonical

open Signature (IsMinimal element)

variable {part : SignaturePart} {octets content r s : Bytes} {a b c d e f h : UInt8} {lowS : Bool}

theorem checkInteger_eq_ok : checkInteger part content = .ok () ↔ IsMinimal content := by
  unfold IsMinimal
  cases content with
  | nil => simp [checkInteger]
  | cons first rest =>
      unfold checkInteger
      dsimp only
      constructor
      · intro h
        split_ifs at h with high
        refine ⟨first, rest, rfl, UInt8.not_le.1 high, ?_⟩
        rintro rfl second member
        cases rest with
        | nil => cases member
        | cons next rest =>
            obtain rfl := Option.some.inj member
            change (if next < 0x80 then .error (Fault.padded part) else .ok ()) = Except.ok () at h
            split_ifs at h with padded
            exact UInt8.not_lt.1 padded
      · rintro ⟨first', rest', same, clear, needed⟩
        cases same
        rw [if_neg (UInt8.not_le.2 clear)]
        split
        · rename_i second _
          rw [if_neg (UInt8.not_lt.2 (needed rfl second rfl))]
        · rfl

theorem checkElement_eq_ok {tag : UInt8} :
    checkElement part tag content = .ok () ↔ tag = 2 ∧ IsMinimal content := by
  unfold checkElement
  split_ifs with integer
  · rw [checkInteger_eq_ok]
    exact (and_iff_right integer).symm
  · simp [integer]

/-- The hash types that are defined, by their values. -/
theorem isDefinedHashType_of_mem (member : (h &&& 0x7f) ∈ ([1, 2, 3] : Bytes)) :
    isDefinedHashType h = true := by
  unfold isDefinedHashType
  simp only [List.mem_cons, List.not_mem_nil, or_false] at member
  rcases member with one | two | three
  · rw [one]
    decide
  · rw [two]
    decide
  · rw [three]
    decide

/-- The octets at the positions that are checked, whatever they are. -/
def parts (a b c d : UInt8) (r : Bytes) (e f : UInt8) (s : Bytes) (h : UInt8) : Bytes :=
  a :: b :: c :: d :: (r ++ e :: f :: (s ++ [h]))

theorem length_parts : (parts a b c d r e f s h).length = r.length + s.length + 7 := by
  simp [parts]
  omega

/-- What is asked of octets whose lengths say where the numbers are. -/
theorem checkSignature_parts (lengthR : d.toNat = r.length) (lengthS : f.toNat = s.length) :
    checkSignature (parts a b c d r e f s h) lowS = .ok () ↔
      2 ≤ r.length + s.length ∧ r.length + s.length ≤ 66 ∧ isDefinedHashType h = true ∧ a = 0x30 ∧
        b.toNat = r.length + s.length + 4 ∧ (c = 2 ∧ IsMinimal r) ∧ (e = 2 ∧ IsMinimal s) ∧
        (lowS = true → Bytes.toNat s ≤ halfOrder) := by
  have last (inside : r.length + s.length + 7 - 1 < (parts a b c d r e f s h).length) :
      (parts a b c d r e f s h)[r.length + s.length + 7 - 1] = h := by
    rw [List.getElem_eq_iff, show r.length + s.length + 7 - 1 = r.length + (s.length + 2) + 4 by omega]
    simp [parts]
  have tag (inside : 4 + r.length < (parts a b c d r e f s h).length) :
      (parts a b c d r e f s h)[4 + r.length] = e := by
    rw [List.getElem_eq_iff, Nat.add_comm]
    simp [parts]
  have size (inside : 5 + r.length < (parts a b c d r e f s h).length) :
      (parts a b c d r e f s h)[5 + r.length] = f := by
    rw [List.getElem_eq_iff, Nat.add_comm]
    simp [parts]
  have front : ((parts a b c d r e f s h).drop 4).take r.length = r := by simp [parts]
  have back : ((parts a b c d r e f s h).drop (6 + r.length)).take s.length = s := by
    rw [show 6 + r.length = r.length + 2 + 4 by omega]
    simp [parts]
  have zeroth (inside : 0 < (parts a b c d r e f s h).length) : (parts a b c d r e f s h)[0] = a := rfl
  have first (inside : 1 < (parts a b c d r e f s h).length) : (parts a b c d r e f s h)[1] = b := rfl
  have second (inside : 2 < (parts a b c d r e f s h).length) : (parts a b c d r e f s h)[2] = c := rfl
  have third (inside : 3 < (parts a b c d r e f s h).length) : (parts a b c d r e f s h)[3] = d := rfl
  unfold checkSignature
  simp only [zeroth, first, second, third, lengthR, lengthS, length_parts, last, tag, size, front, back]
  constructor
  · intro h
    split_ifs at h with short long undefined wrongTag wrongTotal misplaced mismatch high
    · obtain ⟨⟨⟩, -, h⟩ := Outcome.bind_eq_ok.1 h
      obtain ⟨⟨⟩, -, h⟩ := Outcome.bind_eq_ok.1 h
      cases h
    · obtain ⟨⟨⟩, front, h⟩ := Outcome.bind_eq_ok.1 h
      obtain ⟨⟨⟩, back, -⟩ := Outcome.bind_eq_ok.1 h
      refine ⟨by omega, by omega, undefined, not_not.1 wrongTag, by omega, checkElement_eq_ok.1 front,
        checkElement_eq_ok.1 back, fun low => Nat.le_of_not_lt fun above => high ⟨low, above⟩⟩
  · rintro ⟨long, short, defined, tag, total, front, back, low⟩
    have notHigh : ¬(lowS = true ∧ halfOrder < Bytes.toNat s) := fun high => Nat.not_lt.2 (low high.1) high.2
    rw [if_neg notHigh, dif_neg (show ¬r.length + s.length + 7 < 9 by omega),
      if_neg (show ¬73 < r.length + s.length + 7 by omega), if_neg (not_not.2 defined),
      if_neg (not_not.2 tag), if_neg (show ¬b.toNat ≠ r.length + s.length + 7 - 3 by omega),
      dif_neg (show ¬r.length + s.length + 7 ≤ 5 + r.length by omega), if_neg (not_not.2 rfl)]
    refine Outcome.bind_eq_ok.2 ⟨(), checkElement_eq_ok.2 front, ?_⟩
    exact Outcome.bind_eq_ok.2 ⟨(), checkElement_eq_ok.2 back, rfl⟩

/-- Where the length of `s` lies inside, the octets are cut at the positions that are checked. -/
theorem exists_parts (enough : 3 < octets.length) (inside : 5 + octets[3].toNat < octets.length)
    (total : octets[3].toNat + octets[5 + octets[3].toNat].toNat + 7 = octets.length) :
    ∃ a b c d r e f s h, octets = parts a b c d r e f s h ∧ d.toNat = r.length ∧ f.toNat = s.length := by
  match octets, enough with
  | a :: b :: c :: d :: rest, _ =>
      simp only [List.getElem_cons_succ, List.getElem_cons_zero, List.length_cons] at inside total
      have size : (a :: b :: c :: d :: rest)[5 + d.toNat] = rest[d.toNat + 1] := by
        simp only [Nat.add_comm 5, List.getElem_cons_succ]
      rw [size] at total
      -- Behind `r` come its neighbour's tag and length, and then `s` with one octet more.
      have lengthR : (rest.take d.toNat).length = d.toNat := List.length_take_of_le (by omega)
      have cut := List.take_append_drop d.toNat rest
      rw [List.drop_eq_getElem_cons (by omega), List.drop_eq_getElem_cons (by omega)] at cut
      have lengthS : (rest.drop (d.toNat + 1 + 1)).length = rest[d.toNat + 1].toNat + 1 := by
        rw [List.length_drop]
        omega
      have nonempty : rest.drop (d.toNat + 1 + 1) ≠ [] := List.ne_nil_of_length_pos (by omega)
      have back := List.dropLast_concat_getLast nonempty
      refine ⟨a, b, c, d, rest.take d.toNat, rest[d.toNat], rest[d.toNat + 1],
        (rest.drop (d.toNat + 1 + 1)).dropLast, (rest.drop (d.toNat + 1 + 1)).getLast nonempty, ?_,
        lengthR.symm, ?_⟩
      · rw [parts, back, cut]
      · rw [List.length_dropLast, lengthS, Nat.add_sub_cancel]

/-- The signatures that pass are the sequences of two minimal contents, together of a length that 32 octets
    for either number allow, with a hash type behind them. -/
theorem checkSignature_eq_ok : checkSignature octets lowS = .ok () ↔
    ∃ r s h, octets = Signature.sequence r s ++ [h] ∧ r.length + s.length ≤ 66 ∧ isDefinedHashType h = true ∧
      IsMinimal r ∧ IsMinimal s ∧ (lowS = true → Bytes.toNat s ≤ halfOrder) := by
  constructor
  · intro passed
    have cut : ∃ a b c d r e f s h, octets = parts a b c d r e f s h ∧ d.toNat = r.length ∧
        f.toNat = s.length := by
      unfold checkSignature at passed
      dsimp only at passed
      split_ifs at passed with short long undefined tag total misplaced mismatch
      all_goals exact exists_parts (by omega) (by omega) (not_not.1 mismatch)
    obtain ⟨a, b, c, d, r, e, f, s, h, rfl, lengthR, lengthS⟩ := cut
    obtain ⟨-, short, defined, rfl, total, ⟨rfl, front⟩, ⟨rfl, back⟩, low⟩ :=
      (checkSignature_parts lengthR lengthS).1 passed
    refine ⟨r, s, h, ?_, short, defined, front, back, low⟩
    have whole : b = UInt8.ofNat (element r ++ element s).length := by
      rw [← UInt8.ofNat_toNat (x := b), total]
      congr 1
      simp [element]
      omega
    rw [parts, Signature.sequence, ← whole, element, element, ← lengthR, ← lengthS, UInt8.ofNat_toNat,
      UInt8.ofNat_toNat]
    simp
  · rintro ⟨r, s, h, rfl, short, defined, front, back, low⟩
    have rPositive := List.length_pos_iff.2 front.ne_nil
    have sPositive := List.length_pos_iff.2 back.ne_nil
    have shape : Signature.sequence r s ++ [h] = parts 0x30 (UInt8.ofNat (element r ++ element s).length) 2
        (UInt8.ofNat r.length) r 2 (UInt8.ofNat s.length) s h := by
      simp only [parts, Signature.sequence, element, List.cons_append, List.append_assoc]
    have total : (element r ++ element s).length = r.length + s.length + 4 := by
      simp [element]
      omega
    have width : UInt8.size = 256 := rfl
    rw [shape, checkSignature_parts (UInt8.toNat_ofNat_of_lt' (by omega))
      (UInt8.toNat_ofNat_of_lt' (by omega)), total, UInt8.toNat_ofNat_of_lt' (by omega)]
    exact ⟨by omega, short, defined, rfl, rfl, ⟨rfl, front⟩, ⟨rfl, back⟩, low⟩

/-- What is written in DER, with a hash type that is defined, passes unless a low `s` is demanded of a high
    one. -/
theorem checkSignature_toDerWithHashType {sig : Signature} (defined : isDefinedHashType h = true)
    (low : lowS = true → sig.isLowS = true) : checkSignature (sig.toDerWithHashType h) lowS = .ok () := by
  have rLength := Signature.length_derContent_le sig.r
  have sLength := Signature.length_derContent_le sig.s
  refine checkSignature_eq_ok.2 ⟨_, _, h, rfl, by omega, defined, Signature.isMinimal_derContent sig.r,
    Signature.isMinimal_derContent sig.s, fun demanded => ?_⟩
  rw [Signature.toNat_derContent]
  exact of_decide_eq_true (low demanded)

end Bitcoin.Canonical
