import Bitcoin.Proofs.Octets
import Bitcoin.Proofs.Outcome
import Bitcoin.Text.Base58Check

/-! # Base58, both ways

An octet string is its leading zeros and the shortest octets of a number, and a text is its leading ones and
the shortest digits of a number. So texts over the alphabet and octet strings are in bijection, and the texts
with a right checksum are in bijection with the payloads.
-/

namespace Bitcoin

namespace Digits

theorem zeros_append_ofNat {base : Nat} (two_le : 2 ≤ base) {digits : List Nat}
    (valid : ∀ d ∈ digits, d < base) :
    digits.takeWhile (· = 0) ++ ofNat base (toNat base digits) = digits := by
  have value : toNat base digits = toNat base (digits.dropWhile (· = 0)) := by
    conv_lhs =>
      rw [← List.takeWhile_append_dropWhile (p := (· = 0)) (l := digits), takeWhile_eq_replicate]
    exact toNat_replicate_zero_append base _ _
  have rest : ∀ d ∈ digits.dropWhile (· = 0), d < base :=
    fun d member => valid d (List.dropWhile_sublist _ |>.subset member)
  rw [value, ofNat_toNat two_le rest (head?_dropWhile_ne 0 digits), List.takeWhile_append_dropWhile]

end Digits

namespace Base58

theorem value?_digit : ∀ v < 58, value? (digit v) = some v := by
  decide +kernel

theorem value?_eq_some_iff {c : Char} {v : Nat} : value? c = some v ↔ v < 58 ∧ c = digit v := by
  constructor
  · intro h
    obtain ⟨inside, same, -⟩ := List.findIdx?_eq_some_iff_getElem.1 h
    refine ⟨inside, ?_⟩
    rw [digit, List.getD_eq_getElem?_getD, List.getElem?_eq_getElem inside]
    exact (of_decide_eq_true same).symm
  · rintro ⟨small, rfl⟩
    exact value?_digit v small

/-- The texts over the alphabet are the texts of digit lists. -/
theorem values_eq_ok {position : Nat} {text : List Char} {digits : List Nat} :
    values position text = .ok digits ↔ (∀ d ∈ digits, d < 58) ∧ text = digits.map digit := by
  induction text generalizing position digits with
  | nil =>
      constructor
      · rintro ⟨⟩
        simp
      · rintro ⟨-, empty⟩
        cases List.map_eq_nil_iff.1 empty.symm
        rfl
  | cons c text ih =>
      unfold values
      constructor
      · intro h
        cases found : value? c with
        | none =>
            rw [found] at h
            cases h
        | some v =>
            rw [found] at h
            obtain ⟨tail, read, h⟩ := Outcome.bind_eq_ok.1 h
            cases h
            obtain ⟨small, rfl⟩ := value?_eq_some_iff.1 found
            obtain ⟨valid, rfl⟩ := ih.1 read
            exact ⟨List.forall_mem_cons.2 ⟨small, valid⟩, rfl⟩
      · rintro ⟨valid, same⟩
        cases digits with
        | nil => cases same
        | cons v digits =>
            obtain ⟨small, valid⟩ := List.forall_mem_cons.1 valid
            cases same
            rw [value?_digit v small]
            exact Outcome.bind_eq_ok.2 ⟨digits, ih.2 ⟨valid, rfl⟩, rfl⟩

/-- What a text over the alphabet stands for. -/
theorem decode_eq_ok {text : String} {bs : Bytes} :
    decode text = .ok bs ↔ ∃ digits : List Nat, (∀ d ∈ digits, d < 58) ∧
      text = String.ofList (digits.map digit) ∧
      bs = List.replicate (digits.takeWhile (· = 0)).length 0 ++
        Bytes.ofNat (Digits.toNat 58 digits) := by
  unfold decode
  rw [Outcome.bind_eq_ok]
  refine exists_congr fun digits => ?_
  rw [values_eq_ok, ← String.toList_inj, String.toList_ofList, and_assoc]
  simp only [List.map_const']
  refine and_congr_right fun _ => and_congr_right fun _ => ?_
  constructor
  · rintro ⟨⟩
    rfl
  · rintro rfl
    rfl

theorem encode_eq (bs : Bytes) : encode bs = String.ofList ((List.replicate
    (bs.takeWhile (· = 0)).length 0 ++ Digits.ofNat 58 (Bytes.toNat bs)).map digit) := by
  rw [encode, List.map_const', List.map_append, List.map_replicate]
  rfl

/-- The text of an octet string stands for it. -/
theorem decode_encode (bs : Bytes) : decode (encode bs) = .ok bs := by
  refine decode_eq_ok.2 ⟨_, ?_, encode_eq bs, ?_⟩
  · intro d member
    rcases List.mem_append.1 member with zero | digit
    · rw [List.eq_of_mem_replicate zero]
      decide
    · exact Digits.lt_of_mem_ofNat (by decide) digit
  · rw [takeWhile_replicate_append _ (Digits.head?_ofNat_ne_zero (by decide) _), List.length_replicate,
      Digits.toNat_replicate_zero_append, Digits.toNat_ofNat (by decide), ← takeWhile_eq_replicate,
      Bytes.zeros_append_ofNat]

/-- A text that stands for an octet string is its text. -/
theorem encode_decode {text : String} {bs : Bytes} (h : decode text = .ok bs) : encode bs = text := by
  obtain ⟨digits, valid, rfl, rfl⟩ := decode_eq_ok.1 h
  rw [encode_eq, takeWhile_replicate_append _ (Bytes.head?_ofNat_ne_zero _), List.length_replicate,
    Bytes.toNat_replicate_zero_append, Bytes.toNat_ofNat, ← takeWhile_eq_replicate,
    Digits.zeros_append_ofNat (by decide) valid]

end Base58

namespace Base58Check

theorem length_checksum (payload : Bytes) : (checksum payload).length = 4 := by
  simp [checksum]

/-- The accepted texts are the written ones, each with the payload that it was written for. -/
theorem decode_eq_ok {text : String} {payload : Bytes} :
    decode text = .ok payload ↔ text = encode payload := by
  constructor
  · intro h
    obtain ⟨octets, read, h⟩ := Outcome.bind_eq_ok.1 h
    have decoded := Outcome.mapError_eq_ok.1 read
    dsimp only at h
    split_ifs at h with short different different
    · cases h
    · cases h
    · cases h
    · cases h
      rw [encode, ← not_not.1 different, List.take_append_drop, Base58.encode_decode decoded]
  · rintro rfl
    have read : (Base58.decode (encode payload)).mapError Error.invalidBase58 =
        .ok (payload ++ checksum payload) :=
      Outcome.mapError_eq_ok.2 (Base58.decode_encode (payload ++ checksum payload))
    unfold decode
    rw [read, Outcome.ok_bind]
    simp only [List.length_append, length_checksum, Nat.add_sub_cancel, List.take_left', List.drop_left']
    rw [if_neg (by omega), if_neg (fun different => different rfl)]
    rfl

end Base58Check

end Bitcoin
