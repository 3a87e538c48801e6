import Bitcoin.Proofs.Text.Base58

/-! # Refused texts

A text that is not written for any payload has a character outside the alphabet, stands for too few octets, or
shows another checksum, and is refused for the first of these. In the texts that are written every leading one
stands for a leading zero octet.
-/

namespace Bitcoin

namespace Base58

variable {text : List Char} {position : Nat} {fault : Fault}

/-! ## Characters outside the alphabet -/

theorem value?_eq_none_iff {c : Char} : value? c = none ↔ c ∉ alphabet := by
  rw [value?, List.findIdx?_eq_none_iff]
  constructor
  · intro absent member
    simpa using absent c member
  · intro foreign d member
    exact decide_eq_false fun same => foreign (same ▸ member)

/-- The character is the first one outside the alphabet. -/
structure FirstForeign (text : List Char) (position : Nat) (c : Char) : Prop where
  here : text[position]? = some c
  foreign : c ∉ alphabet
  before : ∀ d ∈ text.take position, d ∈ alphabet

/-- What a character outside the alphabet is reported as. -/
def foreignFault (c : Char) (position : Nat) : Fault :=
  if c.toNat < 128 then .badCharacter c position else .nonAscii position

namespace FirstForeign

variable {c d : Char}

theorem head (foreign : c ∉ alphabet) : FirstForeign (c :: text) 0 c :=
  ⟨rfl, foreign, by simp⟩

theorem tail (known : d ∈ alphabet) (first : FirstForeign text position c) :
    FirstForeign (d :: text) (position + 1) c where
  here := first.here
  foreign := first.foreign
  before := by
    rw [List.take_succ_cons, List.forall_mem_cons]
    exact ⟨known, first.before⟩

/-- It is the head, or the first one behind a head from the alphabet. -/
theorem cases_cons (first : FirstForeign (d :: text) position c) :
    position = 0 ∧ c = d ∧ d ∉ alphabet ∨
      ∃ next, position = next + 1 ∧ d ∈ alphabet ∧ FirstForeign text next c := by
  obtain ⟨here, foreign, before⟩ := first
  cases position with
  | zero =>
      cases here
      exact .inl ⟨rfl, rfl, foreign⟩
  | succ next =>
      rw [List.take_succ_cons, List.forall_mem_cons] at before
      exact .inr ⟨next, rfl, before.1, here, foreign, before.2⟩

theorem exists_iff : (∃ position c, FirstForeign text position c) ↔ ∃ c ∈ text, c ∉ alphabet := by
  constructor
  · rintro ⟨position, c, first⟩
    exact ⟨c, List.mem_of_getElem? first.here, first.foreign⟩
  · rintro ⟨c, member, foreign⟩
    induction text with
    | nil => cases member
    | cons d text ih =>
        by_cases known : d ∈ alphabet
        · have behind : c ∈ text := by
            rcases List.mem_cons.1 member with rfl | behind
            · exact absurd known foreign
            · exact behind
          obtain ⟨position, c, first⟩ := ih behind
          exact ⟨position + 1, c, first.tail known⟩
        · exact ⟨0, d, .head known⟩

end FirstForeign

/-- Characters are looked up from left to right, and the first one that is not found is reported. -/
theorem values_eq_error : values position text = .error fault ↔
    ∃ offset c, FirstForeign text offset c ∧ fault = foreignFault c (position + offset) := by
  induction text generalizing position with
  | nil =>
      constructor
      · rintro ⟨⟩
      · rintro ⟨offset, c, first, -⟩
        cases first.here
  | cons d text ih =>
      unfold values
      cases found : value? d with
      | none =>
          have foreign := value?_eq_none_iff.1 found
          constructor
          · rintro ⟨⟩
            exact ⟨0, d, .head foreign, rfl⟩
          · rintro ⟨offset, c, first, rfl⟩
            rcases first.cases_cons with ⟨rfl, rfl, -⟩ | ⟨_, _, known, _⟩
            · rfl
            · exact absurd known foreign
      | some v =>
          have known : d ∈ alphabet := by
            by_contra foreign
            rw [value?_eq_none_iff.2 foreign] at found
            cases found
          constructor
          · intro h
            rcases Outcome.bind_eq_error.1 h with failed | ⟨digits, -, ⟨⟩⟩
            obtain ⟨offset, c, first, rfl⟩ := ih.1 failed
            exact ⟨offset + 1, c, first.tail known, by rw [Nat.add_right_comm, Nat.add_assoc]⟩
          · rintro ⟨offset, c, first, rfl⟩
            rcases first.cases_cons with ⟨-, -, foreign⟩ | ⟨next, rfl, -, first⟩
            · exact absurd known foreign
            · refine Outcome.bind_eq_error.2 (.inl (ih.2 ⟨next, c, first, ?_⟩))
              rw [Nat.add_right_comm, Nat.add_assoc]

theorem decode_eq_error {text : String} : decode text = .error fault ↔
    ∃ position c, FirstForeign text.toList position c ∧ fault = foreignFault c position := by
  unfold decode
  rw [Outcome.bind_eq_error, values_eq_error]
  simp only [Nat.zero_add]
  constructor
  · rintro (first | ⟨digits, -, ⟨⟩⟩)
    exact first
  · exact .inl

/-! ## Leading ones -/

theorem digit_eq_one_iff {v : Nat} (small : v < 58) : digit v = '1' ↔ v = 0 := by
  constructor
  · intro same
    have value := value?_digit v small
    rw [same, show value? '1' = some 0 from rfl] at value
    exact (Option.some.inj value).symm
  · rintro rfl
    rfl

/-- A text begins with as many ones as its octets begin with zeros. -/
theorem takeWhile_encode (bs : Bytes) :
    (encode bs).toList.takeWhile (· = '1') = (bs.takeWhile (· = 0)).map fun _ => '1' := by
  have trimmed : ((Digits.ofNat 58 (Bytes.toNat bs)).map digit).head? ≠ some '1' := by
    rw [List.head?_map]
    intro one
    obtain ⟨v, head, same⟩ := Option.map_eq_some_iff.1 one
    have small : v < 58 := Digits.lt_of_mem_ofNat (by decide) (List.mem_of_mem_head? head)
    rw [(digit_eq_one_iff small).1 same] at head
    exact Digits.head?_ofNat_ne_zero (by decide) _ head
  rw [encode, String.toList_ofList, List.map_const']
  exact takeWhile_replicate_append _ trimmed

end Base58

namespace Base58Check

variable {text : String} {payload : Bytes} {e : Error}

/-- What a text is refused for: its first character outside the alphabet, or else that it holds fewer octets than
    a checksum, or else that it is not what is written for any payload. -/
inductive RefusedFor (text : String) : Error → Prop where
  | character {position : Nat} {c : Char} : Base58.FirstForeign text.toList position c →
      RefusedFor text (.invalidBase58 (Base58.foreignFault c position))
  | short {octets : Bytes} : Base58.decode text = .ok octets → octets.length < 4 →
      RefusedFor text (.invalidBase58 .noChecksum)
  | checksum {octets : Bytes} : Base58.decode text = .ok octets → 4 ≤ octets.length →
      (∀ payload, text ≠ encode payload) → RefusedFor text .checksumMismatch

theorem decode_of_short {octets : Bytes} (read : Base58.decode text = .ok octets) (short : octets.length < 4) :
    decode text = .error (.invalidBase58 .noChecksum) := by
  unfold decode
  rw [read]
  show (if octets.length < 4 then _ else _) = _
  rw [if_pos short]
  rfl

/-- With octets enough for a checksum there is a payload, or the checksum is another one. -/
theorem decode_of_long {octets : Bytes} (read : Base58.decode text = .ok octets) (long : 4 ≤ octets.length) :
    (∃ payload, decode text = .ok payload) ∨ decode text = .error .checksumMismatch := by
  unfold decode
  rw [read]
  show (∃ payload, (if octets.length < 4 then _ else _) = _) ∨ (if octets.length < 4 then _ else _) = _
  rw [if_neg (Nat.not_lt.2 long)]
  split_ifs with different
  · exact .inr rfl
  · exact .inl ⟨_, rfl⟩

theorem RefusedFor.decode (refused : RefusedFor text e) : decode text = .error e := by
  cases refused with
  | character first =>
      rw [Base58Check.decode, Base58.decode_eq_error.2 ⟨_, _, first, rfl⟩]
      rfl
  | short read short => exact decode_of_short read short
  | checksum read long foreign =>
      rcases decode_of_long read long with ⟨payload, accepted⟩ | mismatch
      · exact absurd (decode_eq_ok.1 accepted) (foreign payload)
      · exact mismatch

theorem written_or_refusedFor (text : String) : (∃ payload, text = encode payload) ∨ ∃ e, RefusedFor text e := by
  by_cases written : ∃ payload, text = encode payload
  · exact .inl written
  · right
    cases read : Base58.decode text with
    | error fault =>
        obtain ⟨position, c, first, -⟩ := Base58.decode_eq_error.1 read
        exact ⟨_, .character first⟩
    | ok octets =>
        by_cases short : octets.length < 4
        · exact ⟨_, .short read short⟩
        · exact ⟨_, .checksum read (Nat.not_lt.1 short) (not_exists.1 written)⟩

theorem decode_eq_error : decode text = .error e ↔ RefusedFor text e := by
  constructor
  · intro failed
    rcases written_or_refusedFor text with ⟨payload, written⟩ | ⟨e', refused⟩
    · rw [decode_eq_ok.2 written] at failed
      cases failed
    · have same := refused.decode
      rw [failed] at same
      cases same
      exact refused
  · exact RefusedFor.decode

/-- Which texts are no Base58 of octets with a checksum at all. -/
theorem exists_invalidBase58 : (∃ fault, decode text = .error (.invalidBase58 fault)) ↔
    (∃ c ∈ text.toList, c ∉ Base58.alphabet) ∨ ∃ octets, Base58.decode text = .ok octets ∧ octets.length < 4 := by
  simp only [decode_eq_error, ← Base58.FirstForeign.exists_iff]
  constructor
  · rintro ⟨fault, refused⟩
    cases refused with
    | character first => exact .inl ⟨_, _, first⟩
    | short read short => exact .inr ⟨_, read, short⟩
  · rintro (⟨position, c, first⟩ | ⟨octets, read, short⟩)
    · exact ⟨_, .character first⟩
    · exact ⟨_, .short read short⟩

/-- Zeros in front of a payload that is more than zeros are ones in front of its text. -/
theorem takeWhile_encode (nonzero : ∃ octet ∈ payload, octet ≠ 0) :
    (encode payload).toList.takeWhile (· = '1') = (payload.takeWhile (· = 0)).map fun _ => '1' := by
  have stops : payload.takeWhile (· = 0) ≠ payload := by
    intro whole
    obtain ⟨octet, member, different⟩ := nonzero
    rw [← whole] at member
    exact different (by simpa using List.mem_takeWhile_imp member)
  rw [encode, Base58.takeWhile_encode, List.takeWhile_append, if_neg]
  intro whole
  exact stops ((List.takeWhile_prefix _).eq_of_length whole)

/-- The texts that are read are exactly the written ones, each as the payload that it was written for. Every other
    text is refused: for its first character outside the alphabet, for octets too few for a checksum, and only if
    neither is the case for its checksum. Without a checksum the texts over the alphabet are those that are written
    for octets, and leading ones are leading zeros. -/
theorem decode_exact :
    (∀ payload, decode (encode payload) = .ok payload) ∧
    (∀ text payload, decode text = .ok payload ↔ text = encode payload) ∧
    Function.Injective encode ∧
    (∀ text e, decode text = .error e ↔ RefusedFor text e) ∧
    (∀ text, (∃ fault, decode text = .error (.invalidBase58 fault)) ↔ (∃ c ∈ text.toList, c ∉ Base58.alphabet) ∨
      ∃ octets, Base58.decode text = .ok octets ∧ octets.length < 4) ∧
    (∀ bs, Base58.decode (Base58.encode bs) = .ok bs) ∧
    (∀ text bs, Base58.decode text = .ok bs → Base58.encode bs = text) ∧
    (∀ bs, (Base58.encode bs).toList.takeWhile (· = '1') = (bs.takeWhile (· = 0)).map fun _ => '1') ∧
    ∀ payload, (∃ octet ∈ payload, octet ≠ 0) →
      (encode payload).toList.takeWhile (· = '1') = (payload.takeWhile (· = 0)).map fun _ => '1' := by
  refine ⟨fun payload => decode_eq_ok.2 rfl, fun text payload => decode_eq_ok, ?_, fun text e => decode_eq_error,
    fun text => exists_invalidBase58, Base58.decode_encode, fun text bs => Base58.encode_decode,
    Base58.takeWhile_encode, fun payload => takeWhile_encode⟩
  intro payload other same
  have read : decode (encode payload) = .ok payload := decode_eq_ok.2 rfl
  rw [decode_eq_ok.2 same] at read
  exact (Except.ok.inj read).symm

/-- A text is refused for its first character outside the alphabet, one of two octets for having no checksum, and
    one of four zeros for having another one. -/
theorem decode_exact_ones :
    RefusedFor "1é0" (.invalidBase58 (.nonAscii 1)) ∧ RefusedFor "11" (.invalidBase58 .noChecksum) ∧
      RefusedFor "1111" .checksumMismatch ∧ Base58.encode [0, 0, 1] = "112" ∧
      (∃ octet ∈ ([0, 0, 1] : Bytes), octet ≠ 0) ∧
      (encode [0, 0, 1]).toList.takeWhile (· = '1') = ['1', '1'] := by
  obtain ⟨-, -, -, refused, -, -, written, -, ones⟩ := decode_exact
  have nonzero : ∃ octet ∈ ([0, 0, 1] : Bytes), octet ≠ 0 := ⟨1, by simp, by decide⟩
  refine ⟨(refused _ _).1 rfl, (refused _ _).1 (by decide +kernel), (refused _ _).1 (by decide +kernel), ?_,
    nonzero, ones _ nonzero⟩
  exact written "112" [0, 0, 1] (by decide +kernel)

end Base58Check

end Bitcoin
