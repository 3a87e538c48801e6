import Bitcoin.Proofs.Wire.Reads

/-! # The forms of a number

A number has up to four forms, one for each count of octets that it fits into. All of them are read and
nothing else is, and the form that is written is the only shortest one. The first octet of a form announces
how many octets it has, so that reading fails where those end before.
-/

namespace Bitcoin

namespace Wire

@[simp] theorem length_u16 (value : UInt16) : (u16 value).length = 2 :=
  Octets.length_toList _

@[simp] theorem length_u32 (value : UInt32) : (u32 value).length = 4 :=
  Octets.length_toList _

@[simp] theorem length_u64 (value : UInt64) : (u64 value).length = 8 :=
  Octets.length_toList _

@[simp] theorem length_i64 (value : Int64) : (i64 value).length = 8 :=
  length_u64 _

end Wire

namespace VarInt

variable {value : UInt64} {octets : Bytes}

/-- The octets are a form of the number. -/
inductive Written : UInt64 → Bytes → Prop where
  | octet (value : UInt8) : value ≤ 0xfc → Written value.toUInt64 [value]
  | short (value : UInt16) : Written value.toUInt64 (0xfd :: Wire.u16 value)
  | long (value : UInt32) : Written value.toUInt64 (0xfe :: Wire.u32 value)
  | full (value : UInt64) : Written value (0xff :: Wire.u64 value)

/-! ## Lengths -/

theorem length_cases (value : UInt64) :
    length value = 1 ∨ length value = 3 ∨ length value = 5 ∨ length value = 9 := by
  unfold length
  split_ifs <;> simp

theorem length_le_one : length value ≤ 1 ↔ value ≤ 0xfc := by
  unfold length
  split_ifs with octet <;> simp [octet]

theorem length_le_three : length value ≤ 3 ↔ value ≤ 0xffff := by
  unfold length
  split_ifs with octet short
  · simpa using UInt64.le_trans octet (by decide)
  · simp [short]
  · simp [short]
  · simp [short]

theorem length_le_five : length value ≤ 5 ↔ value ≤ 0xffffffff := by
  unfold length
  split_ifs with octet short long
  · simpa using UInt64.le_trans octet (by decide)
  · simpa using UInt64.le_trans short (by decide)
  · simp [long]
  · simp [long]

theorem one_le_length (value : UInt64) : 1 ≤ length value := by
  rcases length_cases value with size | size | size | size <;> omega

theorem length_le_nine (value : UInt64) : length value ≤ 9 := by
  rcases length_cases value with size | size | size | size <;> omega

theorem length_encode (value : UInt64) : (encode value).length = length value := by
  unfold encode
  rcases length_cases value with size | size | size | size <;> simp [size]

theorem written_encode (value : UInt64) : Written value (encode value) := by
  unfold encode
  rcases length_cases value with size | size | size | size <;> simp only [size]
  · have bound : value.toNat ≤ 252 := UInt64.le_iff_toNat_le.1 (length_le_one.1 (by omega))
    have same : value.toUInt8.toUInt64 = value := by
      rw [← UInt64.toNat_inj]
      simp
      omega
    have small : value.toUInt8 ≤ 0xfc := by
      rw [UInt8.le_iff_toNat_le]
      simp
      omega
    have written := Written.octet value.toUInt8 small
    rwa [same] at written
  · have bound : value.toNat ≤ 65535 := UInt64.le_iff_toNat_le.1 (length_le_three.1 (by omega))
    have same : value.toUInt16.toUInt64 = value := by
      rw [← UInt64.toNat_inj]
      simp
      omega
    have written := Written.short value.toUInt16
    rwa [same] at written
  · have bound : value.toNat ≤ 4294967295 := UInt64.le_iff_toNat_le.1 (length_le_five.1 (by omega))
    have same : value.toUInt32.toUInt64 = value := by
      rw [← UInt64.toNat_inj]
      simp
      omega
    have written := Written.long value.toUInt32
    rwa [same] at written
  · exact .full value

theorem toUInt64_le_short (value : UInt16) : value.toUInt64 ≤ 0xffff := by
  rw [UInt64.le_iff_toNat_le, UInt16.toNat_toUInt64]
  exact Nat.le_of_lt_succ value.toNat_lt

theorem toUInt64_le_long (value : UInt32) : value.toUInt64 ≤ 0xffffffff := by
  rw [UInt64.le_iff_toNat_le, UInt32.toNat_toUInt64]
  exact Nat.le_of_lt_succ value.toNat_lt

/-- How many octets a form has whose first octet is this one. -/
def announced (first : UInt8) : Nat :=
  if first = 0xff then 9 else if first = 0xfe then 5 else if first = 0xfd then 3 else 1

theorem Written.announces (written : Written value octets) :
    ∃ first rest, octets = first :: rest ∧ octets.length = announced first := by
  cases written with
  | octet value small =>
      have other (tag : UInt8) (high : 0xfc < tag) : value ≠ tag :=
        UInt8.ne_of_lt (UInt8.lt_of_le_of_lt small high)
      refine ⟨value, [], rfl, ?_⟩
      rw [announced, if_neg (other 0xff (by decide)), if_neg (other 0xfe (by decide)), if_neg (other 0xfd (by decide))]
      rfl
  | short value => exact ⟨_, _, rfl, by simp [announced]⟩
  | long value => exact ⟨_, _, rfl, by simp [announced]⟩
  | full value => exact ⟨_, _, rfl, by simp [announced]⟩

/-- A form has at least as many octets as the one that is written. -/
theorem Written.length_le (written : Written value octets) : length value ≤ octets.length := by
  cases written with
  | octet value small => exact length_le_one.2 (UInt8.toUInt64_le.2 small)
  | short value => simpa using length_le_three.2 (toUInt64_le_short value)
  | long value => simpa using length_le_five.2 (toUInt64_le_long value)
  | full value => simpa using length_le_nine value

/-- The only form of so few octets is the one that is written. -/
theorem Written.eq_encode (written : Written value octets) (short : octets.length ≤ length value) :
    octets = encode value := by
  have size : length value = octets.length := Nat.le_antisymm written.length_le short
  unfold encode
  cases written with
  | octet value small => simp [size]
  | short value => simp [size]
  | long value => simp [size]
  | full value => simp [size]

/-! ## Reading -/

/-- The octet in front tells which of the four forms follows. -/
theorem Written.reads (written : Written value octets) : Reader.Reads read octets value := by
  cases written with
  | octet value small =>
      have other (tag : UInt8) (high : 0xfc < tag) : value ≠ tag :=
        UInt8.ne_of_lt (UInt8.lt_of_le_of_lt small high)
      change Reader.Reads _ ([value] ++ []) _
      refine .bind (.u8 value) ?_
      rw [if_neg (other 0xff (by decide)), if_neg (other 0xfe (by decide)), if_neg (other 0xfd (by decide))]
      exact .pure _
  | short value => exact .bind (.u8 0xfd) (.map UInt16.toUInt64 (.u16 value))
  | long value => exact .bind (.u8 0xfe) (.map UInt32.toUInt64 (.u32 value))
  | full value => exact .bind (.u8 0xff) (.u64 value)

theorem takes_read : Reader.Takes read Written := by
  intro unread value rest h
  obtain ⟨first, _, _, rfl, cut, h⟩ := Reader.Takes.of_bind .u8 h
  split_ifs at h with full long short
  · obtain ⟨_, rfl, rfl⟩ := Reader.Takes.u64 h
    exact ⟨_, .full value, by rw [cut, full]; rfl⟩
  · obtain ⟨word, _, _, rfl, cut', h⟩ := Reader.Takes.of_bind .u32 h
    obtain ⟨rfl, rfl⟩ := Reader.pure_eq_ok.1 h
    exact ⟨_, .long word, by rw [cut, cut', long]; rfl⟩
  · obtain ⟨word, _, _, rfl, cut', h⟩ := Reader.Takes.of_bind .u16 h
    obtain ⟨rfl, rfl⟩ := Reader.pure_eq_ok.1 h
    exact ⟨_, .short word, by rw [cut, cut', short]; rfl⟩
  · obtain ⟨rfl, rfl⟩ := Reader.pure_eq_ok.1 h
    refine ⟨_, .octet first ?_, cut⟩
    grind

/-- No form is the beginning of another, with any octets behind either. -/
theorem Written.unique {value' : UInt64} {octets' rest rest' : Bytes} (written : Written value octets)
    (written' : Written value' octets') (same : octets ++ rest = octets' ++ rest') :
    value = value' ∧ octets = octets' ∧ rest = rest' := by
  obtain ⟨value, rfl⟩ := written.reads.unique written'.reads same
  exact ⟨value, List.append_cancel_right same, rfl⟩

/-! ## Where octets end before a form does -/

/-- A form is cut off: its first octet was taken, if there is one, and what is left over is too short. -/
inductive CutOff : Bytes → Bytes → Prop where
  | empty : CutOff [] []
  | behind {first : UInt8} {rest : Bytes} : 1 + rest.length < announced first → CutOff [first] rest

theorem CutOff.length_le {taken rest : Bytes} (cutOff : CutOff taken rest) : taken.length ≤ 1 := by
  cases cutOff with
  | empty => exact Nat.zero_le 1
  | behind => exact Nat.le_refl 1

theorem breaks_read : Reader.Breaks read CutOff := by
  have behind (first : UInt8) : Reader.Breaks
      (if first = 0xff then Reader.u64
        else if first = 0xfe then do return (← Reader.u32).toUInt64
        else if first = 0xfd then do return (← Reader.u16).toUInt64
        else return first.toUInt64) (Reader.Short (announced first - 1)) := by
    unfold announced
    split_ifs
    · exact .u64
    · exact .map _ .u32
    · exact .map _ .u16
    · exact .pure _
  refine .bind .u8 .u8 behind ?_ ?_
  · rintro _ rest ⟨rfl, none⟩
    rw [List.length_eq_zero_iff.1 (Nat.lt_one_iff.1 none)]
    exact .empty
  · rintro first _ _ rest rfl ⟨rfl, short⟩
    exact .behind (by omega)

/-- Octets are cut off within a form exactly if they are fewer than their first one announces. -/
theorem exists_cutOff {octets : Bytes} : (∃ taken rest, CutOff taken rest ∧ octets = taken ++ rest) ↔
    ∀ first ∈ octets.head?, octets.length < announced first := by
  constructor
  · rintro ⟨_, rest, cutOff, rfl⟩ first head
    cases cutOff with
    | empty => cases head
    | behind short =>
        cases head
        rw [List.length_append, List.length_singleton]
        exact short
  · intro short
    cases octets with
    | nil => exact ⟨[], [], .empty, rfl⟩
    | cons first rest =>
        refine ⟨[first], rest, .behind ?_, rfl⟩
        rw [Nat.add_comm]
        exact short first rfl

/-! ## The shortest form -/

/-- No octets are a form of the same number and fewer. -/
def IsShortest (octets : Bytes) : Prop :=
  ∀ value other, Written value octets → Written value other → octets.length ≤ other.length

/-- The form that is written is the only shortest one. -/
theorem Written.isShortest_iff (written : Written value octets) :
    IsShortest octets ↔ octets = encode value := by
  constructor
  · intro shortest
    refine written.eq_encode ?_
    rw [← length_encode]
    exact shortest value (encode value) written (written_encode value)
  · rintro rfl value' other written' short
    have same : encode value ++ [] = encode value ++ [] := rfl
    obtain ⟨rfl, -⟩ := written.unique written' same
    rw [length_encode]
    exact short.length_le

end VarInt

namespace Reader

theorem Reads.varInt (value : UInt64) : Reads VarInt.read (VarInt.encode value) value :=
  (VarInt.written_encode value).reads

theorem Reads.varBytes {length bs : Bytes} {value : UInt64} (written : VarInt.Written value length)
    (size : value.toNat = bs.length) : Reads Reader.varBytes (length ++ bs) bs := by
  refine bind written.reads ?_
  rw [size]
  exact take bs

theorem Takes.varBytes : Takes Reader.varBytes fun bs octets =>
    ∃ value length, VarInt.Written value length ∧ value.toNat = bs.length ∧ octets = length ++ bs := by
  intro unread bs rest h
  obtain ⟨value, length, between, written, cut, h⟩ := of_bind VarInt.takes_read h
  obtain ⟨_, ⟨size, rfl⟩, rfl⟩ := Takes.take value.toNat h
  refine ⟨_, ⟨value, length, written, size.symm, rfl⟩, ?_⟩
  rw [cut, List.append_assoc]

/-- Within the length, or behind it where fewer octets follow than it says. -/
theorem Breaks.varBytes : Breaks Reader.varBytes fun taken rest => VarInt.CutOff taken rest ∨
    ∃ value, VarInt.Written value taken ∧ rest.length < value.toNat := by
  refine bind VarInt.takes_read VarInt.breaks_read (fun length => take length.toNat) .inl ?_
  rintro value form _ rest written ⟨rfl, short⟩
  rw [List.append_nil]
  exact .inr ⟨value, written, short⟩

end Reader

end Bitcoin
