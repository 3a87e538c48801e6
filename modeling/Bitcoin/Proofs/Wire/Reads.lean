import Bitcoin.Proofs.Octets
import Bitcoin.Wire.VarInt

/-! # What readers take

A reader that gives a value for some octets, whatever stands behind them, takes those octets and no more.
The law for each form is stated of it alone, so a record is read by chaining the laws of its fields.
Octets that two values are written in can then be told apart even with more octets behind. The converse law
says of what is read that it was written in the reader's form. A reader fails only
where octets end, and the readers that it is made of tell what it has taken by then.
-/

namespace Bitcoin.Reader

variable {ε ε' α β : Type}

theorem toList_octet (value : UInt8) : (Octets.ofNatLE 1 value.toNat).toList = [value] := by
  simp [Octets.ofNatLE, Octets.reverse, Octets.ofNat, Digits.fixed, Digits.pushFixed]

/-- Before any others, the octets are read as the value. -/
def Reads (reader : Reader ε α) (octets : Bytes) (value : α) : Prop :=
  ∀ rest, reader (octets ++ rest) = .ok value rest

namespace Reads

theorem pure (value : α) : Reads (Pure.pure value : Reader ε α) [] value :=
  fun _ => rfl

theorem bind {reader : Reader ε α} {next : α → Reader ε β} {front back : Bytes} {a : α} {b : β}
    (first : Reads reader front a) (second : Reads (next a) back b) :
    Reads (reader >>= next) (front ++ back) b := by
  intro rest
  rw [List.append_assoc]
  show EStateM.bind reader next _ = _
  rw [EStateM.bind, first]
  exact second rest

theorem map {reader : Reader ε α} {octets : Bytes} {a : α} (f : α → β) (reads : Reads reader octets a) :
    Reads (do return f (← reader)) octets (f a) := by
  have both : Reads (reader >>= fun a => Pure.pure (f a)) (octets ++ []) (f a) :=
    bind reads (pure (f a))
  rwa [List.append_nil] at both

theorem onError {reader : Reader ε α} {octets : Bytes} {a : α} (f : ε → ε')
    (reads : Reads reader octets a) : Reads (reader.onError f) octets a := by
  intro rest
  show EStateM.adaptExcept f reader _ = _
  rw [EStateM.adaptExcept, reads]

/-- Two values that one reader reads are the same if their octets and whatever stands behind them
    are. -/
theorem unique {reader : Reader ε α} {octets octets' rest rest' : Bytes} {a a' : α}
    (reads : Reads reader octets a) (reads' : Reads reader octets' a')
    (same : octets ++ rest = octets' ++ rest') : a = a' ∧ rest = rest' := by
  have read := reads rest
  rw [same, reads' rest'] at read
  cases read
  exact ⟨rfl, rfl⟩

theorem take (bs : Bytes) : Reads (Reader.take bs.length) bs bs := by
  intro rest
  simp [Reader.take]

theorem octets {n : Nat} (a : Octets n) : Reads (Reader.octets n) a.toList a := by
  intro rest
  have enough : n ≤ (a.toList ++ rest).length := by simp
  rw [Reader.octets, dif_pos enough]
  congr 1
  · exact Octets.ext (List.take_left' a.length_eq)
  · exact List.drop_left' a.length_eq

theorem word {n value : Nat} (small : value < 256 ^ n) (ofNat : Nat → α) :
    Reads (do return ofNat (← Reader.octets n).toNatLE) (Octets.ofNatLE n value).toList
      (ofNat value) := by
  have reads := map (fun a => ofNat a.toNatLE) (octets (Octets.ofNatLE n value))
  rwa [Octets.toNatLE_ofNatLE, Nat.mod_eq_of_lt small] at reads

theorem u8 (value : UInt8) : Reads Reader.u8 [value] value := by
  have reads := word (n := 1) value.toNat_lt UInt8.ofNat
  rwa [toList_octet, UInt8.ofNat_toNat] at reads

theorem u16 (value : UInt16) : Reads Reader.u16 (Wire.u16 value) value := by
  have reads := word (n := 2) value.toNat_lt UInt16.ofNat
  rwa [UInt16.ofNat_toNat] at reads

theorem u32 (value : UInt32) : Reads Reader.u32 (Wire.u32 value) value := by
  have reads := word (n := 4) value.toNat_lt UInt32.ofNat
  rwa [UInt32.ofNat_toNat] at reads

theorem u64 (value : UInt64) : Reads Reader.u64 (Wire.u64 value) value := by
  have reads := word (n := 8) value.toNat_lt UInt64.ofNat
  rwa [UInt64.ofNat_toNat] at reads

theorem i64 (value : Int64) : Reads Reader.i64 (Wire.i64 value) value := by
  have reads := map UInt64.toInt64 (u64 value.toUInt64)
  rw [Int64.toInt64_toUInt64] at reads
  exact reads

end Reads

/-! ## The converse -/

/-- Whatever is read was written in front in the given form. -/
def Takes (reader : Reader ε α) (form : α → Bytes → Prop) : Prop :=
  ∀ ⦃unread value rest⦄, reader unread = .ok value rest →
    ∃ octets, form value octets ∧ unread = octets ++ rest

variable {reader : Reader ε α} {next : α → Reader ε β} {unread rest : Bytes} {b : β}

theorem bind_eq_ok : (reader >>= next) unread = .ok b rest ↔
    ∃ a between, reader unread = .ok a between ∧ next a between = .ok b rest := by
  show EStateM.bind reader next unread = _ ↔ _
  unfold EStateM.bind
  constructor
  · intro h
    split at h
    · exact ⟨_, _, ‹_›, h⟩
    · cases h
  · rintro ⟨a, between, first, second⟩
    rw [first]
    exact second

theorem bind_eq_error {e : ε} : (reader >>= next) unread = .error e rest ↔
    reader unread = .error e rest ∨ ∃ a between, reader unread = .ok a between ∧ next a between = .error e rest := by
  show EStateM.bind reader next unread = _ ↔ _
  unfold EStateM.bind
  cases reader unread <;> simp

theorem pure_eq_ok {a value : α} :
    (Pure.pure a : Reader ε α) unread = .ok value rest ↔ value = a ∧ rest = unread := by
  show EStateM.Result.ok a unread = .ok value rest ↔ _
  simp [eq_comm]

theorem onError_eq_ok {f : ε → ε'} {a : α} :
    reader.onError f unread = .ok a rest ↔ reader unread = .ok a rest := by
  show EStateM.adaptExcept f reader unread = _ ↔ _
  unfold EStateM.adaptExcept
  cases reader unread <;> simp

theorem onError_eq_error {f : ε → ε'} {e : ε'} :
    reader.onError f unread = .error e rest ↔ ∃ cause, e = f cause ∧ reader unread = .error cause rest := by
  show EStateM.adaptExcept f reader unread = _ ↔ _
  unfold EStateM.adaptExcept
  cases reader unread <;> simp [eq_comm]

namespace Takes

theorem onError {form : α → Bytes → Prop} (f : ε → ε') (takes : Takes reader form) :
    Takes (reader.onError f) form :=
  fun _ _ _ h => takes (onError_eq_ok.1 h)

/-- The first of two readers takes its octets, and the second goes on behind them. -/
theorem of_bind {form : α → Bytes → Prop} (takes : Takes reader form)
    (h : (reader >>= next) unread = .ok b rest) : ∃ a octets between, form a octets ∧
      unread = octets ++ between ∧ next a between = .ok b rest := by
  obtain ⟨a, between, first, second⟩ := bind_eq_ok.1 h
  obtain ⟨octets, written, same⟩ := takes first
  exact ⟨a, octets, between, written, same, second⟩

theorem map {form : α → Bytes → Prop} {form' : β → Bytes → Prop} (f : α → β) (takes : Takes reader form)
    (imp : ∀ {a octets}, form a octets → form' (f a) octets) : Takes (do return f (← reader)) form' := by
  intro unread b rest h
  obtain ⟨a, octets, _, written, cut, h⟩ := of_bind takes h
  obtain ⟨rfl, rfl⟩ := pure_eq_ok.1 h
  exact ⟨octets, imp written, cut⟩

theorem take (n : Nat) : Takes (Reader.take n) fun bs octets => bs.length = n ∧ octets = bs := by
  intro unread bs rest h
  unfold Reader.take at h
  split_ifs at h with enough
  cases h
  exact ⟨_, ⟨List.length_take_of_le enough, rfl⟩, (List.take_append_drop n unread).symm⟩

theorem octets (n : Nat) : Takes (Reader.octets n) fun a octets => octets = a.toList := by
  intro unread a rest h
  unfold Reader.octets at h
  split_ifs at h with enough
  cases h
  exact ⟨_, rfl, (List.take_append_drop n unread).symm⟩

/-- A word is told by its number, so it was written as that number. -/
theorem word {n : Nat} {ofNat : Nat → α} {toNat : α → Nat} (inverse : ∀ k < 256 ^ n, toNat (ofNat k) = k) :
    Takes (do return ofNat (← Reader.octets n).toNatLE) fun value octets =>
      octets = (Octets.ofNatLE n (toNat value)).toList := by
  refine map _ (octets n) ?_
  rintro a _ rfl
  rw [inverse a.toNatLE a.reverse.toNat_lt, Octets.ofNatLE_toNatLE]

theorem u8 : Takes Reader.u8 fun value octets => octets = [value] := by
  intro unread value rest h
  obtain ⟨octets, rfl, rfl⟩ := word (fun _ => UInt8.toNat_ofNat_of_lt') h
  exact ⟨_, toList_octet value, rfl⟩

theorem u16 : Takes Reader.u16 fun value octets => octets = Wire.u16 value :=
  word fun _ => UInt16.toNat_ofNat_of_lt'

theorem u32 : Takes Reader.u32 fun value octets => octets = Wire.u32 value :=
  word fun _ => UInt32.toNat_ofNat_of_lt'

theorem u64 : Takes Reader.u64 fun value octets => octets = Wire.u64 value :=
  word fun _ => UInt64.toNat_ofNat_of_lt'

theorem i64 : Takes Reader.i64 fun value octets => octets = Wire.i64 value := by
  refine map _ u64 ?_
  rintro word _ rfl
  rw [Wire.i64, UInt64.toUInt64_toInt64]

end Takes

/-! ## Failing -/

/-- Wherever the reader fails, the error has the property. -/
def FailsWith (reader : Reader ε α) (P : ε → Prop) : Prop :=
  ∀ ⦃unread e rest⦄, reader unread = .error e rest → P e

/-- Wherever the reader fails, octets are missing, and what it took by then and what it left over are related. -/
def Breaks (reader : Reader Error α) (broken : Bytes → Bytes → Prop) : Prop :=
  ∀ ⦃unread e rest⦄, reader unread = .error e rest →
    e = .unexpectedEnd ∧ ∃ taken, broken taken rest ∧ unread = taken ++ rest

/-- None of `n` octets is taken, for there are fewer. -/
def Short (n : Nat) (taken rest : Bytes) : Prop :=
  taken = [] ∧ rest.length < n

namespace Breaks

variable {reader : Reader Error α} {next : α → Reader Error β} {broken result : Bytes → Bytes → Prop}

theorem failsWith (breaks : Breaks reader broken) : FailsWith reader (· = .unexpectedEnd) :=
  fun _ _ _ h => (breaks h).1

theorem mono (breaks : Breaks reader broken) (imp : ∀ {taken rest}, broken taken rest → result taken rest) :
    Breaks reader result := by
  intro unread e rest h
  obtain ⟨ended, taken, broken, cut⟩ := breaks h
  exact ⟨ended, taken, imp broken, cut⟩

theorem pure (a : α) : Breaks (Pure.pure a) broken :=
  fun _ _ _ h => by cases h

/-- Two readers break where the first does, or behind what the first takes where the second does. -/
theorem bind {form : α → Bytes → Prop} {broken' : α → Bytes → Bytes → Prop} (takes : Takes reader form)
    (first : Breaks reader broken) (second : ∀ a, Breaks (next a) (broken' a))
    (early : ∀ {taken rest}, broken taken rest → result taken rest)
    (late : ∀ {a front taken rest}, form a front → broken' a taken rest → result (front ++ taken) rest) :
    Breaks (reader >>= next) result := by
  intro unread e rest h
  rcases bind_eq_error.1 h with failed | ⟨a, between, read, failed⟩
  · obtain ⟨ended, taken, breaks, cut⟩ := first failed
    exact ⟨ended, taken, early breaks, cut⟩
  · obtain ⟨front, written, cut⟩ := takes read
    obtain ⟨ended, taken, breaks, cut'⟩ := second a failed
    refine ⟨ended, front ++ taken, late written breaks, ?_⟩
    rw [cut, cut', List.append_assoc]

theorem map (f : α → β) (breaks : Breaks reader broken) : Breaks (do return f (← reader)) broken := by
  intro unread e rest h
  rcases bind_eq_error.1 h with failed | ⟨a, between, -, failed⟩
  · exact breaks failed
  · cases failed

theorem take (n : Nat) : Breaks (Reader.take n) (Short n) := by
  intro unread e rest h
  unfold Reader.take at h
  split_ifs at h with enough
  cases h
  exact ⟨rfl, [], ⟨rfl, Nat.not_le.1 enough⟩, rfl⟩

theorem octets (n : Nat) : Breaks (Reader.octets n) (Short n) := by
  intro unread e rest h
  unfold Reader.octets at h
  split_ifs at h with enough
  cases h
  exact ⟨rfl, [], ⟨rfl, Nat.not_le.1 enough⟩, rfl⟩

theorem u8 : Breaks Reader.u8 (Short 1) :=
  map _ (octets 1)

theorem u16 : Breaks Reader.u16 (Short 2) :=
  map _ (octets 2)

theorem u32 : Breaks Reader.u32 (Short 4) :=
  map _ (octets 4)

theorem u64 : Breaks Reader.u64 (Short 8) :=
  map _ (octets 8)

theorem i64 : Breaks Reader.i64 (Short 8) :=
  map _ u64

end Breaks

namespace FailsWith

variable {P : ε → Prop} {P' : ε' → Prop}

theorem pure (a : α) : FailsWith (Pure.pure a : Reader ε α) P :=
  fun _ _ _ h => by cases h

theorem bind (first : FailsWith reader P) (second : ∀ a, FailsWith (next a) P) :
    FailsWith (reader >>= next) P := by
  intro unread e rest h
  rcases bind_eq_error.1 h with h | ⟨a, between, -, h⟩
  · exact first h
  · exact second a h

theorem map (f : α → β) (fails : FailsWith reader P) : FailsWith (do return f (← reader)) P :=
  bind fails fun a => pure (f a)

theorem onError {f : ε → ε'} (fails : FailsWith reader P) (imp : ∀ e, P e → P' (f e)) :
    FailsWith (reader.onError f) P' := by
  intro unread e rest h
  obtain ⟨cause, rfl, failed⟩ := onError_eq_error.1 h
  exact imp cause (fails failed)

theorem many (fails : FailsWith reader P) (count : Nat) : FailsWith (Reader.many reader count) P := by
  induction count with
  | zero => exact pure []
  | succ count ih => exact bind fails fun head => map (head :: ·) ih

end FailsWith

end Bitcoin.Reader
