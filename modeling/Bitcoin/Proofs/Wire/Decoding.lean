import Bitcoin.Proofs.Wire.Cursor

/-! # The number in front of octets

A number is decoded exactly if the first octets are one of its forms, and nothing behind that form matters. So what is
written is decoded from the fewest octets that the number can be decoded from, and octets are refused only where they
are fewer than their first one announces.
-/

namespace Bitcoin

namespace Cursor

/-- Read a number, and tell how many octets it took: all that there are without those that are left. -/
def number : Stepwise Cursor Error (UInt64 × Nat) := do
  let value ← varInt
  let left ← remaining
  let cursor ← get
  let used ← Stepwise.required (if left ≤ cursor.data.length then some (cursor.data.length - left) else none)
  return (value, used)

end Cursor

namespace VarInt

open Stepwise

variable {value : UInt64} {used : Nat} {octets rest : Bytes} {e : Error}

theorem decode_of_ok (h : read octets = .ok value rest) :
    decode octets = .ok (value, octets.length - rest.length) := by
  rw [decode, EStateM.run, h]

theorem decode_of_error (h : read octets = .error e rest) : decode octets = .error e := by
  rw [decode, EStateM.run, h]

theorem decode_eq_ok :
    decode octets = .ok (value, used) ↔ used ≤ octets.length ∧ Written value (octets.take used) := by
  constructor
  · intro h
    cases run : read octets with
    | error e rest => cases (decode_of_error run).symm.trans h
    | ok value' rest =>
        obtain ⟨form, written, rfl⟩ := takes_read run
        cases (decode_of_ok run).symm.trans h
        rw [List.length_append, Nat.add_sub_cancel, List.take_left]
        exact ⟨Nat.le_add_right .., written⟩
  · rintro ⟨enough, written⟩
    have run : read octets = .ok value (octets.drop used) := by
      have reads := written.reads (octets.drop used)
      rwa [List.take_append_drop] at reads
    rw [decode_of_ok run, List.length_drop, Nat.sub_sub_self enough]

theorem decode_eq_error : decode octets = .error e ↔
    e = .unexpectedEnd ∧ ∀ first ∈ octets.head?, octets.length < announced first := by
  constructor
  · intro h
    cases run : read octets with
    | ok value rest => cases (decode_of_ok run).symm.trans h
    | error e' rest =>
        cases (decode_of_error run).symm.trans h
        obtain ⟨rfl, broken⟩ := breaks_read run
        obtain ⟨taken, cutOff, cut⟩ := broken
        exact ⟨rfl, exists_cutOff.1 ⟨taken, rest, cutOff, cut⟩⟩
  · rintro ⟨rfl, short⟩
    cases run : read octets with
    | error e rest => rw [decode_of_error run, (breaks_read run).1]
    | ok value rest =>
        -- Octets that are read begin with a form, which is as long as its first octet announces.
        obtain ⟨form, written, rfl⟩ := takes_read run
        obtain ⟨first, more, rfl, announces⟩ := written.announces
        have fewer := short first rfl
        rw [List.length_append] at fewer
        omega

theorem announced_eq (first : UInt8) :
    announced first = 1 ∨ announced first = 3 ∨ announced first = 5 ∨ announced first = 9 := by
  unfold announced
  split_ifs <;> decide

/-! ## What a number was decoded from -/

section Decoded

variable (h : decode octets = .ok (value, used))
include h

theorem length_take_of_decode : (octets.take used).length = used :=
  List.length_take_of_le (decode_eq_ok.1 h).1

theorem used_eq_of_decode : used = 1 ∨ used = 3 ∨ used = 5 ∨ used = 9 := by
  obtain ⟨first, more, -, announces⟩ := (decode_eq_ok.1 h).2.announces
  rw [length_take_of_decode h] at announces
  rw [announces]
  exact announced_eq first

theorem length_le_of_decode : length value ≤ used := by
  have shortest := (decode_eq_ok.1 h).2.length_le
  rwa [length_take_of_decode h] at shortest

theorem decode_of_take {other : Bytes} (same : other.take used = octets.take used) :
    decode other = .ok (value, used) := by
  have whole := length_take_of_decode h
  rw [← same, List.length_take] at whole
  refine decode_eq_ok.2 ⟨by omega, ?_⟩
  rw [same]
  exact (decode_eq_ok.1 h).2

theorem used_eq_length_iff : used = length value ↔ octets.take used = encode value := by
  have written := (decode_eq_ok.1 h).2
  constructor
  · intro shortest
    refine written.eq_encode ?_
    rw [length_take_of_decode h, shortest]
  · intro same
    rw [← length_encode, ← same, length_take_of_decode h]

end Decoded

theorem decode_encode_append (value : UInt64) (rest : Bytes) :
    decode (encode value ++ rest) = .ok (value, length value) := by
  refine decode_eq_ok.2 ⟨?_, ?_⟩
  · rw [List.length_append, length_encode]
    exact Nat.le_add_right ..
  · rw [← length_encode, List.take_left]
    exact written_encode value

/-- Reading at the beginning and counting what was taken is to decode. -/
theorem exists_number {indices : Nat} (fits : octets.length < indices) :
    ∃ reached, Cursor.number ⟨octets, 0, indices⟩ = some (decode octets, reached) := by
  let start : Cursor := ⟨octets, 0, indices⟩
  have inside : start.Inside := ⟨fits, Nat.zero_le _⟩
  cases run : read octets with
  | error e rest =>
      obtain ⟨-, stepped⟩ := Cursor.Follows.varInt.error inside run
      rw [decode_of_error run]
      exact ⟨start.upTo rest, bind_error stepped⟩
  | ok value rest =>
      obtain ⟨behind, stepped⟩ := Cursor.Follows.varInt.ok inside run
      have left := Cursor.remaining_upTo (ε := Error) inside behind
      have fewer : rest.length ≤ (start.upTo rest).data.length := behind.length_le
      refine ⟨start.upTo rest, (bind_ok stepped).trans ((bind_ok left).trans ?_)⟩
      show (Stepwise.required (if _ then _ else _) >>= fun used => pure (value, used) :
        Stepwise Cursor Error (UInt64 × Nat)) (start.upTo rest) = _
      rw [if_pos fewer, decode_of_ok run]
      rfl

/-- What is written for a number has its length and is decoded whatever stands behind it. Whatever octets a number
    is decoded from, they are no fewer, are all that matters, and are as few only if they are what is written for it.
    Octets are refused if there are fewer than the first one announces, and only then. At a cursor nothing is out of
    range. -/
theorem encode_shortest_decode_announced :
    (∀ (value : UInt64) (rest : Bytes), (encode value).length = length value ∧
      decode (encode value ++ rest) = .ok (value, length value)) ∧
    (∀ octets value used, decode octets = .ok (value, used) →
      (used = 1 ∨ used = 3 ∨ used = 5 ∨ used = 9) ∧ length value ≤ used ∧ used ≤ octets.length ∧
        (∀ other : Bytes, other.take used = octets.take used → decode other = .ok (value, used)) ∧
        (used = length value ↔ octets.take used = encode value)) ∧
    (∀ octets e, decode octets = .error e ↔
      e = .unexpectedEnd ∧ ∀ first ∈ octets.head?, octets.length < announced first) ∧
    ∀ (octets : Bytes) (indices : Nat), octets.length < indices →
      ∃ reached, Cursor.number ⟨octets, 0, indices⟩ = some (decode octets, reached) := by
  refine ⟨fun value rest => ⟨length_encode value, decode_encode_append value rest⟩, ?_,
    fun octets e => decode_eq_error, fun octets indices => exists_number⟩
  intro octets value used h
  exact ⟨used_eq_of_decode h, length_le_of_decode h, (decode_eq_ok.1 h).1, fun other => decode_of_take h,
    used_eq_length_iff h⟩

/-- One in three octets with one more behind them, which are more than its length; and two of the three. -/
theorem encode_shortest_decode_announced_padded :
    decode [0xfd, 1, 0, 7] = .ok (1, 3) ∧ length 1 < 3 ∧ [0xfd, 1, 0] ≠ encode 1 ∧
      decode [0xfd, 1, 0] = .ok (1, 3) ∧ decode (encode 1 ++ [7]) = .ok (1, 1) ∧
      decode [0xfd, 1] = .error .unexpectedEnd ∧
      ∃ reached, Cursor.number ⟨[0xfd, 1, 0, 7], 0, 5⟩ = some (.ok (1, 3), reached) := by
  have padded : decode [0xfd, 1, 0, 7] = .ok (1, 3) := rfl
  obtain ⟨written, decoded, refused, ranged⟩ := encode_shortest_decode_announced
  obtain ⟨-, shorter, -, only, shortest⟩ := decoded _ _ _ padded
  have long : length 1 ≠ 3 := by decide
  refine ⟨padded, lt_of_le_of_ne shorter long, ?_, only _ rfl, (written 1 [7]).2,
    (refused _ _).2 ⟨rfl, ?_⟩, ranged _ 5 (by decide)⟩
  · intro same
    exact long (shortest.2 same).symm
  · rintro _ ⟨⟩
    decide

end VarInt

end Bitcoin
