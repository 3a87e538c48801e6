import Bitcoin.Bytes.Subtract
import Bitcoin.Proofs.Digits
import Mathlib.Data.List.TakeWhile

/-! # Octet strings as numbers

Octet strings of one length are the numbers below a power of 256, and octet strings without leading
zeros are all the numbers there are. Subtracting column by column subtracts the numbers.
-/

namespace Bitcoin

/-! ## Leading zeros -/

section Leading

variable {α : Type} [DecidableEq α]

theorem takeWhile_eq_replicate (zero : α) (l : List α) :
    l.takeWhile (· = zero) = List.replicate (l.takeWhile (· = zero)).length zero := by
  refine List.eq_replicate_of_mem fun a member => ?_
  simpa using List.mem_takeWhile_imp member

theorem takeWhile_replicate_append {zero : α} (count : Nat) {l : List α} (trimmed : l.head? ≠ some zero) :
    (List.replicate count zero ++ l).takeWhile (· = zero) = List.replicate count zero := by
  have stop : l.takeWhile (· = zero) = [] := by
    cases l with
    | nil => rfl
    | cons a l =>
        have different : a ≠ zero := fun same => trimmed (congrArg some same)
        exact List.takeWhile_cons_of_neg (by simpa using different)
  rw [List.takeWhile_append_of_pos (by simp), stop, List.append_nil]

theorem head?_dropWhile_ne (zero : α) (l : List α) : (l.dropWhile (· = zero)).head? ≠ some zero := by
  intro head
  have stop := List.head?_dropWhile_not (· = zero) l
  rw [head] at stop
  simp at stop

end Leading

namespace Bytes

theorem digit_lt (bs : Bytes) : ∀ d ∈ bs.map UInt8.toNat, d < 256 := by
  intro d member
  obtain ⟨octet, -, rfl⟩ := List.mem_map.1 member
  exact octet.toNat_lt

theorem map_ofNat_map_toNat (bs : Bytes) : (bs.map UInt8.toNat).map UInt8.ofNat = bs := by
  simp [Function.comp_def]

theorem map_toNat_map_ofNat {digits : List Nat} (valid : ∀ d ∈ digits, d < 256) :
    (digits.map UInt8.ofNat).map UInt8.toNat = digits := by
  rw [List.map_map]
  calc
    digits.map (UInt8.toNat ∘ UInt8.ofNat) = digits.map id :=
      List.map_congr_left fun d member => UInt8.toNat_ofNat_of_lt' (valid d member)
    _ = digits := List.map_id digits

theorem toNat_lt (bs : Bytes) : toNat bs < 256 ^ bs.length := by
  have bound := Digits.toNat_lt (by decide) (digit_lt bs)
  rwa [List.length_map] at bound

theorem toNat_map_ofNat {digits : List Nat} (valid : ∀ d ∈ digits, d < 256) :
    toNat (digits.map UInt8.ofNat) = Digits.toNat 256 digits := by
  rw [toNat, map_toNat_map_ofNat valid]

theorem toNat_append (high low : Bytes) :
    toNat (high ++ low) = toNat high * 256 ^ low.length + toNat low := by
  rw [toNat, List.map_append, Digits.toNat_append, List.length_map]
  rfl

theorem toNat_cons (octet : UInt8) (bs : Bytes) :
    toNat (octet :: bs) = octet.toNat * 256 ^ bs.length + toNat bs := by
  have single : toNat [octet] = octet.toNat := by simp [toNat, Digits.toNat]
  have whole := toNat_append [octet] bs
  rwa [single] at whole

theorem toNat_eq_zero {bs : Bytes} : toNat bs = 0 ↔ ∀ octet ∈ bs, octet = 0 := by
  induction bs with
  | nil => simp [toNat, Digits.toNat]
  | cons octet bs ih =>
      rw [toNat_cons, List.forall_mem_cons, ← ih, ← UInt8.toNat_inj]
      simp

/-- Octet strings of one length that have the same value are equal. -/
theorem eq_of_toNat_eq {a b : Bytes} (length : a.length = b.length) (same : toNat a = toNat b) :
    a = b := by
  have digits := Digits.eq_of_toNat_eq (by decide) (by simpa using length) (digit_lt a) (digit_lt b) same
  rw [← map_ofNat_map_toNat a, digits, map_ofNat_map_toNat]

/-- Octet strings of one length are ordered, first octet first, as their values are. -/
theorem lt_iff_toNat_lt {a b : Bytes} (length : a.length = b.length) : a < b ↔ toNat a < toNat b := by
  induction a generalizing b with
  | nil =>
      cases b with
      | nil => simp
      | cons y b => cases length
  | cons x a ih =>
      cases b with
      | nil => cases length
      | cons y b =>
          simp only [List.length_cons, Nat.add_right_cancel_iff] at length
          have aSmall := toNat_lt a
          have bSmall := toNat_lt b
          rw [length] at aSmall
          rw [List.cons_lt_cons_iff, ih length, toNat_cons, toNat_cons, length, UInt8.lt_iff_toNat_lt,
            ← UInt8.toNat_inj]
          -- The first octets decide, unless they are equal.
          rcases Nat.lt_trichotomy x.toNat y.toNat with less | same | more
          · have gap := Nat.mul_le_mul_right (256 ^ b.length) less
            rw [Nat.succ_mul] at gap
            exact iff_of_true (.inl less) (by omega)
          · simp [same]
          · have gap := Nat.mul_le_mul_right (256 ^ b.length) more
            rw [Nat.succ_mul] at gap
            exact iff_of_false (by omega) (by omega)

theorem le_iff_toNat_le {a b : Bytes} (length : a.length = b.length) : a ≤ b ↔ toNat a ≤ toNat b := by
  rw [← List.not_lt, lt_iff_toNat_lt length.symm, Nat.not_lt]

@[simp] theorem toNat_replicate_zero_append (count : Nat) (bs : Bytes) :
    toNat (List.replicate count 0 ++ bs) = toNat bs := by
  rw [toNat, List.map_append, List.map_replicate]
  exact Digits.toNat_replicate_zero_append 256 count _

/-- The shortest octet string of a number has its value. -/
@[simp] theorem toNat_ofNat (n : Nat) : toNat (ofNat n) = n := by
  rw [ofNat, toNat_map_ofNat fun d => Digits.lt_of_mem_ofNat (by decide)]
  exact Digits.toNat_ofNat (by decide) n

@[simp] theorem ofNat_eq_nil {n : Nat} : ofNat n = [] ↔ n = 0 := by
  constructor
  · intro none
    rw [← toNat_ofNat n, none]
    rfl
  · rintro rfl
    simp [ofNat, Digits.ofNat_eq_digits]

theorem head?_ofNat_ne_zero (n : Nat) : (ofNat n).head? ≠ some 0 := by
  rw [ofNat, List.head?_map]
  intro zero
  obtain ⟨d, head, value⟩ := Option.map_eq_some_iff.1 zero
  have small : d < 256 := Digits.lt_of_mem_ofNat (by decide) (List.mem_of_mem_head? head)
  have same : d = 0 := by
    rw [← UInt8.toNat_ofNat_of_lt' small, value]
    rfl
  exact Digits.head?_ofNat_ne_zero (by decide) n (same ▸ head)

/-- An octet string without leading zeros is the shortest one of its value. -/
theorem ofNat_toNat {bs : Bytes} (trimmed : bs.head? ≠ some 0) : ofNat (toNat bs) = bs := by
  rw [ofNat, toNat, Digits.ofNat_toNat (by decide) (digit_lt bs), map_ofNat_map_toNat]
  rw [List.head?_map]
  intro zero
  obtain ⟨octet, head, value⟩ := Option.map_eq_some_iff.1 zero
  have same : octet = 0 := UInt8.toNat_inj.1 value
  exact trimmed (same ▸ head)

@[simp] theorem toNat_dropWhile_zero (bs : Bytes) : toNat (bs.dropWhile (· = 0)) = toNat bs := by
  conv_rhs => rw [← List.takeWhile_append_dropWhile (p := (· = 0)) (l := bs), takeWhile_eq_replicate]
  exact (toNat_replicate_zero_append _ _).symm

/-- Without its leading zeros an octet string is the shortest form of its value. -/
theorem dropWhile_zero (bs : Bytes) : bs.dropWhile (· = 0) = ofNat (toNat bs) := by
  rw [← toNat_dropWhile_zero, ofNat_toNat (head?_dropWhile_ne 0 bs)]

/-- An octet string is its leading zeros and the shortest form of its value. -/
theorem zeros_append_ofNat (bs : Bytes) : bs.takeWhile (· = 0) ++ ofNat (toNat bs) = bs := by
  rw [← dropWhile_zero, List.takeWhile_append_dropWhile]

/-- The shortest form of a number has as many octets as the number needs. -/
theorem length_ofNat_le {n width : Nat} : (ofNat n).length ≤ width ↔ n < 256 ^ width := by
  rw [ofNat, List.length_map, Digits.ofNat_eq_digits (by decide), List.length_reverse,
    Nat.digits_length_le_iff (by decide)]

end Bytes

namespace Octets

variable {n : Nat}

theorem toNat_lt (a : Octets n) : a.toNat < 256 ^ n := by
  have bound := Bytes.toNat_lt a.toList
  rwa [a.length_eq] at bound

/-- A fixed length keeps a number modulo a power of 256. -/
theorem toNat_ofNat (n value : Nat) : (ofNat n value).toNat = value % 256 ^ n := by
  rw [toNat, ofNat, Bytes.toNat_map_ofNat (Digits.lt_of_mem_fixed (by decide) n value),
    Digits.toNat_fixed]

theorem toNat_ofNat_of_lt {value : Nat} (small : value < 256 ^ n) : (ofNat n value).toNat = value := by
  rw [toNat_ofNat, Nat.mod_eq_of_lt small]

theorem toNat_inj {a b : Octets n} : a.toNat = b.toNat ↔ a = b := by
  constructor
  · intro same
    exact Octets.ext (Bytes.eq_of_toNat_eq (a.length_eq.trans b.length_eq.symm) same)
  · rintro rfl
    rfl

/-- Every octet string is the one of its length and value. -/
@[simp] theorem ofNat_toNat (a : Octets n) : ofNat n a.toNat = a :=
  toNat_inj.1 (toNat_ofNat_of_lt a.toNat_lt)

/-- The same, for octets whose number is known only by a proof. -/
theorem toList_ofNat_toNat {bs : Bytes} (length : bs.length = n) :
    (ofNat n (Bytes.toNat bs)).toList = bs :=
  congrArg toList (ofNat_toNat ⟨bs, length⟩)

theorem toNatLE_ofNatLE (n value : Nat) : (ofNatLE n value).toNatLE = value % 256 ^ n := by
  rw [toNatLE, ofNatLE, reverse_reverse, toNat_ofNat]

theorem ofNatLE_toNatLE (a : Octets n) : ofNatLE n a.toNatLE = a := by
  rw [ofNatLE, toNatLE, ofNat_toNat, reverse_reverse]

theorem toNat_padLeft {bs : Bytes} (fits : bs.length ≤ n) : (padLeft n bs).toNat = Bytes.toNat bs := by
  have whole : bs.drop (bs.length - n) = bs := by rw [Nat.sub_eq_zero_of_le fits, List.drop_zero]
  show Bytes.toNat (List.replicate (n - bs.length) 0 ++ bs.drop (bs.length - n)) = Bytes.toNat bs
  rw [whole, Bytes.toNat_replicate_zero_append]

/-! ## Subtraction -/

theorem toNat_reverse_cons (octet : UInt8) (bs : Bytes) :
    Bytes.toNat (octet :: bs).reverse = 256 * Bytes.toNat bs.reverse + octet.toNat := by
  rw [List.reverse_cons, Bytes.toNat_append, Nat.mul_comm]
  simp [Bytes.toNat, Digits.toNat]

/-- A column is an octet again once it has borrowed, and what it borrows is counted. -/
theorem column_balance (a b : UInt8) (borrow : Bool) {difference : Int}
    (value : columnDifference a b borrow = difference) :
    (UInt8.ofNat (if difference < 0 then difference + 256 else difference).toNat).toNat + b.toNat +
      borrow.toNat = a.toNat + 256 * (decide (difference < 0)).toNat := by
  have aSmall := a.toNat_lt
  have bSmall := b.toNat_lt
  have bit := borrow.toNat_le
  unfold columnDifference at value
  have width : UInt8.size = 256 := rfl
  by_cases short : difference < 0
  · rw [if_pos short, decide_eq_true short, UInt8.toNat_ofNat_of_lt' (by omega), Bool.toNat_true]
    omega
  · rw [if_neg short, decide_eq_false short, UInt8.toNat_ofNat_of_lt' (by omega), Bool.toNat_false]
    omega

/-- All columns together keep that balance: what is borrowed in the end is missing from the first
    number. -/
theorem subtractColumns_balance (borrow : Bool) (as bs : Bytes) (length : as.length = bs.length) :
    ∃ out : Bool, Bytes.toNat (subtractColumns borrow as bs).reverse + Bytes.toNat bs.reverse +
      borrow.toNat = Bytes.toNat as.reverse + out.toNat * 256 ^ as.length := by
  induction as generalizing borrow bs with
  | nil =>
      cases bs with
      | nil => exact ⟨borrow, by simp [subtractColumns, Bytes.toNat, Digits.toNat]⟩
      | cons b bs => simp at length
  | cons a as ih =>
      cases bs with
      | nil => simp at length
      | cons b bs =>
          have column := column_balance a b borrow rfl
          obtain ⟨out, rest⟩ := ih (columnDifference a b borrow < 0) bs (by simpa using length)
          refine ⟨out, ?_⟩
          simp only [subtractColumns, toNat_reverse_cons, List.length_cons, pow_succ]
          linarith

/-- Octets are subtracted modulo their power of 256. -/
theorem toNat_subtract (a b : Octets n) :
    (a.subtract b).toNat = if b.toNat ≤ a.toNat then a.toNat - b.toNat else 256 ^ n + a.toNat - b.toNat := by
  have length : a.toList.reverse.length = b.toList.reverse.length := by simp
  obtain ⟨out, balance⟩ := subtractColumns_balance false a.toList.reverse b.toList.reverse length
  have total : (a.subtract b).toNat + b.toNat = a.toNat + out.toNat * 256 ^ n := by
    simpa [toNat, subtract] using balance
  have bound := (a.subtract b).toNat_lt
  have bBound := b.toNat_lt
  cases out with
  | false =>
      simp only [Bool.toNat_false, Nat.zero_mul] at total
      split_ifs <;> omega
  | true =>
      simp only [Bool.toNat_true, Nat.one_mul] at total
      split_ifs <;> omega

end Octets

end Bitcoin
