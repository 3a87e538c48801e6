import Bitcoin.Digits
import Mathlib.Data.Nat.Digits.Lemmas

/-! # Positional notation as numbers

A digit list and the number that it denotes determine each other: among lists of one width every list of
digits is the fixed form of its value, and among all lists every one without leading zeros is the
shortest form of its value.
-/

namespace Bitcoin.Digits

variable {base : Nat}

theorem toNat_eq_ofDigits (base : Nat) (digits : List Nat) :
    toNat base digits = Nat.ofDigits base digits.reverse := by
  unfold toNat
  rw [Nat.ofDigits_eq_foldr, List.foldr_reverse]
  congr 1
  funext value digit
  simp [Nat.mul_comm, Nat.add_comm]

theorem toNat_append (base : Nat) (high low : List Nat) :
    toNat base (high ++ low) = toNat base high * base ^ low.length + toNat base low := by
  rw [toNat_eq_ofDigits, List.reverse_append, Nat.ofDigits_append, toNat_eq_ofDigits,
    toNat_eq_ofDigits, List.length_reverse, Nat.mul_comm, Nat.add_comm]

@[simp] theorem toNat_replicate_zero_append (base count : Nat) (digits : List Nat) :
    toNat base (List.replicate count 0 ++ digits) = toNat base digits := by
  rw [toNat_append, toNat_eq_ofDigits base (List.replicate count 0), List.reverse_replicate,
    Nat.ofDigits_replicate_zero, Nat.zero_mul, Nat.zero_add]

theorem toNat_lt (one_lt : 1 < base) {digits : List Nat} (valid : ∀ d ∈ digits, d < base) :
    toNat base digits < base ^ digits.length := by
  rw [toNat_eq_ofDigits, ← List.length_reverse]
  exact Nat.ofDigits_lt_base_pow_length one_lt (by simpa using valid)

/-- Two digit lists of one width that denote the same number are equal. -/
theorem eq_of_toNat_eq (one_lt : 1 < base) {a b : List Nat} (width : a.length = b.length)
    (validA : ∀ d ∈ a, d < base) (validB : ∀ d ∈ b, d < base) (same : toNat base a = toNat base b) :
    a = b := by
  rw [toNat_eq_ofDigits, toNat_eq_ofDigits] at same
  have reversed := Nat.ofDigits_inj_of_len_eq one_lt (by simpa using width) (by simpa using validA)
    (by simpa using validB) same
  exact List.reverse_inj.1 reversed

theorem foldl_pushFixed (base width n : Nat) (tail : List Nat) :
    (pushFixed base width n tail).foldl (fun value digit => value * base + digit) 0 =
      tail.foldl (fun value digit => value * base + digit) (n % base ^ width) := by
  induction width generalizing n tail with
  | zero => rw [pushFixed, Nat.pow_zero, Nat.mod_one]
  | succ width ih =>
      rw [pushFixed, ih, List.foldl_cons, Nat.pow_succ, Nat.mul_comm (base ^ width), Nat.mod_mul,
        Nat.mul_comm, Nat.add_comm]

/-- A fixed width keeps the number modulo a power of the base. -/
theorem toNat_fixed (base width n : Nat) : toNat base (fixed base width n) = n % base ^ width := by
  unfold toNat fixed
  rw [foldl_pushFixed]
  rfl

theorem lt_of_mem_pushFixed (pos : 0 < base) {width n : Nat} {tail : List Nat}
    (valid : ∀ d ∈ tail, d < base) : ∀ d ∈ pushFixed base width n tail, d < base := by
  induction width generalizing n tail with
  | zero => exact valid
  | succ width ih =>
      refine ih fun d member => ?_
      rcases List.mem_cons.1 member with rfl | member
      · exact Nat.mod_lt n pos
      · exact valid d member

theorem lt_of_mem_fixed (pos : 0 < base) (width n : Nat) : ∀ d ∈ fixed base width n, d < base :=
  lt_of_mem_pushFixed pos (by simp)

theorem push_eq_digits (two_le : 2 ≤ base) (n : Nat) (tail : List Nat) :
    push base two_le n tail = (Nat.digits base n).reverse ++ tail := by
  fun_induction push base two_le n tail with
  | case1 => simp
  | case2 n tail nonzero ih =>
      rw [ih, Nat.digits_def' two_le (Nat.pos_of_ne_zero nonzero), List.reverse_cons,
        List.append_assoc, List.singleton_append]

theorem ofNat_eq_digits (two_le : 2 ≤ base) (n : Nat) :
    ofNat base n = (Nat.digits base n).reverse := by
  rw [ofNat, dif_pos two_le, push_eq_digits, List.append_nil]

theorem lt_of_mem_ofNat (two_le : 2 ≤ base) {n d : Nat} (member : d ∈ ofNat base n) : d < base := by
  rw [ofNat_eq_digits two_le, List.mem_reverse] at member
  exact Nat.digits_lt_base two_le member

/-- The shortest form has no leading zero. -/
theorem head?_ofNat_ne_zero (two_le : 2 ≤ base) (n : Nat) : (ofNat base n).head? ≠ some 0 := by
  rw [ofNat_eq_digits two_le, List.head?_reverse]
  intro last
  have nonzero : n ≠ 0 := by
    rintro rfl
    simp at last
  have nonempty : Nat.digits base n ≠ [] := Nat.digits_ne_nil_iff_ne_zero.2 nonzero
  rw [List.getLast?_eq_some_getLast nonempty] at last
  exact Nat.getLast_digit_ne_zero base nonzero (Option.some.inj last)

/-- Every digit list without a leading zero is the shortest form of the number that it denotes. -/
theorem ofNat_toNat (two_le : 2 ≤ base) {digits : List Nat} (valid : ∀ d ∈ digits, d < base)
    (trimmed : digits.head? ≠ some 0) : ofNat base (toNat base digits) = digits := by
  rw [ofNat_eq_digits two_le, toNat_eq_ofDigits, Nat.digits_ofDigits base two_le,
    List.reverse_reverse]
  · simpa using valid
  · intro nonempty zero
    rw [List.getLast_reverse] at zero
    rw [List.head?_eq_some_head (by simpa using nonempty), zero] at trimmed
    exact trimmed rfl

end Bitcoin.Digits
