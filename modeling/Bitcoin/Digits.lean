/-! # Positional notation

The digits of a natural number in any base from two up, most significant digit first: the shortest
form (`ofNat`, no digits for zero), the form of a given width (`fixed`) and the value of a digit list
(`toNat`). Octet forms, Base58 and the texts of integers are all read off these three.
-/

namespace Bitcoin.Digits

/-- Put the digits of `n` in front of `tail`. -/
def push (base : Nat) (two_le : 2 ≤ base) (n : Nat) (tail : List Nat) : List Nat :=
  if _h : n = 0 then tail else push base two_le (n / base) (n % base :: tail)
termination_by n
decreasing_by exact Nat.div_lt_self (Nat.pos_of_ne_zero _h) two_le

/-- The shortest digit list of `n`. Zero has no digits, and so has every number in a base below
    two. -/
def ofNat (base n : Nat) : List Nat :=
  if h : 2 ≤ base then push base h n [] else []

/-- Put the last `width` digits of `n`, leading zeros included, in front of `tail`. -/
def pushFixed (base : Nat) : Nat → Nat → List Nat → List Nat
  | 0, _, tail => tail
  | width + 1, n, tail => pushFixed base width (n / base) (n % base :: tail)

/-- The last `width` digits of `n`, leading zeros included. -/
def fixed (base width n : Nat) : List Nat :=
  pushFixed base width n []

/-- The number that a digit list denotes. -/
def toNat (base : Nat) (digits : List Nat) : Nat :=
  digits.foldl (fun value digit => value * base + digit) 0

/-- Reading continues with the tail after the digits that were put in front of it. -/
theorem foldl_push (base : Nat) (two_le : 2 ≤ base) (n : Nat) (tail : List Nat) :
    (push base two_le n tail).foldl (fun value digit => value * base + digit) 0 =
      tail.foldl (fun value digit => value * base + digit) n := by
  fun_induction push base two_le n tail with
  | case1 => rfl
  | case2 n tail _ ih =>
      rw [ih, List.foldl_cons, Nat.mul_comm, Nat.div_add_mod]

theorem toNat_ofNat {base : Nat} (two_le : 2 ≤ base) (n : Nat) : toNat base (ofNat base n) = n := by
  unfold toNat ofNat
  rw [dif_pos two_le, foldl_push]
  rfl

theorem length_pushFixed (base width n : Nat) (tail : List Nat) :
    (pushFixed base width n tail).length = width + tail.length := by
  induction width generalizing n tail with
  | zero => simp [pushFixed]
  | succ width ih => simp [pushFixed, ih]; omega

@[simp] theorem length_fixed (base width n : Nat) : (fixed base width n).length = width := by
  simp [fixed, length_pushFixed]

end Bitcoin.Digits
