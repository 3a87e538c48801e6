import Bitcoin.Proofs.Signature.Components

/-! # Normalizing any octets

The octets of a signature may hold any number of 32 octets. The difference is computed in the octets
themselves, from the last position to the first, in signed words of 16 bits: no word overflows and no octet is
cut. What comes out is the group order less `s` modulo `2 ^ 256`, which is low for every `s` up to the order
and a number above the order for all others.
-/

namespace Bitcoin

/-! ## Subtracting where the octets stand -/

/-- A number that a signed word of 16 bits holds. -/
def word16? (x : Int) : Option Int :=
  if -0x8000 ≤ x ∧ x ≤ 0x7fff then some x else none

/-- The octet of a number, if it is not cut by that. -/
def octet? (x : Int) : Option UInt8 :=
  if 0 ≤ x ∧ x ≤ 0xff then some (UInt8.ofNat x.toNat) else none

namespace Bytes

/-- Put an octet at a position, which must be inside. -/
def put? (bs : Bytes) (position : Nat) (octet : UInt8) : Option Bytes :=
  if position < bs.length then some (bs.set position octet) else none

/-- Subtract at one position. The state is what has been written of the difference, and what was borrowed. -/
def subtractAt? (as bs : Bytes) (position : Nat) : Bytes × Int → Option (Bytes × Int)
  | (result, borrow) => do
      let a ← as[position]?
      let b ← bs[position]?
      let column ← word16? (a.toNat - b.toNat)
      let difference ← word16? (column - borrow)
      if difference < 0 then
        let filled ← word16? (difference + 256)
        return (← put? result position (← octet? filled), 1)
      else return (← put? result position (← octet? difference), 0)

/-- Subtract at all positions below one, the last of them first. -/
def subtractBelow? (as bs : Bytes) : Nat → Bytes × Int → Option (Bytes × Int)
  | 0, state => some state
  | position + 1, state => do subtractBelow? as bs position (← subtractAt? as bs position state)

end Bytes

/-- The difference, written into zeros. What is borrowed in the end is dropped. -/
def Octets.subtractByPosition? {n : Nat} (a b : Octets n) : Option (Octets n) := do
  let difference ← Prod.fst <$> Bytes.subtractBelow? a.toList b.toList n ((Octets.zero n).toList, 0)
  Octets.ofList? n difference

theorem word16?_eq_some {x : Int} (least : -0x8000 ≤ x) (most : x ≤ 0x7fff) : word16? x = some x :=
  if_pos ⟨least, most⟩

theorem octet?_eq_some {x : Int} (least : 0 ≤ x) (most : x ≤ 0xff) : octet? x = some (UInt8.ofNat x.toNat) :=
  if_pos ⟨least, most⟩

namespace Bytes

variable {as bs result : Bytes} {position : Nat}

theorem put?_eq_some (inside : position < result.length) (octet : UInt8) :
    put? result position octet = some (result.set position octet) :=
  if_pos inside

/-- A column lies between -256 and 255, and borrowing brings it into the range of an octet. -/
theorem subtractAt?_eq_some (insideA : position < as.length) (insideB : position < bs.length)
    (inside : position < result.length) (borrow : Bool) {difference : Int}
    (value : columnDifference as[position] bs[position] borrow = difference) :
    subtractAt? as bs position (result, borrow.toNat) =
      some (result.set position (UInt8.ofNat (if difference < 0 then difference + 256 else difference).toNat),
        ((decide (difference < 0)).toNat : Int)) := by
  have aSmall := as[position].toNat_lt
  have bSmall := bs[position].toNat_lt
  have bit := borrow.toNat_le
  unfold columnDifference at value
  unfold subtractAt?
  simp only [List.getElem?_eq_getElem insideA, List.getElem?_eq_getElem insideB, Option.bind_eq_bind,
    Option.bind_some]
  rw [word16?_eq_some (by omega) (by omega), Option.bind_some, value, word16?_eq_some (by omega) (by omega),
    Option.bind_some]
  by_cases short : difference < 0
  · rw [if_pos short, if_pos short, decide_eq_true short, word16?_eq_some (by omega) (by omega), Option.bind_some,
      octet?_eq_some (by omega) (by omega), Option.bind_some, put?_eq_some inside]
    rfl
  · rw [if_neg short, if_neg short, decide_eq_false short, octet?_eq_some (by omega) (by omega), Option.bind_some,
      put?_eq_some inside]
    rfl

/-- Below a position the columns are written one in front of the other, and from it on all stays as it is. -/
theorem subtractBelow?_eq_some (length : as.length = bs.length) (width : result.length = as.length)
    (inside : position ≤ as.length) (borrow : Bool) :
    Prod.fst <$> subtractBelow? as bs position (result, borrow.toNat) =
      some ((subtractColumns borrow (as.take position).reverse (bs.take position).reverse).reverse ++
        result.drop position) := by
  induction position generalizing result borrow with
  | zero => rfl
  | succ position ih =>
      -- What has been written starts behind `position`, and the octet of this step joins it in front.
      have insideB : position < bs.length := length ▸ inside
      have insideResult : position < result.length := width ▸ inside
      have step := subtractAt?_eq_some inside insideB insideResult borrow rfl
      have columns {l : Bytes} (inside : position < l.length) :
          (l.take (position + 1)).reverse = l[position] :: (l.take position).reverse := by
        rw [← List.take_concat_get' l position inside, List.reverse_concat]
      have written (octet : UInt8) :
          (result.set position octet).drop position = octet :: result.drop (position + 1) := by
        rw [List.drop_eq_getElem_cons (by rwa [List.length_set]), List.getElem_set_self,
          List.drop_set_of_lt (Nat.lt_succ_self position)]
      rw [subtractBelow?, step, Option.bind_eq_bind, Option.bind_some,
        ih (by rw [List.length_set, width]) (Nat.le_of_lt inside), written, columns inside, columns insideB,
        subtractColumns, List.reverse_cons, List.append_assoc, List.singleton_append]

end Bytes

namespace Octets

variable {n : Nat}

/-- No position is outside, no word overflows and no octet is cut: the difference comes out. -/
theorem subtractByPosition?_eq_some (a b : Octets n) : a.subtractByPosition? b = some (a.subtract b) := by
  have written : Prod.fst <$> Bytes.subtractBelow? a.toList b.toList n ((zero n).toList, (false.toNat : Int)) = _ :=
    Bytes.subtractBelow?_eq_some (by simp) (by simp) (by simp) false
  rw [List.take_of_length_le a.length_eq.le, List.take_of_length_le b.length_eq.le,
    List.drop_eq_nil_of_le (zero n).length_eq.le, List.append_nil] at written
  unfold subtractByPosition?
  have start : ((false.toNat : Nat) : Int) = 0 := rfl
  rw [← start, written]
  exact ofList?_toList (a.subtract b)

/-- What is dropped in the end is a multiple of the power of 256. -/
theorem toNat_subtract_eq_emod (a b : Octets n) :
    ((a.subtract b).toNat : Int) = ((a.toNat : Int) - b.toNat) % 256 ^ n := by
  have aSmall := a.toNat_lt
  have bSmall := b.toNat_lt
  have width : ((256 ^ n : Nat) : Int) = 256 ^ n := by push_cast; rfl
  rw [toNat_subtract, ← width]
  split_ifs with ordered
  · rw [Int.emod_eq_of_lt (by omega) (by omega), Nat.cast_sub ordered]
  · rw [← Int.add_emod_right, Int.emod_eq_of_lt (by omega) (by omega)]
    omega

end Octets

namespace Signature

variable {sig : Signature}

/-- Half the group order in 32 octets. -/
def halfOctets : Octets 32 :=
  Octets.ofNat 32 halfOrder

/-- Normalizing with octets compared one by one, first octet first, and subtracted where they stand. -/
def normalizeByPosition? (sig : Signature) : Option Signature :=
  if sig.s.toList ≤ halfOctets.toList then some sig
  else do return { sig with s := ← orderOctets.subtractByPosition? sig.s }

theorem groupOrder_eq : groupOrder = 2 * halfOrder + 1 := by
  decide

theorem isLowS_eq_true : sig.isLowS = true ↔ sig.s.toNat ≤ halfOrder :=
  decide_eq_true_iff

/-- The first octets that differ decide which of two numbers in 32 octets is less. -/
theorem le_halfOctets : sig.s.toList ≤ halfOctets.toList ↔ sig.isLowS = true := by
  have value : Bytes.toNat halfOctets.toList = halfOrder := Octets.toNat_ofNat_of_lt (by decide)
  rw [isLowS_eq_true, Bytes.le_iff_toNat_le (by simp), value]
  rfl

theorem normalizeByPosition?_eq_some (sig : Signature) : normalizeByPosition? sig = some sig.normalizeS := by
  unfold normalizeByPosition? normalizeS
  simp only [le_halfOctets, Octets.subtractByPosition?_eq_some]
  split_ifs <;> rfl

/-! ## The normalized number -/

theorem r_normalizeS (sig : Signature) : sig.normalizeS.r = sig.r := by
  unfold normalizeS
  split_ifs <;> rfl

theorem normalizeS_of_low (low : sig.s.toNat ≤ halfOrder) : sig.normalizeS = sig :=
  if_pos (isLowS_eq_true.2 low)

theorem toNat_normalizeS_of_high (high : halfOrder < sig.s.toNat) : sig.normalizeS.s.toNat =
    if sig.s.toNat ≤ groupOrder then groupOrder - sig.s.toNat else 256 ^ 32 + groupOrder - sig.s.toNat := by
  have notLow : ¬sig.isLowS = true := isLowS_eq_true.not.2 (Nat.not_le.2 high)
  unfold normalizeS
  rw [if_neg notLow, Octets.toNat_subtract, toNat_orderOctets]

theorem eq_of_toNat_eq {sig' : Signature} (first : sig.r = sig'.r) (second : sig.s.toNat = sig'.s.toNat) :
    sig = sig' := by
  cases sig
  cases sig'
  cases first
  cases Octets.toNat_inj.1 second
  rfl

theorem toNat_opposite (below : sig.s.toNat ≤ groupOrder) :
    sig.opposite.s.toNat = groupOrder - sig.s.toNat := by
  have fits : groupOrder < 256 ^ 32 := by decide
  exact Octets.toNat_ofNat_of_lt (by omega)

theorem isLowS_of_upToOrder (high : halfOrder < sig.s.toNat) (below : sig.s.toNat ≤ groupOrder) :
    sig.normalizeS.isLowS = true := by
  have order := groupOrder_eq
  rw [isLowS_eq_true, toNat_normalizeS_of_high high, if_pos below]
  omega

/-- Above the order the difference wraps around, and stays above the order. -/
theorem above_of_above (above : groupOrder < sig.s.toNat) : groupOrder < sig.normalizeS.s.toNat := by
  have order := groupOrder_eq
  have small := sig.s.toNat_lt
  rw [toNat_normalizeS_of_high (by omega), if_neg (by omega)]
  omega

theorem normalizeS_toNat_range (inRange : InRange sig.s) :
    1 ≤ sig.normalizeS.s.toNat ∧ sig.normalizeS.s.toNat ≤ halfOrder := by
  have order := groupOrder_eq
  obtain ⟨positive, below⟩ := inRange
  rcases Nat.lt_or_ge halfOrder sig.s.toNat with high | low
  · rw [toNat_normalizeS_of_high high, if_pos below.le]
    omega
  · rw [normalizeS_of_low low]
    exact ⟨positive, low⟩

/-- Of a number and its difference to the order, the low one is what both are normalized to. -/
theorem normalizeS_opposite (inRange : InRange sig.s) : sig.opposite.normalizeS = sig.normalizeS := by
  have order := groupOrder_eq
  obtain ⟨positive, below⟩ := inRange
  have other := toNat_opposite below.le
  rcases Nat.lt_or_ge halfOrder sig.s.toNat with high | low
  · have low : sig.opposite.s.toNat ≤ halfOrder := by omega
    rw [normalizeS_of_low low]
    apply eq_of_toNat_eq
    · exact (r_normalizeS sig).symm
    · rw [other, toNat_normalizeS_of_high high, if_pos below.le]
  · have high : halfOrder < sig.opposite.s.toNat := by omega
    rw [normalizeS_of_low low]
    apply eq_of_toNat_eq
    · exact r_normalizeS sig.opposite
    · rw [toNat_normalizeS_of_high high, if_pos (by omega), other]
      omega

/-- Comparing and subtracting octet by octet has an outcome for any octets, and it is the difference modulo `2
    ^ 256` where `s` is high. So `r` stays, a low `s` stays, one up to the order becomes low, and one above
    the order becomes another number above the order. Of the numbers in range, which stay in range, one and
    its difference to the order are normalized alike, and once is enough. -/
theorem normalizeS_exact (sig : Signature) :
    sig.normalizeByPosition? = some sig.normalizeS ∧
    (∀ s : Octets 32, orderOctets.subtractByPosition? s = some (orderOctets.subtract s) ∧
      ((orderOctets.subtract s).toNat : Int) = ((groupOrder : Int) - s.toNat) % 2 ^ 256) ∧
    sig.normalizeS.r = sig.r ∧
    (sig.s.toNat ≤ groupOrder / 2 → sig.normalizeS = sig) ∧
    (groupOrder / 2 < sig.s.toNat → sig.s.toNat ≤ groupOrder →
      sig.normalizeS.s.toNat = groupOrder - sig.s.toNat ∧ sig.normalizeS.isLowS = true) ∧
    (groupOrder < sig.s.toNat →
      sig.normalizeS.s.toNat = 2 ^ 256 + groupOrder - sig.s.toNat ∧ groupOrder < sig.normalizeS.s.toNat ∧
      sig.normalizeS.isLowS = false ∧ component? sig.normalizeS.s = none) ∧
    (1 ≤ sig.s.toNat → sig.s.toNat < groupOrder →
      sig.normalizeS.normalizeS = sig.normalizeS ∧ sig.opposite.normalizeS = sig.normalizeS ∧
      1 ≤ sig.normalizeS.s.toNat ∧ sig.normalizeS.s.toNat ≤ groupOrder / 2) := by
  have order := groupOrder_eq
  rw [← halfOrder_eq]
  refine ⟨normalizeByPosition?_eq_some sig, fun s => ⟨Octets.subtractByPosition?_eq_some _ _, ?_⟩,
    r_normalizeS sig, normalizeS_of_low, fun high below => ⟨?_, isLowS_of_upToOrder high below⟩,
    fun above => ?_, fun positive below => ?_⟩
  · rw [Octets.toNat_subtract_eq_emod, toNat_orderOctets]
    rfl
  · rw [toNat_normalizeS_of_high high, if_pos below]
  · have stays := above_of_above above
    refine ⟨?_, stays, ?_, dif_neg (Nat.not_lt.2 stays.le)⟩
    · rw [toNat_normalizeS_of_high (by omega), if_neg (Nat.not_le.2 above)]
      rfl
    · rw [Bool.eq_false_iff, ne_eq, isLowS_eq_true]
      omega
  · have range := normalizeS_toNat_range ⟨positive, below⟩
    exact ⟨normalizeS_of_low range.2, normalizeS_opposite ⟨positive, below⟩, range⟩

/-- A signature with a given number for `s`. -/
def withS (s : Nat) : Signature :=
  ⟨Octets.ofNat 32 1, Octets.ofNat 32 s⟩

/-- The least high number, the order itself and the number above it. -/
theorem normalizeS_exact_edges :
    ((withS (halfOrder + 1)).normalizeS.s.toNat = halfOrder ∧
      (withS (halfOrder + 1)).opposite.normalizeS = (withS (halfOrder + 1)).normalizeS) ∧
    ((withS groupOrder).normalizeS.s.toNat = 0 ∧ (withS groupOrder).normalizeS.isLowS = true) ∧
    (withS (groupOrder + 1)).normalizeS.s.toNat = 2 ^ 256 - 1 ∧
      component? (withS (groupOrder + 1)).normalizeS.s = none := by
  have value (s : Nat) (fits : s < 256 ^ 32) : (withS s).s.toNat = s := Octets.toNat_ofNat_of_lt fits
  have least := value (halfOrder + 1) (by decide)
  have order := value groupOrder (by decide)
  have above := value (groupOrder + 1) (by decide)
  obtain ⟨-, -, -, -, high, -, inRange⟩ := normalizeS_exact (withS (halfOrder + 1))
  obtain ⟨-, -, -, -, upToOrder, -, -⟩ := normalizeS_exact (withS groupOrder)
  obtain ⟨-, -, -, -, -, wrapped, -⟩ := normalizeS_exact (withS (groupOrder + 1))
  rw [least] at high inRange
  rw [order] at upToOrder
  rw [above] at wrapped
  obtain ⟨difference, -⟩ := high (by decide) (by decide)
  obtain ⟨-, alike, -⟩ := inRange (by decide) (by decide)
  obtain ⟨zero, low⟩ := upToOrder (by decide) (by decide)
  obtain ⟨most, -, -, impossible⟩ := wrapped (by decide)
  exact ⟨⟨difference, alike⟩, ⟨zero, low⟩, most, impossible⟩

end Signature

end Bitcoin
