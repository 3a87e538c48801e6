import Bitcoin.Proofs.Wire.VarInt

/-! # Reading at a position

Octets in memory stay where they are, and a position in them says how far reading has come. The sum of two positions
can be too large for an index, the end of a slice can lie outside, and there may be no difference of two positions;
unless a check stands in front, reading then has no outcome at all. It always has one: from a position inside, reading
at a position answers as reading from what is unread does, and stays inside.
-/

namespace Bitcoin

/-- Steps that change a state, also where they fail. They have no outcome where something is out of range. -/
abbrev Stepwise (σ ε α : Type) := ExceptT ε (StateT σ Option) α

namespace Stepwise

variable {σ ε ε' α β : Type} {steps : Stepwise σ ε α} {next : α → Stepwise σ ε β} {state state' : σ}

/-- Go on with something that has to be there. -/
def required (value : Option α) : Stepwise σ ε α :=
  ExceptT.lift (StateT.lift value)

def onError (f : ε → ε') (steps : Stepwise σ ε α) : Stepwise σ ε' α :=
  ExceptT.adapt f steps

theorem bind_ok {a : α} (h : steps state = some (.ok a, state')) : (steps >>= next) state = next a state' := by
  show (steps state >>= fun outcome => ExceptT.bindCont next outcome.1 outcome.2) = _
  rw [h]
  rfl

theorem bind_error {e : ε} (h : steps state = some (.error e, state')) :
    (steps >>= next) state = some (.error e, state') := by
  show (steps state >>= fun outcome => ExceptT.bindCont next outcome.1 outcome.2) = _
  rw [h]
  rfl

theorem onError_ok {f : ε → ε'} {a : α} (h : steps state = some (.ok a, state')) :
    steps.onError f state = some (.ok a, state') := by
  show (steps state >>= fun outcome => some (Except.mapError f outcome.1, outcome.2)) = _
  rw [h]
  rfl

theorem onError_error {f : ε → ε'} {e : ε} (h : steps state = some (.error e, state')) :
    steps.onError f state = some (.error (f e), state') := by
  show (steps state >>= fun outcome => some (Except.mapError f outcome.1, outcome.2)) = _
  rw [h]
  rfl

end Stepwise

/-- Octets with a position in them, for a machine whose indices are the numbers below `indices`. -/
structure Cursor where
  data : Bytes
  position : Nat
  indices : Nat

namespace Cursor

open Stepwise

/-! ## Reading -/

/-- The octets between two positions. -/
def slice? (data : Bytes) (start stop : Nat) : Option Bytes :=
  if start ≤ stop ∧ stop ≤ data.length then some ((data.drop start).take (stop - start)) else none

def take (n : Nat) : Stepwise Cursor Error Bytes := do
  let cursor ← get
  let stop := cursor.position + n
  if cursor.indices ≤ stop then throw .unexpectedEnd
  else if cursor.data.length < stop then throw .unexpectedEnd
  else do
    let octets ← required (slice? cursor.data cursor.position stop)
    set { cursor with position := stop }
    return octets

/-- Copy into an array, which must be as long as what is copied. -/
def octets (n : Nat) : Stepwise Cursor Error (Octets n) := do
  required (Octets.ofList? n (← take n))

def u8 : Stepwise Cursor Error UInt8 := do
  return UInt8.ofNat (← octets 1).toNatLE

def u16 : Stepwise Cursor Error UInt16 := do
  return UInt16.ofNat (← octets 2).toNatLE

def u32 : Stepwise Cursor Error UInt32 := do
  return UInt32.ofNat (← octets 4).toNatLE

def u64 : Stepwise Cursor Error UInt64 := do
  return UInt64.ofNat (← octets 8).toNatLE

def i64 : Stepwise Cursor Error Int64 := do
  return (← u64).toInt64

def varInt : Stepwise Cursor Error UInt64 := do
  let first ← u8
  if first = 0xff then u64
  else if first = 0xfe then return (← u32).toUInt64
  else if first = 0xfd then return (← u16).toUInt64
  else return first.toUInt64

/-- A length as an index, if it is one. -/
def index (length : UInt64) : Stepwise Cursor Error Nat := do
  let cursor ← get
  if cursor.indices ≤ length.toNat then throw .unexpectedEnd else return length.toNat

def varBytes : Stepwise Cursor Error Bytes := do
  let length ← varInt
  take (← index length)

/-- How many octets are unread. -/
def remaining {ε : Type} : Stepwise Cursor ε Nat := do
  let cursor ← get
  required (if cursor.position ≤ cursor.data.length then some (cursor.data.length - cursor.position) else none)

/-! ## What is unread -/

def unread (cursor : Cursor) : Bytes :=
  cursor.data.drop cursor.position

/-- The octets are in memory, and the position is at one of them or behind the last. -/
structure Inside (cursor : Cursor) : Prop where
  fits : cursor.data.length < cursor.indices
  position_le : cursor.position ≤ cursor.data.length

/-- The cursor moved on to where some last octets begin. -/
def upTo (cursor : Cursor) (rest : Bytes) : Cursor :=
  { cursor with position := cursor.data.length - rest.length }

variable {cursor : Cursor} {rest rest' : Bytes} {ε ε' α β : Type}

theorem Inside.length_unread (inside : cursor.Inside) :
    cursor.position + cursor.unread.length = cursor.data.length := by
  rw [unread, List.length_drop]
  exact Nat.add_sub_cancel' inside.position_le

theorem Inside.upTo (inside : cursor.Inside) (rest : Bytes) : (cursor.upTo rest).Inside :=
  ⟨inside.fits, Nat.sub_le ..⟩

theorem upTo_unread (inside : cursor.Inside) : cursor.upTo cursor.unread = cursor := by
  have position : cursor.data.length - cursor.unread.length = cursor.position := by
    rw [← inside.length_unread, Nat.add_sub_cancel]
  rw [upTo, position]

theorem unread_upTo (behind : rest <:+ cursor.unread) : (cursor.upTo rest).unread = rest :=
  (List.suffix_iff_eq_drop.1 (behind.trans (List.drop_suffix ..))).symm

/-- Moving on spends the octets that are left behind. -/
theorem position_upTo (inside : cursor.Inside) (behind : rest <:+ cursor.unread) :
    (cursor.upTo rest).position + rest.length = cursor.position + cursor.unread.length := by
  have shorter := behind.length_le
  have whole := inside.length_unread
  show cursor.data.length - rest.length + rest.length = _
  omega

/-! ## Nothing is out of range -/

theorem take_eq_ok {n : Nat} (inside : cursor.Inside) (enough : n ≤ cursor.unread.length) :
    take n cursor = some (.ok (cursor.unread.take n), cursor.upTo (cursor.unread.drop n)) := by
  have whole := inside.length_unread
  have fits := inside.fits
  have stop : cursor.upTo (cursor.unread.drop n) = { cursor with position := cursor.position + n } := by
    rw [upTo, List.length_drop]
    congr 1
    omega
  rw [stop]
  show (if cursor.indices ≤ cursor.position + n then _ else _ : Stepwise Cursor Error Bytes) cursor = _
  rw [if_neg (by omega), if_neg (by omega), slice?, if_pos (by omega), Nat.add_sub_cancel_left]
  rfl

/-- Where the sum is too large for an index, it is also behind the end. -/
theorem take_eq_error {n : Nat} (inside : cursor.Inside) (short : ¬n ≤ cursor.unread.length) :
    take n cursor = some (.error .unexpectedEnd, cursor) := by
  have whole := inside.length_unread
  show (if cursor.indices ≤ cursor.position + n then _ else _ : Stepwise Cursor Error Bytes) cursor = _
  rw [if_pos (show cursor.data.length < cursor.position + n by omega), ite_self]
  rfl

theorem index_eq_ok {length : UInt64} (small : length.toNat < cursor.indices) :
    index length cursor = some (.ok length.toNat, cursor) := by
  show (if cursor.indices ≤ length.toNat then _ else _ : Stepwise Cursor Error Nat) cursor = _
  rw [if_neg (Nat.not_le.2 small)]
  rfl

theorem index_eq_error {length : UInt64} (large : cursor.indices ≤ length.toNat) :
    index length cursor = some (.error .unexpectedEnd, cursor) := by
  show (if cursor.indices ≤ length.toNat then _ else _ : Stepwise Cursor Error Nat) cursor = _
  rw [if_pos large]
  rfl

/-- Inside there is always a difference of the end and the position. -/
theorem remaining_eq (inside : cursor.Inside) :
    (remaining : Stepwise Cursor ε Nat) cursor = some (.ok cursor.unread.length, cursor) := by
  have stepped : (remaining : Stepwise Cursor ε Nat) cursor = (required (if cursor.position ≤ cursor.data.length then
      some (cursor.data.length - cursor.position) else none) : Stepwise Cursor ε Nat) cursor := rfl
  rw [stepped, if_pos inside.position_le, unread, List.length_drop]
  rfl

theorem remaining_upTo (inside : cursor.Inside) (behind : rest <:+ cursor.unread) :
    (remaining : Stepwise Cursor ε Nat) (cursor.upTo rest) = some (.ok rest.length, cursor.upTo rest) := by
  rw [remaining_eq (inside.upTo rest), unread_upTo behind]

/-! ## Steps and readers -/

/-- The steps come to what the reader comes to with the octets that are unread, and move on to the rest. -/
structure Follows (steps : Stepwise Cursor ε α) (reader : Reader ε α) : Prop where
  ok : ∀ {cursor a rest}, cursor.Inside → reader cursor.unread = .ok a rest →
    rest <:+ cursor.unread ∧ steps cursor = some (.ok a, cursor.upTo rest)
  error : ∀ {cursor e rest}, cursor.Inside → reader cursor.unread = .error e rest →
    rest <:+ cursor.unread ∧ steps cursor = some (.error e, cursor.upTo rest)

namespace Follows

variable {steps : Stepwise Cursor ε α} {reader : Reader ε α} {next : α → Stepwise Cursor ε β}
  {nextReader : α → Reader ε β}

theorem pure (a : α) : Follows (Pure.pure a : Stepwise Cursor ε α) (Pure.pure a) := by
  constructor
  · intro cursor a' rest inside h
    obtain ⟨rfl, rfl⟩ := Reader.pure_eq_ok.1 h
    rw [upTo_unread inside]
    exact ⟨List.suffix_refl _, rfl⟩
  · intro cursor e rest _ h
    cases h

theorem bind (first : Follows steps reader) (second : ∀ a, Follows (next a) (nextReader a)) :
    Follows (steps >>= next) (reader >>= nextReader) := by
  constructor
  · intro cursor b rest inside h
    obtain ⟨a, between, read, h⟩ := Reader.bind_eq_ok.1 h
    obtain ⟨behind, stepped⟩ := first.ok inside read
    rw [← unread_upTo behind] at h
    obtain ⟨behind', stepped'⟩ := (second a).ok (inside.upTo between) h
    rw [unread_upTo behind] at behind'
    exact ⟨behind'.trans behind, (bind_ok stepped).trans stepped'⟩
  · intro cursor e rest inside h
    rcases Reader.bind_eq_error.1 h with read | ⟨a, between, read, h⟩
    · obtain ⟨behind, stepped⟩ := first.error inside read
      exact ⟨behind, bind_error stepped⟩
    · obtain ⟨behind, stepped⟩ := first.ok inside read
      rw [← unread_upTo behind] at h
      obtain ⟨behind', stepped'⟩ := (second a).error (inside.upTo between) h
      rw [unread_upTo behind] at behind'
      exact ⟨behind'.trans behind, (bind_ok stepped).trans stepped'⟩

theorem map (f : α → β) (follows : Follows steps reader) :
    Follows (do return f (← steps)) (do return f (← reader)) :=
  bind follows fun a => pure (f a)

theorem onError (f : ε → ε') (follows : Follows steps reader) :
    Follows (steps.onError f) (reader.onError f) := by
  constructor
  · intro cursor a rest inside h
    obtain ⟨behind, stepped⟩ := follows.ok inside (Reader.onError_eq_ok.1 h)
    exact ⟨behind, onError_ok stepped⟩
  · intro cursor e rest inside h
    obtain ⟨cause, rfl, read⟩ := Reader.onError_eq_error.1 h
    obtain ⟨behind, stepped⟩ := follows.error inside read
    exact ⟨behind, onError_error stepped⟩

theorem take (n : Nat) : Follows (Cursor.take n) (Reader.take n) := by
  constructor
  · intro cursor octets rest inside h
    unfold Reader.take at h
    split_ifs at h with enough
    cases h
    exact ⟨List.drop_suffix .., take_eq_ok inside enough⟩
  · intro cursor e rest inside h
    unfold Reader.take at h
    split_ifs at h with enough
    cases h
    rw [upTo_unread inside]
    exact ⟨List.suffix_refl _, take_eq_error inside enough⟩

/-- What is taken fills the array. -/
theorem octets (n : Nat) : Follows (Cursor.octets n) (Reader.octets n) := by
  constructor
  · intro cursor a rest inside h
    unfold Reader.octets at h
    split_ifs at h with enough
    cases h
    refine ⟨List.drop_suffix .., (bind_ok (take_eq_ok inside enough)).trans ?_⟩
    rw [Octets.ofList?, dif_pos (List.length_take_of_le enough)]
    rfl
  · intro cursor e rest inside h
    unfold Reader.octets at h
    split_ifs at h with enough
    cases h
    rw [upTo_unread inside]
    exact ⟨List.suffix_refl _, bind_error (take_eq_error inside enough)⟩

theorem u8 : Follows Cursor.u8 Reader.u8 :=
  map _ (octets 1)

theorem u16 : Follows Cursor.u16 Reader.u16 :=
  map _ (octets 2)

theorem u32 : Follows Cursor.u32 Reader.u32 :=
  map _ (octets 4)

theorem u64 : Follows Cursor.u64 Reader.u64 :=
  map _ (octets 8)

theorem i64 : Follows Cursor.i64 Reader.i64 :=
  map _ u64

theorem varInt : Follows Cursor.varInt VarInt.read := by
  refine bind u8 fun first => ?_
  split_ifs
  · exact u64
  · exact map _ u32
  · exact map _ u16
  · exact pure _

/-- A length that is no index is more than all octets in memory. -/
theorem takeIndex (length : UInt64) : Follows (do Cursor.take (← index length)) (Reader.take length.toNat) := by
  constructor
  · intro cursor octets rest inside h
    have enough : length.toNat ≤ cursor.unread.length := by
      by_contra short
      rw [Reader.take, if_neg short] at h
      cases h
    have whole := inside.length_unread
    have fits := inside.fits
    obtain ⟨behind, taken⟩ := (take length.toNat).ok inside h
    exact ⟨behind, (bind_ok (index_eq_ok (by omega))).trans taken⟩
  · intro cursor e rest inside h
    by_cases large : cursor.indices ≤ length.toNat
    · unfold Reader.take at h
      split_ifs at h
      cases h
      rw [upTo_unread inside]
      exact ⟨List.suffix_refl _, bind_error (index_eq_error large)⟩
    · obtain ⟨behind, missed⟩ := (take length.toNat).error inside h
      exact ⟨behind, (bind_ok (index_eq_ok (Nat.not_le.1 large))).trans missed⟩

theorem varBytes : Follows Cursor.varBytes Reader.varBytes :=
  bind varInt takeIndex

end Follows

end Cursor

end Bitcoin
