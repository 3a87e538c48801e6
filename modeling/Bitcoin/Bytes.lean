/-! # Octet strings

`Bytes` is an octet string of any length, `Octets n` one of exactly `n` octets. The second type is
for hashes, secrets, coordinates and other fields whose length is part of their meaning.
-/

namespace Bitcoin

/-- A string of octets, first octet first. -/
abbrev Bytes := List UInt8

/-- A string of exactly `n` octets. -/
structure Octets (n : Nat) where
  toList : Bytes
  length_eq : toList.length = n
  deriving DecidableEq

namespace Octets

variable {m n : Nat}

@[ext] theorem ext {a b : Octets n} (h : a.toList = b.toList) : a = b := by
  cases a; cases b; cases h; rfl

@[simp] theorem length_toList (a : Octets n) : a.toList.length = n := a.length_eq

/-- The octets of `bs`, when there are exactly `n` of them. -/
def ofList? (n : Nat) (bs : Bytes) : Option (Octets n) :=
  if h : bs.length = n then some ⟨bs, h⟩ else none

theorem ofList?_toList (a : Octets n) : ofList? n a.toList = some a := by
  simp [ofList?]

theorem toList_of_ofList? {bs : Bytes} {a : Octets n} (h : ofList? n bs = some a) : a.toList = bs := by
  unfold ofList? at h
  split at h
  · cases h; rfl
  · cases h

def zero (n : Nat) : Octets n := ⟨List.replicate n 0, List.length_replicate⟩

def left (a : Octets (m + n)) : Octets m :=
  ⟨a.toList.take m, by simp⟩

def right (a : Octets (m + n)) : Octets n :=
  ⟨a.toList.drop m, by simp⟩

theorem left_append_right (a : Octets (m + n)) : a.left.toList ++ a.right.toList = a.toList :=
  List.take_append_drop m a.toList

def reverse (a : Octets n) : Octets n :=
  ⟨a.toList.reverse, by simp⟩

@[simp] theorem reverse_reverse (a : Octets n) : a.reverse.reverse = a :=
  Octets.ext (List.reverse_reverse a.toList)

/-- The octets of `bs` after as many zero octets as fill `n`. Of more than `n` octets the last `n`
    are taken. -/
def padLeft (n : Nat) (bs : Bytes) : Octets n :=
  ⟨List.replicate (n - bs.length) 0 ++ bs.drop (bs.length - n), by simp; omega⟩

end Octets

/-- Cut a list into pieces of `size` elements; the last piece may be shorter. -/
def chunks {α : Type} (size : Nat) (l : List α) : List (List α) :=
  if _h : l = [] ∨ size = 0 then []
  else l.take size :: chunks size (l.drop size)
termination_by l.length
decreasing_by
  have := List.length_pos_iff.2 (fun e => _h (.inl e))
  simp only [List.length_drop]
  omega

end Bitcoin
