import Bitcoin.Digits

/-! # Texts of integers

Integers in any radix from 2 to 36: a sign, an optional marker of the radix, and digits, which reading
takes in both cases and with underscores between them.
-/

namespace Bitcoin.Integer

/-- The digit of a value below 36, in lower case. -/
def digitChar (value : Nat) : Char :=
  Char.ofNat (if value < 10 then 48 + value else 87 + value)

/-- The value of a digit of any radix up to 36. -/
def digitValue? (c : Char) : Option Nat :=
  if '0' ≤ c ∧ c ≤ '9' then some (c.toNat - 48)
  else if 'a' ≤ c ∧ c ≤ 'z' then some (c.toNat - 87)
  else if 'A' ≤ c ∧ c ≤ 'Z' then some (c.toNat - 55)
  else none

/-- The text of an integer: its digits after a minus sign if it is negative. Zero is one digit. -/
def toText (radix : Nat) (x : Int) : String :=
  let digits := match Digits.ofNat radix x.natAbs with
    | [] => [0]
    | digits => digits
  String.ofList ((if x < 0 then ['-'] else []) ++ digits.map digitChar)

def toHex (x : Int) : String :=
  toText 16 x

def toDecimal (x : Int) : String :=
  toText 10 x

def splitSign : List Char → Bool × List Char
  | '-' :: rest => (true, rest)
  | text => (false, text)

/-- Drop the marker of the radix, which only two radices have. -/
def dropMarker (radix : Nat) (text : List Char) : List Char :=
  match radix, text with
  | 16, '0' :: 'x' :: rest => rest
  | 2, '0' :: 'b' :: rest => rest
  | _, text => text

/-- The value of a digit that is below the radix. -/
def digitBelow? (radix : Nat) (c : Char) : Option Nat :=
  (digitValue? c).filter (· < radix)

/-- The values of digits with underscores anywhere among them. -/
def digitsAfter? (radix : Nat) : List Char → Option (List Nat)
  | [] => some []
  | '_' :: rest => digitsAfter? radix rest
  | c :: rest => do
      let digit ← digitBelow? radix c
      let digits ← digitsAfter? radix rest
      return digit :: digits

/-- The values of a run of digits that starts with a digit. -/
def digits? (radix : Nat) : List Char → Option (List Nat)
  | [] => none
  | c :: rest => do
      let digit ← digitBelow? radix c
      let digits ← digitsAfter? radix rest
      return digit :: digits

def ofText? (radix : Nat) (text : String) : Option Int :=
  let (negative, unsigned) := splitSign text.toList
  (digits? radix (dropMarker radix unsigned)).map fun digits =>
    let magnitude : Int := Digits.toNat radix digits
    if negative then -magnitude else magnitude

end Bitcoin.Integer
