import Bitcoin.KeyTree.ChildNumber

/-! # Derivation paths

A path is written as `m` and, after a slash each, the child numbers to descend by. Reading takes three
marks for hardened derivation, any leading zeros and empty segments.
-/

namespace Bitcoin

/-- The child numbers to descend by, first one first. -/
abbrev DerivationPath := List ChildNumber

namespace DerivationPath

/-- The path that stays where it is. -/
def root : DerivationPath := []

def child (path : DerivationPath) (step : ChildNumber) : DerivationPath :=
  path ++ [step]

def toText (path : DerivationPath) : String :=
  String.ofList ('m' :: path.flatMap fun step => '/' :: step.toChars)

/-- The pieces of a text between its slashes, one more than there are slashes. -/
def segments : List Char → List (List Char)
  | [] => [[]]
  | c :: rest =>
      if c = '/' then [] :: segments rest
      else match segments rest with
        | [] => [[c]]
        | first :: others => (c :: first) :: others

/-- Split a mark for hardened derivation off the end. -/
def splitMark (segment : List Char) : List Char × Bool :=
  match segment.getLast? with
  | some c => if c = '\'' ∨ c = 'h' ∨ c = 'H' then (segment.dropLast, true) else (segment, false)
  | none => (segment, false)

/-- The number that a run of decimal digits denotes, at least one digit. -/
def number? (digits : List Char) : Option Nat :=
  if digits ≠ [] ∧ digits.all Char.isDigit then
    some (digits.foldl (fun value c => value * 10 + (c.toNat - 48)) 0)
  else none

def step? (segment : List Char) : Option ChildNumber := do
  let (digits, hardened) := splitMark segment
  let index ← number? digits
  if h : index < 0x80000000 then some ⟨⟨index, h⟩, hardened⟩ else none

/-- The child numbers of segments, of which empty ones are skipped. -/
def steps? : List (List Char) → Option DerivationPath
  | [] => some []
  | segment :: rest =>
      if segment = [] then steps? rest
      else do
        let step ← step? segment
        let path ← steps? rest
        return step :: path

/-- Drop the name of the root, which only the first segment may be. -/
def dropRoot : List (List Char) → List (List Char)
  | segment :: rest => if segment = ['m'] then rest else segment :: rest
  | [] => []

def parse (text : String) : Result DerivationPath :=
  match steps? (dropRoot (segments text.toList)) with
  | some path => .ok path
  | none => .error (.invalidPath text)

end DerivationPath

end Bitcoin
