import Bitcoin.Integer.Modular
import Bitcoin.Proofs.Digits
import Mathlib.Tactic.SplitIfs

/-! # Integers as text

The grammar of integers in a radix: a minus sign or none, a marker of the radix or none, and digits with
underscores behind the first of them. Reading accepts exactly this, also through a reader of digits that takes
signs of its own, and what is written for an integer is read as that integer.
-/

namespace Bitcoin.Integer

/-! ## The grammar -/

def lowerDigits : List Char :=
  "0123456789abcdefghijklmnopqrstuvwxyz".toList

def upperDigits : List Char :=
  "0123456789ABCDEFGHIJKLMNOPQRSTUVWXYZ".toList

/-- The value of a digit is its place in one of the two alphabets. -/
def IsDigit (c : Char) (value : Nat) : Prop :=
  lowerDigits[value]? = some c ∨ upperDigits[value]? = some c

/-- Digits below the radix, with underscores anywhere among them, and the values of the digits. -/
inductive Run (radix : Nat) : List Char → List Nat → Prop where
  | nil : Run radix [] []
  | underscore {text : List Char} {digits : List Nat} : Run radix text digits → Run radix ('_' :: text) digits
  | digit {c : Char} {value : Nat} {text : List Char} {digits : List Nat} : IsDigit c value → value < radix →
      Run radix text digits → Run radix (c :: text) (value :: digits)

/-- What may stand in front of the digits to name their radix. -/
inductive Marks : Nat → List Char → Prop where
  | unmarked (radix : Nat) : Marks radix []
  | hexadecimal : Marks 16 ['0', 'x']
  | binary : Marks 2 ['0', 'b']

/-- A magnitude: digits, the first of which is no underscore, after a marker of the radix or none. -/
inductive Denotes (radix : Nat) : List Char → Nat → Prop where
  | digits {marker text : List Char} {first : Char} {digits : List Nat} : Marks radix marker →
      Run radix (first :: text) digits → first ≠ '_' →
      Denotes radix (marker ++ first :: text) (Nat.ofDigits radix digits.reverse)

/-- A magnitude, or one after a single minus sign. -/
inductive Spells (radix : Nat) : List Char → Int → Prop where
  | plain {text : List Char} {n : Nat} : Denotes radix text n → Spells radix text n
  | negative {text : List Char} {n : Nat} : Denotes radix text n → Spells radix ('-' :: text) (-n)

variable {radix value n : Nat} {c : Char} {text marker : List Char} {digits : List Nat} {x : Int}

/-! ## Digits -/

/-- In an alphabet that holds the characters from one to another in their order, any of these stands as far
    behind the first as it is behind it in that order. -/
theorem getElem?_of_between {alphabet : List Char} {first last : Char} {offset : Nat}
    (order : ∀ k ≤ last.toNat - first.toNat, alphabet[offset + k]? = some (Char.ofNat (first.toNat + k)))
    (between : first ≤ c ∧ c ≤ last) : alphabet[offset + (c.toNat - first.toNat)]? = some c := by
  have least : first.toNat ≤ c.toNat := between.1
  have most : c.toNat ≤ last.toNat := between.2
  rw [order _ (Nat.sub_le_sub_right most _), Nat.add_sub_cancel' least, Char.ofNat_toNat]

theorem isDigit_of_digitValue? (h : digitValue? c = some value) : IsDigit c value := by
  unfold digitValue? at h
  split_ifs at h with figure small capital
  · cases h
    have place : lowerDigits[0 + (c.toNat - 48)]? = some c := getElem?_of_between (by decide) figure
    rw [Nat.zero_add] at place
    exact .inl place
  · cases h
    have place : lowerDigits[10 + (c.toNat - 97)]? = some c := getElem?_of_between (by decide) small
    have least : 97 ≤ c.toNat := small.1
    have distance : 10 + (c.toNat - 97) = c.toNat - 87 := by omega
    exact .inl (distance ▸ place)
  · cases h
    have place : upperDigits[10 + (c.toNat - 65)]? = some c := getElem?_of_between (by decide) capital
    have least : 65 ≤ c.toNat := capital.1
    have distance : 10 + (c.toNat - 65) = c.toNat - 55 := by omega
    exact .inr (distance ▸ place)

theorem digitValue?_of_isDigit (digit : IsDigit c value) : digitValue? c = some value := by
  have lower : ∀ place : Fin lowerDigits.length, digitValue? lowerDigits[place] = some place.val := by decide
  have upper : ∀ place : Fin upperDigits.length, digitValue? upperDigits[place] = some place.val := by decide
  rcases digit with here | here
  · obtain ⟨inside, rfl⟩ := List.getElem?_eq_some_iff.1 here
    exact lower ⟨value, inside⟩
  · obtain ⟨inside, rfl⟩ := List.getElem?_eq_some_iff.1 here
    exact upper ⟨value, inside⟩

theorem digitBelow?_eq_some : digitBelow? radix c = some value ↔ IsDigit c value ∧ value < radix := by
  have read : digitValue? c = some value ↔ IsDigit c value := ⟨isDigit_of_digitValue?, digitValue?_of_isDigit⟩
  rw [digitBelow?, Option.filter_eq_some_iff, read, decide_eq_true_iff]

theorem digitBelow?_underscore : digitBelow? radix '_' = none := by
  rfl

/-! ## Reading digits -/

theorem digitsAfter?_eq_some : digitsAfter? radix text = some digits ↔ Run radix text digits := by
  induction text generalizing digits with
  | nil =>
      constructor
      · rintro ⟨⟩
        exact .nil
      · rintro ⟨⟩
        rfl
  | cons c text ih =>
      by_cases underscore : c = '_'
      · rw [underscore, digitsAfter?, ih]
        constructor
        · exact .underscore
        · intro run
          cases run with
          | underscore run => exact run
          | digit digit below _ =>
              -- An underscore is no digit of any radix.
              have read := digitBelow?_eq_some.2 ⟨digit, below⟩
              rw [digitBelow?_underscore] at read
              cases read
      · rw [digitsAfter?.eq_3 radix c text underscore]
        constructor
        · intro h
          obtain ⟨value, first, h⟩ := Option.bind_eq_some_iff.1 h
          obtain ⟨values, rest, h⟩ := Option.bind_eq_some_iff.1 h
          cases h
          obtain ⟨digit, below⟩ := digitBelow?_eq_some.1 first
          exact .digit digit below (ih.1 rest)
        · intro run
          cases run with
          | underscore run => exact absurd rfl underscore
          | digit digit below run =>
              exact Option.bind_eq_some_iff.2 ⟨_, digitBelow?_eq_some.2 ⟨digit, below⟩,
                Option.bind_eq_some_iff.2 ⟨_, ih.2 run, rfl⟩⟩

/-- A run of digits that starts with a digit is read by its first digit and what comes behind it. -/
theorem digits?_eq_some : digits? radix text = some digits ↔
    text.head? ≠ some '_' ∧ text ≠ [] ∧ Run radix text digits := by
  cases text with
  | nil => simp [digits?]
  | cons c text =>
      by_cases underscore : c = '_'
      · rw [underscore]
        simp [digits?, digitBelow?_underscore]
      · have whole : digits? radix (c :: text) = digitsAfter? radix (c :: text) :=
          (digitsAfter?.eq_3 radix c text underscore).symm
        rw [whole, digitsAfter?_eq_some]
        simp [underscore]

/-! ## Signs and markers -/

/-- No digits of their radix are dropped with a marker, so digits without one are not mistaken for one with
    it. -/
theorem dropMarker_of_digits (h : digits? radix text = some digits) : dropMarker radix text = text := by
  unfold dropMarker
  split
  -- The second character of a marked text is no digit of the radix.
  · have refused (rest : List Char) : digits? 16 ('0' :: 'x' :: rest) = none := rfl
    rw [refused] at h
    cases h
  · have refused (rest : List Char) : digits? 2 ('0' :: 'b' :: rest) = none := rfl
    rw [refused] at h
    cases h
  · rfl

theorem dropMarker_append (marks : Marks radix marker) (h : digits? radix text = some digits) :
    dropMarker radix (marker ++ text) = text := by
  cases marks with
  | unmarked => exact dropMarker_of_digits h
  | hexadecimal => rfl
  | binary => rfl

theorem exists_dropMarker (radix : Nat) (text : List Char) :
    ∃ marker, Marks radix marker ∧ text = marker ++ dropMarker radix text := by
  unfold dropMarker
  split
  · exact ⟨_, .hexadecimal, rfl⟩
  · exact ⟨_, .binary, rfl⟩
  · exact ⟨_, .unmarked radix, rfl⟩

theorem digits?_dropMarker_eq_some : (digits? radix (dropMarker radix text)).map (Digits.toNat radix) = some n ↔
    Denotes radix text n := by
  constructor
  · intro h
    obtain ⟨digits, read, rfl⟩ := Option.map_eq_some_iff.1 h
    obtain ⟨marker, marks, cut⟩ := exists_dropMarker radix text
    obtain ⟨leading, nonempty, run⟩ := digits?_eq_some.1 read
    rw [cut, Digits.toNat_eq_ofDigits]
    cases rest : dropMarker radix text with
    | nil => exact absurd rest nonempty
    | cons first rest' =>
        rw [rest] at leading run
        exact .digits marks run fun underscore => leading (congrArg some underscore)
  · rintro ⟨marks, run, leading⟩
    rename_i marker text first digits
    have read : digits? radix (first :: text) = some digits :=
      digits?_eq_some.2 ⟨by simpa using leading, List.cons_ne_nil _ _, run⟩
    rw [dropMarker_append marks read, read, Option.map_some, Digits.toNat_eq_ofDigits]

theorem not_isDigit_of_sign {sign : Char} (member : sign ∈ ['+', '-']) : ¬IsDigit sign value := by
  intro digit
  have read := digitValue?_of_isDigit digit
  simp only [List.mem_cons, List.not_mem_nil, or_false] at member
  rcases member with rfl | rfl <;> cases read

theorem Run.eq_underscore_or_isDigit (run : Run radix text digits) :
    ∀ c ∈ text, c = '_' ∨ ∃ value, IsDigit c value := by
  induction run with
  | nil => simp
  | underscore _ ih => simpa using ih
  | digit digit _ _ ih => simpa using ⟨.inr ⟨_, digit⟩, ih⟩

theorem Marks.isDigit (marks : Marks radix marker) : ∀ c ∈ marker, ∃ value, IsDigit c value := by
  have zero : IsDigit '0' 0 := .inl rfl
  cases marks with
  | unmarked => simp
  | hexadecimal => simpa using ⟨⟨0, zero⟩, 33, .inl rfl⟩
  | binary => simpa using ⟨⟨0, zero⟩, 11, .inl rfl⟩

/-- A magnitude starts with a digit. -/
theorem Denotes.exists_cons (denotes : Denotes radix text n) :
    ∃ c rest value, text = c :: rest ∧ IsDigit c value := by
  obtain ⟨marks, run, leading⟩ := denotes
  rename_i marker text first digits
  cases marker with
  | nil =>
      obtain ⟨value, digit⟩ := (run.eq_underscore_or_isDigit first List.mem_cons_self).resolve_left leading
      exact ⟨first, text, value, rfl, digit⟩
  | cons c marker =>
      obtain ⟨value, digit⟩ := marks.isDigit c List.mem_cons_self
      exact ⟨c, _, value, rfl, digit⟩

theorem Denotes.not_mem_of_sign {sign : Char} (denotes : Denotes radix text n) (member : sign ∈ ['+', '-']) :
    sign ∉ text := by
  intro here
  have each : sign = '_' ∨ ∃ value, IsDigit sign value := by
    obtain ⟨marks, run, -⟩ := denotes
    rcases List.mem_append.1 here with here | here
    · exact .inr (marks.isDigit sign here)
    · exact run.eq_underscore_or_isDigit sign here
  rcases each with rfl | ⟨value, digit⟩
  · simp at member
  · exact not_isDigit_of_sign member digit

/-- The only sign is a minus sign in front. -/
theorem Spells.signs (spells : Spells radix text x) : '+' ∉ text ∧ '-' ∉ text.tail := by
  have plus : '+' ∈ ['+', '-'] := List.mem_cons_self
  have minus : '-' ∈ ['+', '-'] := List.mem_cons_of_mem _ List.mem_cons_self
  cases spells with
  | plain denotes =>
      have noMinus := denotes.not_mem_of_sign minus
      exact ⟨denotes.not_mem_of_sign plus, fun here => noMinus (List.mem_of_mem_tail here)⟩
  | negative denotes =>
      have noPlus := denotes.not_mem_of_sign plus
      exact ⟨by simpa using noPlus, denotes.not_mem_of_sign minus⟩

theorem Marks.not_denotes (marks : Marks radix marker) : ¬Denotes radix marker n := by
  have nothing : dropMarker radix marker = [] := by
    cases marks with
    | unmarked =>
        obtain ⟨marker, -, cut⟩ := exists_dropMarker radix []
        exact (List.append_eq_nil_iff.1 cut.symm).2
    | hexadecimal => rfl
    | binary => rfl
  rw [← digits?_dropMarker_eq_some, nothing]
  intro h
  cases h

/-- A marker needs digits behind it, with a sign and without. -/
theorem Marks.not_spells (marks : Marks radix marker) :
    ¬Spells radix marker x ∧ ¬Spells radix ('-' :: marker) x := by
  constructor
  · intro spells
    cases spells with
    | plain denotes => exact marks.not_denotes denotes
    | negative denotes => cases marks
  · intro spells
    cases spells with
    | plain denotes => exact denotes.not_mem_of_sign (List.mem_cons_of_mem _ List.mem_cons_self) List.mem_cons_self
    | negative denotes => exact marks.not_denotes denotes

theorem splitSign_of_ne {rest : List Char} (other : c ≠ '-') : splitSign (c :: rest) = (false, c :: rest) := by
  unfold splitSign
  split
  · rename_i same
    cases same
    exact absurd rfl other
  · rfl

theorem splitSign_eq (text : List Char) :
    (∃ rest, text = '-' :: rest ∧ splitSign text = (true, rest)) ∨ splitSign text = (false, text) := by
  unfold splitSign
  split
  · exact .inl ⟨_, rfl, rfl⟩
  · exact .inr rfl

theorem ofText?_eq (radix : Nat) (text : String) : ofText? radix text =
    ((digits? radix (dropMarker radix (splitSign text.toList).2)).map (Digits.toNat radix)).map fun n : Nat =>
      if (splitSign text.toList).1 then -(n : Int) else n := by
  rw [Option.map_map]
  rfl

/-- Reading accepts the grammar and nothing else. -/
theorem ofText?_eq_some {text : String} : ofText? radix text = some x ↔ Spells radix text.toList x := by
  rw [ofText?_eq, Option.map_eq_some_iff]
  generalize text.toList = text
  constructor
  · rintro ⟨n, magnitude, rfl⟩
    rw [digits?_dropMarker_eq_some] at magnitude
    rcases splitSign_eq text with ⟨rest, rfl, split⟩ | split
    · rw [split] at magnitude ⊢
      exact .negative magnitude
    · rw [split] at magnitude ⊢
      exact .plain magnitude
  · intro spells
    cases spells with
    | plain denotes =>
        -- A magnitude starts with a digit, so no sign is split off it.
        obtain ⟨c, rest, value, rfl, digit⟩ := denotes.exists_cons
        have unsigned : c ≠ '-' := by
          rintro rfl
          exact not_isDigit_of_sign (by simp) digit
        rw [splitSign_of_ne unsigned]
        exact ⟨_, digits?_dropMarker_eq_some.2 denotes, rfl⟩
    | negative denotes => exact ⟨_, digits?_dropMarker_eq_some.2 denotes, rfl⟩

theorem parse_eq_ok {text : String} :
    parse radix text = .ok x ↔ (2 ≤ radix ∧ radix ≤ 36) ∧ Spells radix text.toList x := by
  rw [← ofText?_eq_some, parse]
  by_cases outside : radix < 2 ∨ 36 < radix
  · have unsupported : ¬(2 ≤ radix ∧ radix ≤ 36) := by omega
    rw [if_pos outside]
    simp [unsupported]
  · have supported : 2 ≤ radix ∧ radix ≤ 36 := by omega
    rw [if_neg outside]
    cases ofText? radix text <;> simp [supported]

/-- A radix that is not supported is refused first, and else what is not in the grammar. -/
theorem parse_eq_error {text : String} {e : Error} : parse radix text = .error e ↔
    ¬(2 ≤ radix ∧ radix ≤ 36) ∧ e = .arithmetic (.unsupportedRadix radix) ∨
      (2 ≤ radix ∧ radix ≤ 36) ∧ (∀ x, ¬Spells radix text.toList x) ∧ e = .arithmetic (.notANumber radix text) := by
  simp only [← ofText?_eq_some, parse]
  by_cases outside : radix < 2 ∨ 36 < radix
  · have unsupported : ¬(2 ≤ radix ∧ radix ≤ 36) := by omega
    rw [if_pos outside]
    simp [unsupported, eq_comm]
  · have supported : 2 ≤ radix ∧ radix ≤ 36 := by omega
    rw [if_neg outside]
    cases ofText? radix text <;> simp [supported, eq_comm]

/-! ## Signs that the reader of digits takes -/

/-- Drop a plus sign, unless another one stands behind it. -/
def dropPlus : List Char → List Char
  | '+' :: '+' :: rest => '+' :: '+' :: rest
  | '+' :: rest => rest
  | text => text

/-- Read digits with signs of their own: a minus sign that has no plus sign behind it, and then a plus sign.
    -/
def signedDigits? (radix : Nat) : List Char → Option Int
  | '-' :: '+' :: rest =>
      (digits? radix (dropPlus ('-' :: '+' :: rest))).map fun digits => -Digits.toNat radix digits
  | '-' :: rest => (digits? radix (dropPlus rest)).map fun digits => -Digits.toNat radix digits
  | text => (digits? radix (dropPlus text)).map fun digits => Digits.toNat radix digits

/-- Read an integer by a reader of digits that takes signs of its own: where one of these stands at the place
    of the digits the text is refused. -/
def ofTextBySigned? (radix : Nat) (text : String) : Option Int :=
  let (negative, unsigned) := splitSign text.toList
  let digits := dropMarker radix unsigned
  if digits.head? = some '+' ∨ digits.head? = some '-' then none
  else (signedDigits? radix digits).map fun x => if negative then -x else x

theorem digits?_of_sign {sign : Char} (member : sign ∈ ['+', '-']) (rest : List Char) :
    digits? radix (sign :: rest) = none := by
  simp only [List.mem_cons, List.not_mem_nil, or_false] at member
  rcases member with rfl | rfl <;> rfl

theorem signedDigits?_of_unsigned (plus : text.head? ≠ some '+') (minus : text.head? ≠ some '-') :
    signedDigits? radix text = (digits? radix text).map fun digits => (Digits.toNat radix digits : Int) := by
  have kept : dropPlus text = text := by
    unfold dropPlus
    split
    · rfl
    · exact absurd rfl plus
    · rfl
  unfold signedDigits?
  split
  · exact absurd rfl minus
  · exact absurd rfl minus
  · rw [kept]

/-- The signs of the reader of digits are never reached. -/
theorem ofTextBySigned?_eq (radix : Nat) (text : String) : ofTextBySigned? radix text = ofText? radix text := by
  unfold ofTextBySigned? ofText?
  cases splitSign text.toList with
  | mk negative unsigned =>
      dsimp only
      generalize dropMarker radix unsigned = digits
      by_cases signed : digits.head? = some '+' ∨ digits.head? = some '-'
      · rw [if_pos signed]
        have refused : digits? radix digits = none := by
          cases digits with
          | nil => rfl
          | cons c rest => exact digits?_of_sign (by simpa using signed) rest
        rw [refused]
        rfl
      · rw [if_neg signed]
        rw [not_or] at signed
        rw [signedDigits?_of_unsigned signed.1 signed.2, Option.map_map]
        rfl

/-! ## What is written -/

theorem isDigit_digitChar (small : value < 36) : IsDigit (digitChar value) value := by
  have place : ∀ value < 36, lowerDigits[value]? = some (digitChar value) := by decide
  exact .inl (place value small)

theorem run_map_digitChar (most : radix ≤ 36) (below : ∀ value ∈ digits, value < radix) :
    Run radix (digits.map digitChar) digits := by
  induction digits with
  | nil => exact .nil
  | cons value digits ih =>
      have small := below value List.mem_cons_self
      exact .digit (isDigit_digitChar (small.trans_le most)) small
        (ih fun later member => below later (List.mem_cons_of_mem value member))

/-- The digits of a number, of which zero has one, are a magnitude. -/
theorem denotes_digitChars (most : radix ≤ 36) (nonempty : digits ≠ [])
    (below : ∀ value ∈ digits, value < radix) :
    Denotes radix (digits.map digitChar) (Digits.toNat radix digits) := by
  cases digits with
  | nil => exact absurd rfl nonempty
  | cons value digits =>
      have small : value < 36 := (below value List.mem_cons_self).trans_le most
      have leading : digitChar value ≠ '_' := by
        intro underscore
        have read := digitValue?_of_isDigit (isDigit_digitChar small)
        rw [underscore] at read
        cases read
      rw [Digits.toNat_eq_ofDigits]
      exact .digits (.unmarked radix) (run_map_digitChar most below) leading

/-- Zero has no digits of its own and is written as one. -/
def shownDigits (radix n : Nat) : List Nat :=
  match Digits.ofNat radix n with
  | [] => [0]
  | digits => digits

theorem denotes_shownDigits (least : 2 ≤ radix) (most : radix ≤ 36) (n : Nat) :
    Denotes radix ((shownDigits radix n).map digitChar) n := by
  have value := Digits.toNat_ofNat least n
  have below := fun d => Digits.lt_of_mem_ofNat (n := n) (d := d) least
  unfold shownDigits
  cases digits : Digits.ofNat radix n with
  | nil =>
      rw [digits] at value
      have zero : Digits.toNat radix [0] = n := by
        rw [← value]
        simp [Digits.toNat]
      have denotes : Denotes radix ([0].map digitChar) (Digits.toNat radix [0]) :=
        denotes_digitChars most (List.cons_ne_nil 0 []) (by simp; omega)
      rwa [zero] at denotes
  | cons d rest =>
      rw [digits] at value below
      have denotes := denotes_digitChars most (List.cons_ne_nil d rest) below
      rwa [value] at denotes

theorem spells_toText (least : 2 ≤ radix) (most : radix ≤ 36) (x : Int) :
    Spells radix (toText radix x).toList x := by
  have text : (toText radix x).toList =
      (if x < 0 then ['-'] else []) ++ (shownDigits radix x.natAbs).map digitChar := String.toList_ofList
  have denotes := denotes_shownDigits least most x.natAbs
  rw [text]
  split_ifs with negative
  · have spells := Spells.negative denotes
    rwa [show -(x.natAbs : Int) = x by omega] at spells
  · have spells := Spells.plain denotes
    rwa [show (x.natAbs : Int) = x by omega] at spells

theorem parse_toText (least : 2 ≤ radix) (most : radix ≤ 36) (x : Int) : parse radix (toText radix x) = .ok x :=
  parse_eq_ok.2 ⟨⟨least, most⟩, spells_toText least most x⟩

/-- Reading inverts writing in every radix. It accepts exactly the grammar, with the value of the digits in
    their places and the sign in front; any other text, and so one with a sign anywhere else or without a digit
    behind its sign and marker, is refused as no number of the radix, or for the radix itself. That the digits
    are read by a reader that takes signs of its own makes no difference. -/
theorem text_exact (radix : Nat) :
    (2 ≤ radix → radix ≤ 36 → ∀ x, parse radix (toText radix x) = .ok x) ∧
    (∀ text x, parse radix text = .ok x ↔ (2 ≤ radix ∧ radix ≤ 36) ∧ Spells radix text.toList x) ∧
    (∀ text e, parse radix text = .error e ↔
      ¬(2 ≤ radix ∧ radix ≤ 36) ∧ e = .arithmetic (.unsupportedRadix radix) ∨
      (2 ≤ radix ∧ radix ≤ 36) ∧ (∀ x, ¬Spells radix text.toList x) ∧ e = .arithmetic (.notANumber radix text)) ∧
    (∀ text : String, '+' ∈ text.toList ∨ '-' ∈ text.toList.tail ∨
      (∃ marker, Marks radix marker ∧ (text.toList = marker ∨ text.toList = '-' :: marker)) →
      ∃ fault, parse radix text = .error (.arithmetic fault)) ∧
    ∀ text, ofTextBySigned? radix text = ofText? radix text := by
  refine ⟨parse_toText, fun text x => parse_eq_ok, fun text e => parse_eq_error, fun text unfit => ?_,
    ofTextBySigned?_eq radix⟩
  by_cases supported : 2 ≤ radix ∧ radix ≤ 36
  · refine ⟨_, parse_eq_error.2 (.inr ⟨supported, fun x spells => ?_, rfl⟩)⟩
    rcases unfit with signed | signed | ⟨marker, marks, bare | bare⟩
    · exact spells.signs.1 signed
    · exact spells.signs.2 signed
    · exact marks.not_spells.1 (bare ▸ spells)
    · exact marks.not_spells.2 (bare ▸ spells)
  · exact ⟨_, parse_eq_error.2 (.inl ⟨supported, rfl⟩)⟩

/-- A sign, a marker, both cases and an underscore in one text, which is written without three of them; a letter
    that marks in one radix and counts in another; and a second sign, one behind the marker and a marker without
    digits. -/
theorem text_exact_marked :
    (Spells 16 "-0xFf_".toList (-255) ∧ parse 16 (toText 16 (-255)) = .ok (-255) ∧ toText 16 (-255) = "-ff") ∧
      (Spells 36 "0x1".toList 1189 ∧ Spells 2 "0b1_0".toList 2) ∧
      (∀ x, ¬Spells 16 "0x-ff".toList x) ∧
      ∃ fault fault', parse 16 "--5" = .error (.arithmetic fault) ∧ parse 16 "-0x" = .error (.arithmetic fault') := by
  obtain ⟨written, read, refused, unfit, -⟩ := text_exact 16
  obtain ⟨-, base36, -⟩ := text_exact 36
  obtain ⟨-, base2, -⟩ := text_exact 2
  obtain ⟨fault, signs⟩ := unfit "--5" (.inr (.inl (by decide)))
  obtain ⟨fault', bare⟩ := unfit "-0x" (.inr (.inr ⟨_, .hexadecimal, .inr rfl⟩))
  have hidden : ∀ x, ¬Spells 16 "0x-ff".toList x := by
    rcases (refused "0x-ff" _).1 rfl with ⟨unsupported, -⟩ | ⟨-, none, -⟩
    · exact absurd (by decide) unsupported
    · exact none
  exact ⟨⟨((read "-0xFf_" _).1 rfl).2, written (by decide) (by decide) (-255), by decide +kernel⟩,
    ⟨((base36 "0x1" _).1 rfl).2, ((base2 "0b1_0" _).1 rfl).2⟩, hidden, fault, fault', signs, bare⟩

end Bitcoin.Integer
