import Bitcoin.KeyTree.Path
import Mathlib.Data.List.Induction
import Mathlib.Tactic.SplitIfs

/-! # Paths as text

The grammar of paths speaks of the segments between slashes, each by itself. Reading accepts exactly what has this
grammar, with the child numbers of the segments in their order, and among it what is written for a path.
-/

namespace Bitcoin

namespace DerivationPath

/-! ## The grammar -/

/-- Decimal digits, at least one, that denote an index. Zeros in front do not count. -/
structure Denotes (digits : List Char) (index : Fin 0x80000000) : Prop where
  nonempty : digits ≠ []
  decimal : ∀ c ∈ digits, c.isDigit = true
  value : Nat.ofDigitChars 10 digits 0 = index.val

/-- A segment names a child by its index, and by one mark behind it if derivation is hardened. -/
inductive Names : List Char → ChildNumber → Prop where
  | normal {digits : List Char} {index : Fin 0x80000000} : Denotes digits index → Names digits ⟨index, false⟩
  | hardened {digits : List Char} {index : Fin 0x80000000} {mark : Char} : Denotes digits index →
      mark ∈ ['\'', 'h', 'H'] → Names (digits ++ [mark]) ⟨index, true⟩

/-- What a segment adds to the path. The name of the root is a segment only in the first place. -/
inductive Adds : Nat → List Char → DerivationPath → Prop where
  | empty (position : Nat) : Adds position [] []
  | root : Adds 0 ['m'] []
  | child {position : Nat} {segment : List Char} {step : ChildNumber} : Names segment step →
      Adds position segment [step]

/-- Segments, the first of which stands at a position, spell the path that they add up to. -/
inductive Spells : Nat → List (List Char) → DerivationPath → Prop where
  | nil (position : Nat) : Spells position [] []
  | cons {position : Nat} {segment : List Char} {pieces : List (List Char)} {steps path : DerivationPath} :
      Adds position segment steps → Spells (position + 1) pieces path →
      Spells position (segment :: pieces) (steps ++ path)

variable {position : Nat} {segment digits text : List Char} {pieces : List (List Char)} {path : DerivationPath}
  {step : ChildNumber} {mark : Char} {n : Nat}

/-- Segments spell a path if each of them adds something to it. -/
theorem exists_spells_iff : (∃ path, Spells position pieces path) ↔
    ∀ offset segment, pieces[offset]? = some segment → ∃ steps, Adds (position + offset) segment steps := by
  constructor
  · rintro ⟨path, spelled⟩
    induction spelled with
    | nil => simp
    | cons adds _ ih =>
        intro offset segment here
        cases offset with
        | zero =>
            cases here
            exact ⟨_, adds⟩
        | succ offset =>
            rw [← Nat.add_assoc, Nat.add_right_comm]
            exact ih offset segment here
  · intro each
    induction pieces generalizing position with
    | nil => exact ⟨[], .nil position⟩
    | cons segment pieces ih =>
        obtain ⟨steps, adds⟩ := each 0 segment rfl
        have rest : ∃ path, Spells (position + 1) pieces path := by
          apply ih
          intro offset segment here
          rw [Nat.add_right_comm, Nat.add_assoc]
          exact each (offset + 1) segment here
        obtain ⟨path, spelled⟩ := rest
        exact ⟨_, .cons adds spelled⟩

theorem exists_adds_iff : (∃ steps, Adds position segment steps) ↔
    segment = [] ∨ (position = 0 ∧ segment = ['m']) ∨ ∃ step, Names segment step := by
  constructor
  · rintro ⟨steps, adds⟩
    cases adds with
    | empty => exact .inl rfl
    | root => exact .inr (.inl ⟨rfl, rfl⟩)
    | child names => exact .inr (.inr ⟨_, names⟩)
  · rintro (rfl | ⟨rfl, rfl⟩ | ⟨step, names⟩)
    · exact ⟨_, .empty position⟩
    · exact ⟨_, .root⟩
    · exact ⟨_, .child names⟩

/-- Empty segments spell the root. -/
theorem spells_replicate (position count : Nat) : Spells position (List.replicate count []) root := by
  induction count generalizing position with
  | zero => exact .nil position
  | succ count ih => exact .cons (.empty position) (ih (position + 1))

/-! ## Reading a segment -/

theorem number?_eq_some : number? digits = some n ↔
    digits ≠ [] ∧ (∀ c ∈ digits, c.isDigit = true) ∧ Nat.ofDigitChars 10 digits 0 = n := by
  have value : digits.foldl (fun value c => value * 10 + (c.toNat - 48)) 0 = Nat.ofDigitChars 10 digits 0 := by
    simp only [Nat.ofDigitChars_eq_foldl, Nat.mul_comm]
    rfl
  unfold number?
  rw [value]
  split_ifs with decimal
  · rw [List.all_eq_true] at decimal
    constructor
    · rintro ⟨⟩
      exact ⟨decimal.1, decimal.2, rfl⟩
    · rintro ⟨-, -, rfl⟩
      rfl
  · rw [List.all_eq_true] at decimal
    constructor
    · rintro ⟨⟩
    · rintro ⟨nonempty, each, -⟩
      exact absurd ⟨nonempty, each⟩ decimal

/-- A digit is no mark. -/
theorem not_mem_marks_of_isDigit {c : Char} (digit : c.isDigit = true) : c ∉ ['\'', 'h', 'H'] := by
  intro member
  simp only [List.mem_cons, List.not_mem_nil, or_false] at member
  rcases member with rfl | rfl | rfl <;> cases digit

theorem splitMark_concat (digits : List Char) (mark : Char) : splitMark (digits ++ [mark]) =
    if mark ∈ ['\'', 'h', 'H'] then (digits, true) else (digits ++ [mark], false) := by
  simp [splitMark]

theorem splitMark_of_isDigit (decimal : ∀ c ∈ digits, c.isDigit = true) : splitMark digits = (digits, false) := by
  cases digits using List.reverseRecOn with
  | nil => rfl
  | append_singleton digits c =>
      rw [splitMark_concat, if_neg (not_mem_marks_of_isDigit (decimal c (by simp)))]

/-- What is split off is one mark at the end, if there is one. -/
theorem splitMark_eq {hardened : Bool} (h : splitMark segment = (digits, hardened)) :
    if hardened then ∃ mark ∈ ['\'', 'h', 'H'], segment = digits ++ [mark] else segment = digits := by
  cases segment using List.reverseRecOn with
  | nil =>
      cases h
      rfl
  | append_singleton front c =>
      rw [splitMark_concat] at h
      split_ifs at h with mark
      · cases h
        exact ⟨c, mark, rfl⟩
      · cases h
        rfl

theorem step?_eq_some : step? segment = some step ↔ Names segment step := by
  unfold step?
  constructor
  · intro h
    cases split : splitMark segment with
    | mk digits hardened =>
        have shape := splitMark_eq split
        rw [split] at h
        obtain ⟨index, number, h⟩ := Option.bind_eq_some_iff.1 h
        split_ifs at h with small
        cases h
        obtain ⟨nonempty, decimal, value⟩ := number?_eq_some.1 number
        cases hardened with
        | false =>
            cases shape
            exact .normal ⟨nonempty, decimal, value⟩
        | true =>
            obtain ⟨mark, known, rfl⟩ := shape
            exact .hardened ⟨nonempty, decimal, value⟩ known
  · intro names
    cases names with
    | @normal _ index denotes =>
        rw [splitMark_of_isDigit denotes.decimal]
        refine Option.bind_eq_some_iff.2 ⟨_, number?_eq_some.2 ⟨denotes.nonempty, denotes.decimal, denotes.value⟩, ?_⟩
        rw [dif_pos index.isLt]
    | @hardened digits index mark denotes known =>
        rw [splitMark_concat, if_pos known]
        refine Option.bind_eq_some_iff.2 ⟨_, number?_eq_some.2 ⟨denotes.nonempty, denotes.decimal, denotes.value⟩, ?_⟩
        rw [dif_pos index.isLt]

theorem not_names_nil : ¬ Names [] step := by
  intro names
  have read := step?_eq_some.2 names
  cases read

theorem not_names_root : ¬ Names ['m'] step := by
  intro names
  have read := step?_eq_some.2 names
  cases read

/-! ## Reading the segments -/

/-- Segments are read as the path that they spell, where none is the name of the root in first place. -/
theorem steps?_eq_some (unnamed : position = 0 → pieces.head? ≠ some ['m']) :
    steps? pieces = some path ↔ Spells position pieces path := by
  induction pieces generalizing position path with
  | nil =>
      constructor
      · rintro ⟨⟩
        exact .nil position
      · rintro ⟨⟩
        rfl
  | cons segment pieces ih =>
      have rest {path : DerivationPath} : steps? pieces = some path ↔ Spells (position + 1) pieces path :=
        ih (fun first => absurd first (Nat.succ_ne_zero position))
      unfold steps?
      split_ifs with empty
      · rw [rest, empty]
        constructor
        · exact fun spelled => .cons (.empty position) spelled
        · intro spelled
          cases spelled with
          | cons adds spelled =>
              cases adds with
              | empty => exact spelled
              | child names => exact absurd names not_names_nil
      · constructor
        · intro h
          obtain ⟨step, read, h⟩ := Option.bind_eq_some_iff.1 h
          obtain ⟨path, read', h⟩ := Option.bind_eq_some_iff.1 h
          cases h
          exact .cons (.child (step?_eq_some.1 read)) (rest.1 read')
        · intro spelled
          cases spelled with
          | cons adds spelled =>
              cases adds with
              | empty => exact absurd rfl empty
              | root => exact absurd rfl (unnamed rfl)
              | child names =>
                  exact Option.bind_eq_some_iff.2 ⟨_, step?_eq_some.2 names,
                    Option.bind_eq_some_iff.2 ⟨_, rest.2 spelled, rfl⟩⟩

theorem dropRoot_cons (segment : List Char) (pieces : List (List Char)) :
    dropRoot (segment :: pieces) = if segment = ['m'] then pieces else segment :: pieces :=
  rfl

/-- That name is dropped before the segments are read. -/
theorem steps?_dropRoot_eq_some : steps? (dropRoot pieces) = some path ↔ Spells 0 pieces path := by
  cases pieces with
  | nil => exact steps?_eq_some fun _ => nofun
  | cons segment pieces =>
      rw [dropRoot_cons]
      split_ifs with named
      · have behind : steps? pieces = some path ↔ Spells 1 pieces path := steps?_eq_some (by simp)
        rw [behind, named]
        constructor
        · exact fun spelled => .cons .root spelled
        · intro spelled
          cases spelled with
          | cons adds spelled =>
              cases adds with
              | root => exact spelled
              | child names => exact absurd names not_names_root
      · exact steps?_eq_some fun _ => by simpa using named

/-! ## Reading a text -/

theorem segments_eq_splitOn (text : List Char) : segments text = text.splitOn '/' := by
  induction text with
  | nil => rfl
  | cons c text ih =>
      rw [segments, List.splitOn_eq_splitOnP, List.splitOnP_cons_eq_if_modifyHead, ← List.splitOn_eq_splitOnP, ← ih]
      by_cases slash : c = '/'
      · simp [slash]
      · rw [if_neg slash, if_neg (by simpa using slash)]
        cases cut : segments text with
        | nil => exact absurd (ih.symm.trans cut) (List.splitOn_ne_nil '/' text)
        | cons first others => rfl

theorem parse_eq_ok {text : String} : parse text = .ok path ↔ Spells 0 (text.toList.splitOn '/') path := by
  rw [← steps?_dropRoot_eq_some, ← segments_eq_splitOn, parse]
  cases steps? (dropRoot (segments text.toList)) <;> simp

theorem parse_eq_error {text : String} {e : Error} : parse text = .error e ↔
    e = .invalidPath text ∧ ∀ path, ¬ Spells 0 (text.toList.splitOn '/') path := by
  simp only [← steps?_dropRoot_eq_some, ← segments_eq_splitOn, parse]
  cases steps? (dropRoot (segments text.toList)) <;> simp [eq_comm]

/-! ## What is written -/

theorem denotes_toDigits (index : Fin 0x80000000) : Denotes (Nat.toDigits 10 index.val) index where
  nonempty := Nat.toDigits_ne_nil
  decimal := fun _ => Nat.isDigit_of_mem_toDigits (by decide) (by decide)
  value := Nat.ofDigitChars_toDigits (by decide) (by decide)

theorem names_toChars (step : ChildNumber) : Names step.toChars step := by
  obtain ⟨index, hardened⟩ := step
  unfold ChildNumber.toChars
  cases hardened with
  | false =>
      rw [if_neg Bool.false_ne_true, List.append_nil]
      exact .normal (denotes_toDigits index)
  | true => exact .hardened (denotes_toDigits index) (by simp)

/-- No slash stands in what names a child. -/
theorem Names.not_mem_slash (names : Names segment step) : '/' ∉ segment := by
  have digits {digits : List Char} {index : Fin 0x80000000} (denotes : Denotes digits index) : '/' ∉ digits := by
    intro member
    cases denotes.decimal _ member
  cases names with
  | normal denotes => exact digits denotes
  | hardened denotes known =>
      intro member
      rcases List.mem_append.1 member with member | member
      · exact digits denotes member
      · rw [← List.mem_singleton.1 member] at known
        simp at known

theorem spells_map_toChars (path : DerivationPath) (position : Nat) :
    Spells position (path.map ChildNumber.toChars) path := by
  induction path generalizing position with
  | nil => exact .nil position
  | cons step path ih => exact .cons (.child (names_toChars step)) (ih (position + 1))

theorem intercalate_cons (first : List Char) (pieces : List (List Char)) :
    ['/'].intercalate (first :: pieces) = first ++ pieces.flatMap ('/' :: ·) := by
  induction pieces generalizing first with
  | nil => simp
  | cons segment pieces ih => simp [List.intercalate_cons_cons, ih]

/-- The written text splits into the name of the root and a segment for each child number. -/
theorem splitOn_toText (path : DerivationPath) :
    path.toText.toList.splitOn '/' = ['m'] :: path.map ChildNumber.toChars := by
  have text : path.toText.toList = ['/'].intercalate (['m'] :: path.map ChildNumber.toChars) := by
    rw [toText, String.toList_ofList, intercalate_cons, List.flatMap_map]
    rfl
  rw [text, List.splitOn_intercalate _ _ (List.cons_ne_nil _ _)]
  intro segment member
  rcases List.mem_cons.1 member with rfl | member
  · decide
  · obtain ⟨step, -, rfl⟩ := List.mem_map.1 member
    exact (names_toChars step).not_mem_slash

theorem parse_toText (path : DerivationPath) : parse path.toText = .ok path := by
  rw [parse_eq_ok, splitOn_toText]
  exact .cons .root (spells_map_toChars path 1)

theorem segments_replicate (count : Nat) : segments (List.replicate count '/') = List.replicate (count + 1) [] := by
  induction count with
  | zero => rfl
  | succ count ih =>
      rw [List.replicate_succ, segments, if_pos rfl, ih]
      rfl

theorem parse_slashes (count : Nat) : parse (String.ofList (List.replicate count '/')) = .ok root := by
  rw [parse_eq_ok, String.toList_ofList, ← segments_eq_splitOn, segments_replicate]
  exact spells_replicate 0 (count + 1)

theorem parse_root_slashes (count : Nat) : parse (String.ofList ('m' :: List.replicate count '/')) = .ok root := by
  have named : segments ('m' :: List.replicate count '/') = ['m'] :: List.replicate count [] := by
    rw [segments, if_neg (by decide), segments_replicate]
    rfl
  rw [parse_eq_ok, String.toList_ofList, ← segments_eq_splitOn, named]
  exact .cons .root (spells_replicate 1 count)

/-- Reading inverts writing. A text is read exactly if each segment between its slashes is empty, names the root in
    first place, or names a child, and then as the path of these children; every other text is refused as it is.
    So what was read is written as a text that is read alike, and slashes alone are the root, with its name in
    front of them or without. -/
theorem parse_exact :
    (∀ path : DerivationPath, parse path.toText = .ok path) ∧
    (∀ text path, parse text = .ok path ↔ Spells 0 (text.toList.splitOn '/') path) ∧
    (∀ text, (∃ path, parse text = .ok path) ↔
      ∀ position segment, (text.toList.splitOn '/')[position]? = some segment →
        segment = [] ∨ (position = 0 ∧ segment = ['m']) ∨ ∃ step, Names segment step) ∧
    (∀ text e, parse text = .error e ↔
      e = .invalidPath text ∧ ∀ path, ¬ Spells 0 (text.toList.splitOn '/') path) ∧
    (∀ text path, parse text = .ok path → parse path.toText = parse text) ∧
    ∀ count, parse (String.ofList (List.replicate count '/')) = .ok root ∧
      parse (String.ofList ('m' :: List.replicate count '/')) = .ok root := by
  refine ⟨parse_toText, fun text path => parse_eq_ok, ?_, fun text e => parse_eq_error, ?_,
    fun count => ⟨parse_slashes count, parse_root_slashes count⟩⟩
  · intro text
    simp only [parse_eq_ok, exists_spells_iff, exists_adds_iff, Nat.zero_add]
  · intro text path read
    rw [read, parse_toText]

/-- Zeros in front, every mark and empty segments in one text; an index that is too large by one, a second mark and
    a root that is not in first place each in another. -/
theorem parse_exact_mixed :
    parse "m//007h/1H/2147483647'/" = .ok [⟨7, true⟩, ⟨1, true⟩, ⟨2147483647, true⟩] ∧
      parse "m/7'/1'/2147483647'" = parse "m//007h/1H/2147483647'/" ∧
      (∀ path, ¬ Spells 0 ("m/2147483648".toList.splitOn '/') path) ∧
      (∀ path, ¬ Spells 0 ("1hh".toList.splitOn '/') path) ∧ ∀ path, ¬ Spells 0 ("1/m".toList.splitOn '/') path := by
  obtain ⟨-, -, -, refused, again, -⟩ := parse_exact
  have read : parse "m//007h/1H/2147483647'/" = .ok [⟨7, true⟩, ⟨1, true⟩, ⟨2147483647, true⟩] := by rfl
  exact ⟨read, again _ _ read, ((refused _ _).1 rfl).2, ((refused _ _).1 rfl).2, ((refused _ _).1 rfl).2⟩

end DerivationPath

end Bitcoin
