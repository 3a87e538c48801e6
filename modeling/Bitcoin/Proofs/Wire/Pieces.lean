import Bitcoin.Proofs.Wire.VarInt

/-! # Plain octets and numbers

What is written for a record is a sequence of pieces: octets as they are, and numbers in any of their forms.
With every number in its shortest form the octets are as few as they can be, and octets are those exactly when
each form in them is shortest.
-/

namespace Bitcoin

namespace Wire

/-- A piece of what is written. -/
inductive Piece where
  | plain (octets : Bytes)
  /-- A count or a length. -/
  | number (n : Nat)

/-- The octets are the pieces one behind the other, with the given forms for the numbers among them. -/
inductive Spelled : List Piece → List Bytes → Bytes → Prop where
  | nil : Spelled [] [] []
  | plain {pieces : List Piece} {forms : List Bytes} {rest : Bytes} (octets : Bytes) :
      Spelled pieces forms rest → Spelled (.plain octets :: pieces) forms (octets ++ rest)
  | number {pieces : List Piece} {forms : List Bytes} {rest form : Bytes} {value : UInt64} {n : Nat} :
      VarInt.Written value form → value.toNat = n → Spelled pieces forms rest →
        Spelled (.number n :: pieces) (form :: forms) (form ++ rest)

/-- The pieces with every number in its shortest form. -/
def spell (pieces : List Piece) : Bytes :=
  pieces.flatMap fun
    | .plain octets => octets
    | .number n => count n

variable {pieces pieces' : List Piece} {forms forms' : List Bytes} {octets octets' rest rest' : Bytes}

@[simp] theorem spell_nil : spell [] = [] :=
  rfl

@[simp] theorem spell_plain (octets : Bytes) (pieces : List Piece) :
    spell (.plain octets :: pieces) = octets ++ spell pieces :=
  rfl

@[simp] theorem spell_number (n : Nat) (pieces : List Piece) :
    spell (.number n :: pieces) = count n ++ spell pieces :=
  rfl

theorem spell_append (pieces pieces' : List Piece) :
    spell (pieces ++ pieces') = spell pieces ++ spell pieces' :=
  List.flatMap_append

theorem spell_flatMap {α : Type} (values : List α) (f : α → List Piece) :
    spell (values.flatMap f) = values.flatMap fun value => spell (f value) :=
  List.flatMap_assoc

theorem count_toNat (value : UInt64) : count value.toNat = VarInt.encode value := by
  rw [count, UInt64.ofNat_toNat]

namespace Spelled

theorem append (front : Spelled pieces forms octets) (back : Spelled pieces' forms' octets') :
    Spelled (pieces ++ pieces') (forms ++ forms') (octets ++ octets') := by
  induction front with
  | nil => exact back
  | plain octets _ ih =>
      rw [List.append_assoc]
      exact .plain octets ih
  | number written size _ ih =>
      rw [List.append_assoc]
      exact .number written size ih

/-- What is spelled by two sequences of pieces is cut where one ends. -/
theorem of_append (h : Spelled (pieces ++ pieces') forms octets) :
    ∃ front back octetsFront octetsBack, Spelled pieces front octetsFront ∧
      Spelled pieces' back octetsBack ∧ forms = front ++ back ∧ octets = octetsFront ++ octetsBack := by
  induction pieces generalizing forms octets with
  | nil => exact ⟨[], forms, [], octets, .nil, h, rfl, rfl⟩
  | cons piece pieces ih =>
      cases h with
      | plain plain h =>
          obtain ⟨front, back, first, second, spelled, spelled', rfl, rfl⟩ := ih h
          exact ⟨front, back, plain ++ first, second, .plain plain spelled, spelled', rfl,
            (List.append_assoc ..).symm⟩
      | number written size h =>
          obtain ⟨front, back, first, second, spelled, spelled', rfl, rfl⟩ := ih h
          exact ⟨_ :: front, back, _ ++ first, second, .number written size spelled, spelled', rfl,
            (List.append_assoc ..).symm⟩

/-- The octets tell the forms, whatever stands behind them. -/
theorem unique (spelled : Spelled pieces forms octets) (spelled' : Spelled pieces forms' octets')
    (same : octets ++ rest = octets' ++ rest') : forms = forms' ∧ rest = rest' := by
  induction spelled generalizing forms' octets' with
  | nil =>
      cases spelled'
      exact ⟨rfl, same⟩
  | plain octets _ ih =>
      cases spelled' with
      | plain _ spelled' =>
          rw [List.append_assoc, List.append_assoc] at same
          exact ih spelled' (List.append_cancel_left same)
  | number written _ _ ih =>
      cases spelled' with
      | number written' _ spelled' =>
          rw [List.append_assoc, List.append_assoc] at same
          obtain ⟨-, rfl, behind⟩ := written.unique written' same
          obtain ⟨rfl, rest⟩ := ih spelled' behind
          exact ⟨rfl, rest⟩

/-- Whatever is spelled fits into the forms of numbers. -/
theorem number_lt (spelled : Spelled pieces forms octets) :
    ∀ n, .number n ∈ pieces → n < UInt64.size := by
  induction spelled with
  | nil => simp
  | plain _ _ ih => simpa using ih
  | number _ size _ ih =>
      intro n member
      rcases List.mem_cons.1 member with same | member
      · cases same
        rw [← size]
        exact UInt64.toNat_lt _
      · exact ih n member

theorem length_spell_le (spelled : Spelled pieces forms octets) : (spell pieces).length ≤ octets.length := by
  induction spelled with
  | nil => exact Nat.le_refl 0
  | plain octets _ ih =>
      rw [spell_plain, List.length_append, List.length_append]
      exact Nat.add_le_add_left ih octets.length
  | number written size _ ih =>
      rw [spell_number, ← size, count_toNat, List.length_append, List.length_append, VarInt.length_encode]
      exact Nat.add_le_add written.length_le ih

/-- Octets are the shortest ones of their pieces exactly if all forms in them are shortest. -/
theorem spell_eq_iff (spelled : Spelled pieces forms octets) :
    spell pieces = octets ↔ ∀ form ∈ forms, VarInt.IsShortest form := by
  induction spelled with
  | nil => simp
  | plain octets _ ih =>
      rw [← ih, spell_plain, List.append_cancel_left_eq]
  | number written size _ ih =>
      rw [List.forall_mem_cons, written.isShortest_iff, ← ih, spell_number, ← size, count_toNat]
      constructor
      · intro same
        obtain ⟨-, form, rest⟩ := (VarInt.written_encode _).unique written same
        exact ⟨form.symm, rest⟩
      · rintro ⟨rfl, rfl⟩
        rfl

end Spelled

/-- Numbers that fit can be spelled. -/
theorem exists_spelled (small : ∀ n, .number n ∈ pieces → n < UInt64.size) :
    ∃ forms, Spelled pieces forms (spell pieces) := by
  induction pieces with
  | nil => exact ⟨[], .nil⟩
  | cons piece pieces ih =>
      obtain ⟨forms, spelled⟩ := ih fun n member => small n (List.mem_cons_of_mem piece member)
      cases piece with
      | plain octets => exact ⟨forms, .plain octets spelled⟩
      | number n =>
          have value := UInt64.toNat_ofNat_of_lt' (small n List.mem_cons_self)
          exact ⟨_, .number (VarInt.written_encode (UInt64.ofNat n)) value spelled⟩

end Wire

/-! ## Reading -/

namespace Reader

open Wire

variable {ε α : Type} {reader : Reader ε α} {pieces : α → List Piece}

/-- A value is read from its pieces, in whatever forms they are spelled, and from nothing else. -/
structure Exact (reader : Reader ε α) (pieces : α → List Piece) : Prop where
  reads : ∀ {value forms octets}, Spelled (pieces value) forms octets → Reads reader octets value
  takes : Takes reader fun value octets => ∃ forms, Spelled (pieces value) forms octets

namespace Exact

theorem reads_many (exact : Exact reader pieces) {values : List α} {forms : List Bytes} {octets : Bytes}
    (spelled : Spelled (values.flatMap pieces) forms octets) :
    Reads (Reader.many reader values.length) octets values := by
  induction values generalizing forms octets with
  | nil =>
      cases spelled
      exact .pure []
  | cons value values ih =>
      obtain ⟨front, back, first, second, head, tail, rfl, rfl⟩ := spelled.of_append
      exact .bind (exact.reads head) (.map (value :: ·) (ih tail))

theorem takes_many (exact : Exact reader pieces) (count : Nat) : Takes (Reader.many reader count)
    fun values octets => values.length = count ∧ ∃ forms, Spelled (values.flatMap pieces) forms octets := by
  induction count with
  | zero =>
      intro unread values rest h
      obtain ⟨rfl, rfl⟩ := pure_eq_ok.1 h
      exact ⟨[], ⟨rfl, [], .nil⟩, rfl⟩
  | succ count ih =>
      intro unread values rest h
      obtain ⟨head, front, _, ⟨forms, spelled⟩, cut, h⟩ := exact.takes.of_bind h
      obtain ⟨tail, back, _, ⟨rfl, forms', spelled'⟩, cut', h⟩ := ih.of_bind h
      obtain ⟨rfl, rfl⟩ := pure_eq_ok.1 h
      refine ⟨front ++ back, ⟨rfl, forms ++ forms', spelled.append spelled'⟩, ?_⟩
      rw [cut, cut', List.append_assoc]

end Exact

end Reader

end Bitcoin
