import Bitcoin.Proofs.Signature.DerForms

/-! # The strict check and its grammar

The check looks octets up at positions that octets of the same string give. Written out with every position, and
with a position outside as a failure of its own, it is still the same check: no look-up ever misses. And what
passes is the grammar of two plain integers in a sequence with a defined hash type behind it.
-/

namespace Bitcoin

namespace Canonical

/-! ## Look-ups that may miss -/

/-- A check that looks octets up: nothing if a look-up misses, and else what the check says. -/
abbrev LookUp := ExceptT Fault Option

namespace LookUp

variable {α : Type} {octets source : Bytes} {position start stop : Nat}

/-- The octet at a position. -/
def octet (octets : Bytes) (position : Nat) : LookUp UInt8 :=
  ExceptT.lift octets[position]?

/-- The octets from one position up to another one. -/
def slice (octets : Bytes) (start stop : Nat) : LookUp Bytes :=
  ExceptT.lift (if start ≤ stop ∧ stop ≤ octets.length then some ((octets.drop start).take (stop - start)) else none)

/-- The octets with all from a position on replaced by others, of which there must be as many. -/
def overwrite (octets : Bytes) (start : Nat) (source : Bytes) : LookUp Bytes :=
  ExceptT.lift (if start + source.length = octets.length then some (octets.take start ++ source) else none)

/-- Go on only under a condition. -/
def demand (condition : Prop) [Decidable condition] (fault : Fault) : LookUp Unit :=
  if condition then pure () else throw fault

theorem octet_bind (inside : position < octets.length) (next : UInt8 → LookUp α) :
    (octet octets position >>= next).run = (next octets[position]).run := by
  rw [octet, List.getElem?_eq_getElem inside]
  rfl

theorem slice_bind (ordered : start ≤ stop) (inside : stop ≤ octets.length) (next : Bytes → LookUp α) :
    (slice octets start stop >>= next).run = (next ((octets.drop start).take (stop - start))).run := by
  rw [slice, if_pos ⟨ordered, inside⟩]
  rfl

theorem overwrite_bind (fits : start + source.length = octets.length) (next : Bytes → LookUp α) :
    (overwrite octets start source >>= next).run = (next (octets.take start ++ source)).run := by
  rw [overwrite, if_pos fits]
  rfl

/-- To refuse is the opposite of to demand. -/
theorem demand_bind_dite {condition refused : Prop} [Decidable condition] [Decidable refused] {fault : Fault}
    {next : Unit → LookUp α} {passed : ¬refused → Except Fault α} (opposite : ¬condition ↔ refused)
    (rest : ∀ met : condition, (next ()).run = some (passed fun refuse => opposite.2 refuse met)) :
    (demand condition fault >>= next).run = some (if h : refused then .error fault else passed h) := by
  unfold demand
  by_cases met : condition
  · rw [if_pos met, dif_neg fun refuse => opposite.2 refuse met, ← rest met]
    rfl
  · rw [if_neg met, dif_pos (opposite.1 met)]
    rfl

theorem demand_bind_ite {condition refused : Prop} [Decidable condition] [Decidable refused] {fault : Fault}
    {next : Unit → LookUp α} {passed : Except Fault α} (opposite : ¬condition ↔ refused)
    (rest : condition → (next ()).run = some passed) :
    (demand condition fault >>= next).run = some (if refused then .error fault else passed) := by
  rw [← dite_eq_ite]
  exact demand_bind_dite opposite rest

end LookUp

open LookUp
open Signature (IsMinimal IsSequence isSequence_iff sequence length_sequence)

/-! ## The check by positions -/

/-- Whether a content is at most half the group order: without its leading zeros it is put behind as many zeros
    as fill 32 octets, and these are compared with the octets of half the group order, first octet first. -/
def isLowByPosition (content : Bytes) : LookUp Bool := do
  let trimmed ← slice content (content.findIdx (· ≠ 0)) content.length
  if 32 < trimmed.length then return false
  else do
    let padded ← overwrite (List.replicate 32 0) (32 - trimmed.length) trimmed
    return padded ≤ (Octets.ofNat 32 halfOrder).toList

/-- The content of an element whose tag is at a position, with its tag and its form checked. -/
def elementByPosition (part : SignaturePart) (sig : Bytes) (position length : Nat) : LookUp Bytes := do
  let content ← slice sig (position + 2) (position + 2 + length)
  let tag ← octet sig position
  demand (tag = 2) (.notInteger part)
  ExceptT.mk (some (checkInteger part content))
  return content

/-- The strict check with its positions written out. -/
def checkByPosition (sig : Bytes) (requireLowS : Bool) : LookUp Unit := do
  let size := sig.length
  demand (9 ≤ size) (.tooShort size)
  demand (size ≤ 73) (.tooLong size)
  let hashType ← octet sig (size - 1)
  demand (isDefinedHashType hashType) (.undefinedHashType hashType)
  demand ((← octet sig 0) = 0x30) .wrongTag
  demand ((← octet sig 1).toNat = size - 3) .wrongTotal
  let lengthR := (← octet sig 3).toNat
  demand (5 + lengthR < size) .misplacedS
  let lengthS := (← octet sig (5 + lengthR)).toNat
  demand (lengthR + lengthS + 7 = size) .lengthMismatch
  let _ ← elementByPosition .r sig 2 lengthR
  let s ← elementByPosition .s sig (4 + lengthR) lengthS
  if requireLowS then demand (← isLowByPosition s) .highS

/-! ## No position is outside -/

variable {sig content : Bytes} {requireLowS : Bool}

/-- Half the group order is compared with in 32 octets, and what needs more octets is above it. -/
theorem run_isLowByPosition (content : Bytes) :
    (isLowByPosition content).run = some (.ok (decide (Bytes.toNat content ≤ halfOrder))) := by
  have fits : halfOrder < 256 ^ 32 := by decide
  have trimmed : (content.drop (content.findIdx (· ≠ 0))).take (content.length - content.findIdx (· ≠ 0)) =
      Bytes.ofNat (Bytes.toNat content) := by
    rw [List.take_of_length_le (by simp), ← Bytes.dropWhile_zero, List.dropWhile_eq_drop_findIdx_not]
    simp
  unfold isLowByPosition
  rw [slice_bind List.findIdx_le_length (Nat.le_refl _), trimmed]
  by_cases wide : 32 < (Bytes.ofNat (Bytes.toNat content)).length
  · have above : ¬Bytes.toNat content ≤ halfOrder := fun low =>
      Nat.not_le.2 wide (Bytes.length_ofNat_le.2 (low.trans_lt fits))
    rw [if_pos wide, decide_eq_false above]
    rfl
  · have zeros : (List.replicate 32 (0 : UInt8)).length = 32 := List.length_replicate
    have padding : (List.replicate 32 (0 : UInt8)).take (32 - (Bytes.ofNat (Bytes.toNat content)).length) =
        List.replicate (32 - (Bytes.ofNat (Bytes.toNat content)).length) 0 := by
      rw [List.take_replicate, Nat.min_eq_left (Nat.sub_le _ _)]
    have width : (List.replicate (32 - (Bytes.ofNat (Bytes.toNat content)).length) 0 ++
        Bytes.ofNat (Bytes.toNat content)).length = (Octets.ofNat 32 halfOrder).toList.length := by
      rw [List.length_append, List.length_replicate, Octets.length_eq]
      omega
    have value : Bytes.toNat (Octets.ofNat 32 halfOrder).toList = halfOrder := Octets.toNat_ofNat_of_lt fits
    rw [if_neg wide, overwrite_bind (by omega), padding]
    simp only [Bytes.le_iff_toNat_le width, value, Bytes.toNat_replicate_zero_append, Bytes.toNat_ofNat]
    rfl

theorem isLowByPosition_bind {α : Type} (next : Bool → LookUp α) :
    (isLowByPosition content >>= next).run = (next (decide (Bytes.toNat content ≤ halfOrder))).run := by
  rw [ExceptT.run_bind, run_isLowByPosition]
  rfl

theorem elementByPosition_bind {part : SignaturePart} {position start length : Nat} {α : Type}
    {next : Bytes → LookUp α} {passed : Except Fault α} (behind : position + 2 = start)
    (inside : start + length ≤ sig.length)
    (rest : (next ((sig.drop start).take length)).run = some passed) :
    (elementByPosition part sig position length >>= next).run =
      some (checkElement part sig[position] ((sig.drop start).take length) >>= fun _ => passed) := by
  subst behind
  unfold elementByPosition checkElement
  simp only [bind_assoc]
  rw [slice_bind (Nat.le_add_right _ _) inside, octet_bind (by omega), Nat.add_sub_cancel_left]
  by_cases integer : sig[position] = 2
  · rw [if_pos integer]
    unfold demand
    rw [if_pos integer]
    cases checkInteger part ((sig.drop (position + 2)).take length) with
    | ok => exact rest
    | error fault => rfl
  · rw [if_neg integer]
    unfold demand
    rw [if_neg integer]
    rfl

/-- No position is outside, and what is found there is what the check looks at. -/
theorem run_checkByPosition (sig : Bytes) (requireLowS : Bool) :
    (checkByPosition sig requireLowS).run = some (checkSignature sig requireLowS) := by
  unfold checkByPosition checkSignature
  apply demand_bind_dite Nat.not_le
  intro long
  apply demand_bind_ite Nat.not_le
  intro short
  rw [octet_bind (by omega)]
  apply demand_bind_ite Iff.rfl
  intro defined
  rw [octet_bind (by omega)]
  apply demand_bind_ite Iff.rfl
  intro tag
  rw [octet_bind (by omega)]
  apply demand_bind_ite Iff.rfl
  intro total
  rw [octet_bind (by omega)]
  apply demand_bind_dite Nat.not_lt
  intro inside
  rw [octet_bind inside]
  apply demand_bind_ite Iff.rfl
  intro lengths
  apply elementByPosition_bind rfl (by omega)
  apply elementByPosition_bind (by omega) (by omega)
  cases requireLowS with
  | false => rfl
  | true =>
      rw [if_pos rfl, isLowByPosition_bind, ← bind_pure (demand _ _)]
      exact demand_bind_ite (by simp) fun _ => rfl

/-! ## The grammar -/

theorem isDefinedHashType_iff {hashType : UInt8} :
    isDefinedHashType hashType = true ↔ (hashType &&& 0x7f) ∈ ([1, 2, 3] : Bytes) := by
  constructor
  · intro defined
    obtain ⟨least, most⟩ := of_decide_eq_true defined
    rw [UInt8.le_iff_toNat_le] at least most
    have low : 1 ≤ (hashType &&& 0x7f).toNat := least
    have high : (hashType &&& 0x7f).toNat ≤ 3 := most
    simp only [List.mem_cons, List.not_mem_nil, or_false, ← UInt8.toNat_inj]
    show _ = 1 ∨ _ = 2 ∨ _ = 3
    omega
  · exact isDefinedHashType_of_mem

/-- Octets of the strict form: a sequence of two integers and the hash type behind it, with every length the
    number of the octets that it is about. -/
structure IsCanonical (sig : Bytes) (requireLowS : Bool) (total lengthR : UInt8) (r : Bytes) (lengthS : UInt8)
    (s : Bytes) (hashType : UInt8) : Prop where
  shape : sig = 0x30 :: total :: 2 :: lengthR :: (r ++ 2 :: lengthS :: (s ++ [hashType]))
  long : 9 ≤ sig.length
  short : sig.length ≤ 73
  whole : total.toNat = sig.length - 3
  sizeR : r.length = lengthR.toNat
  sizeS : s.length = lengthS.toNat
  nonemptyR : 1 ≤ r.length
  nonemptyS : 1 ≤ s.length
  sizes : lengthR.toNat + lengthS.toNat + 7 = sig.length
  minimalR : IsMinimal r
  minimalS : IsMinimal s
  defined : (hashType &&& 0x7f) ∈ ([1, 2, 3] : Bytes)
  low : requireLowS = true → Bytes.toNat s ≤ groupOrder / 2

/-- What passes is what has the strict form. -/
theorem checkSignature_eq_ok_iff_isCanonical : checkSignature sig requireLowS = .ok () ↔
    ∃ total lengthR r lengthS s hashType,
      IsCanonical sig requireLowS total lengthR r lengthS s hashType := by
  constructor
  · intro passed
    obtain ⟨r, s, h, rfl, small, defined, minimalR, minimalS, low⟩ := checkSignature_eq_ok.1 passed
    have few : r.length + s.length ≤ 251 := by omega
    obtain ⟨total, lengthR, lengthS, shape, whole, sizeR, sizeS⟩ := isSequence_iff.2 ⟨rfl, few⟩
    have nonemptyR := List.length_pos_iff.2 minimalR.ne_nil
    have nonemptyS := List.length_pos_iff.2 minimalS.ne_nil
    have size : (sequence r s ++ [h]).length = r.length + s.length + 7 := by
      rw [List.length_append, length_sequence]
      rfl
    rw [length_sequence] at whole
    exact ⟨total, lengthR, r, lengthS, s, h,
      { shape := by rw [shape]; simp
        long := by omega
        short := by omega
        whole := by omega
        sizeR := sizeR.symm
        sizeS := sizeS.symm
        nonemptyR := nonemptyR
        nonemptyS := nonemptyS
        sizes := by omega
        minimalR := minimalR
        minimalS := minimalS
        defined := isDefinedHashType_iff.1 defined
        low := halfOrder_eq ▸ low }⟩
  · intro ⟨total, lengthR, r, lengthS, s, hashType, grammar⟩
    -- Without the hash type the octets are a sequence, and there is one sequence of two contents.
    have cut : sig = (0x30 :: total :: 2 :: lengthR :: (r ++ 2 :: lengthS :: s)) ++ [hashType] := by
      rw [grammar.shape]
      simp
    have size := congrArg List.length cut
    have whole := grammar.whole
    have short := grammar.short
    have long := grammar.long
    rw [List.length_append, List.length_singleton] at size
    have shape : IsSequence (0x30 :: total :: 2 :: lengthR :: (r ++ 2 :: lengthS :: s)) r s :=
      ⟨total, lengthR, lengthS, rfl, by omega, grammar.sizeR.symm, grammar.sizeS.symm⟩
    have written := (isSequence_iff.1 shape).1
    rw [written, length_sequence] at size
    rw [written] at cut
    exact checkSignature_eq_ok.2 ⟨r, s, hashType, cut, by omega, isDefinedHashType_iff.2 grammar.defined,
      grammar.minimalR, grammar.minimalS, halfOrder_eq ▸ grammar.low⟩

/-! ## Demanding a low number -/

/-- Two answers of which the first refuses a high number and else is the second. -/
def DiffersByHigh (strict lax : Except Fault Unit) : Prop :=
  strict = lax ∨ lax = .ok () ∧ strict = .error .highS

namespace DiffersByHigh

variable {strict lax refusal : Except Fault Unit}

theorem dite {refused : Prop} [Decidable refused] {strict lax : ¬refused → Except Fault Unit}
    (rest : ∀ h, DiffersByHigh (strict h) (lax h)) :
    DiffersByHigh (if h : refused then refusal else strict h) (if h : refused then refusal else lax h) := by
  by_cases h : refused
  · rw [dif_pos h, dif_pos h]
    exact .inl rfl
  · rw [dif_neg h, dif_neg h]
    exact rest h

theorem ite {refused : Prop} [Decidable refused] (rest : DiffersByHigh strict lax) :
    DiffersByHigh (if refused then refusal else strict) (if refused then refusal else lax) := by
  rw [← dite_eq_ite, ← dite_eq_ite]
  exact dite fun _ => rest

theorem bind (first : Except Fault Unit) (rest : DiffersByHigh strict lax) :
    DiffersByHigh (first >>= fun _ => strict) (first >>= fun _ => lax) := by
  cases first with
  | ok => exact rest
  | error fault => exact .inl rfl

end DiffersByHigh

/-- Both answers come by the same checks up to the last one. -/
theorem differsByHigh_checkSignature (sig : Bytes) :
    DiffersByHigh (checkSignature sig true) (checkSignature sig false) := by
  unfold checkSignature
  apply DiffersByHigh.dite
  intro long
  apply DiffersByHigh.ite
  apply DiffersByHigh.ite
  apply DiffersByHigh.ite
  apply DiffersByHigh.ite
  apply DiffersByHigh.dite
  intro inside
  apply DiffersByHigh.ite
  apply DiffersByHigh.bind
  apply DiffersByHigh.bind
  rw [if_neg (show ¬(false = true ∧ _) from fun high => Bool.false_ne_true high.1)]
  split_ifs with high
  · exact .inr ⟨rfl, rfl⟩
  · exact .inl rfl

/-- Every position that the strict check looks at is inside, whatever the octets are; what passes is exactly what
    has the strict form; and a demand for a low `s` turns nothing but a pass into another answer. -/
theorem strictCheck_exact (sig : Bytes) (requireLowS : Bool) :
    (checkByPosition sig requireLowS).run = some (checkSignature sig requireLowS) ∧
    (checkSignature sig requireLowS = .ok () ↔ ∃ total lengthR r lengthS s hashType,
      IsCanonical sig requireLowS total lengthR r lengthS s hashType) ∧
    (checkSignature sig true = checkSignature sig false ∨
      checkSignature sig false = .ok () ∧ checkSignature sig true = .error .highS) :=
  ⟨run_checkByPosition sig requireLowS, checkSignature_eq_ok_iff_isCanonical, differsByHigh_checkSignature sig⟩

end Canonical

end Bitcoin
