import Bitcoin.Proofs.Curve.Order
import Bitcoin.Proofs.Signature.Components
import Bitcoin.Signature.Ecdsa
import Mathlib.Tactic.Module

/-! # Who signed

A signature, a hash and a point determine the witness of the signature, and a recovery id names one of the
points with the first coordinate `r`. The point is a signer when its witness is the point that is named.
Signing makes a signature of the secret's point in this sense, verifying asks whether there is an id that
makes the point a signer, and recovering solves the same equation for the point.
-/

namespace Bitcoin

/-! ## Points that are named -/

namespace RecoveryId

variable {id : RecoveryId} {r : Scalar} {p : Point}

/-- Among the points of the curve with the first coordinate `r` modulo the group order, the id singles this
    one out. -/
def Names (id : RecoveryId) (r : Scalar) : Point → Prop
  | .infinity => False
  | .affine x y => (Point.affine x y).OnCurve ∧ Fin.ofNat groupOrder x.val = r ∧
      id = { oddY := y.isOdd, overflow := groupOrder ≤ x.val }

theorem Names.onCurve (names : id.Names r p) : p.OnCurve := by
  cases p with
  | infinity => exact names.elim
  | affine x y => exact names.1

@[simp] theorem mirror_mirror (id : RecoveryId) : id.mirror.mirror = id := by
  cases id with
  | mk oddY overflow => cases oddY <;> rfl

/-- The id of the mirror image is the mirrored id. -/
theorem Names.negate (names : id.Names r p) : id.mirror.Names r p.negate := by
  cases p with
  | infinity => exact names.elim
  | affine x y =>
      obtain ⟨onCurve, first, rfl⟩ := names
      refine ⟨Point.onCurve_negate onCurve, first, ?_⟩
      rw [FieldElement.isOdd_neg (Point.height_ne_zero onCurve)]
      rfl

end RecoveryId

namespace Ecdsa

variable {q p : Point} {sig : Signature} {id : RecoveryId} {hash : Octets 32} {r s z : Scalar}

theorem xScalar?_eq_some (onCurve : p.OnCurve) : xScalar? p = some r ↔ ∃ id : RecoveryId, id.Names r p := by
  cases p with
  | infinity => simp [xScalar?, RecoveryId.Names]
  | affine x y =>
      constructor
      · intro first
        exact ⟨_, onCurve, Option.some.inj first, rfl⟩
      · rintro ⟨id, -, first, -⟩
        exact congrArg some first

/-- A field element is less than twice the group order. -/
theorem val_mod_groupOrder (x : FieldElement) :
    x.val % groupOrder = if groupOrder ≤ x.val then x.val - groupOrder else x.val := by
  have large : fieldPrime < 2 * groupOrder := by decide
  have small := x.isLt
  split_ifs with beyond
  · rw [Nat.mod_eq_sub_mod beyond, Nat.mod_eq_of_lt (by omega)]
  · exact Nat.mod_eq_of_lt (by omega)

theorem restoreX?_eq_some {overflow : Bool} {x : FieldElement} : restoreX? r overflow = some x ↔
    Fin.ofNat groupOrder x.val = r ∧ overflow = decide (groupOrder ≤ x.val) := by
  have rSmall := r.isLt
  have first : Fin.ofNat groupOrder x.val = r ↔ x.val % groupOrder = r.val := Fin.ext_iff
  rw [first, val_mod_groupOrder]
  unfold restoreX?
  simp only
  constructor
  · intro h
    split_ifs at h with flag inside inside
    · cases h
      simp [flag]
    · cases h
      simp [flag]
  · rintro ⟨value, rfl⟩
    by_cases beyond : groupOrder ≤ x.val
    · have sum : r.val + groupOrder = x.val := by
        rw [if_pos beyond] at value
        omega
      simp only [beyond, decide_true, if_true, sum, x.isLt, dif_pos]
    · have same : r.val = x.val := by
        rw [if_neg beyond] at value
        exact value.symm
      simp only [beyond, decide_false, Bool.false_eq_true, if_false, same, x.isLt, dif_pos]

/-- Restoring a coordinate and lifting it finds the point that the id names. -/
theorem restore_lift_eq_some :
    (restoreX? r id.overflow).bind (Point.lift? · id.oddY) = some p ↔ id.Names r p := by
  rw [Option.bind_eq_some_iff]
  constructor
  · rintro ⟨x, restored, lifted⟩
    obtain ⟨first, beyond⟩ := restoreX?_eq_some.1 restored
    obtain ⟨y, onCurve, odd, rfl⟩ := Point.lift?_eq_some_iff.1 lifted
    refine ⟨onCurve, first, ?_⟩
    cases id
    cases beyond
    cases odd
    rfl
  · intro names
    cases p with
    | infinity => exact names.elim
    | affine x y =>
        obtain ⟨onCurve, first, rfl⟩ := names
        exact ⟨x, restoreX?_eq_some.2 ⟨first, rfl⟩, Point.lift?_eq_some_iff.2 ⟨y, onCurve, rfl, rfl⟩⟩

/-! ## The witness of a signature -/

theorem onCurve_witness (onCurve : q.OnCurve) (r s z : Scalar) : (witness q r s z).OnCurve :=
  Point.onCurve_add (Point.onCurve_generator_multiply _) (Point.onCurve_multiply onCurve _)

theorem toGroup_witness (onCurve : q.OnCurve) (r s z : Scalar) : (witness q r s z).toGroup =
    (residue s)⁻¹ • (residue z • Point.generator.toGroup + residue r • q.toGroup) := by
  have left := Point.onCurve_generator_multiply (z * s.inverse)
  have right := Point.onCurve_multiply onCurve (r * s.inverse)
  unfold witness
  rw [Point.toGroup_add left right, Point.toGroup_multiply_residue Point.onCurve_generator,
    Point.toGroup_multiply_residue onCurve]
  simp only [residue_mul, Scalar.residue_inverse]
  module

/-- The opposite of `s` mirrors the witness. -/
theorem witness_neg (onCurve : q.OnCurve) (r s z : Scalar) :
    witness q r (-s) z = (witness q r s z).negate := by
  have onWitness := onCurve_witness onCurve r s z
  rw [← Point.toGroup_inj (onCurve_witness onCurve r (-s) z) (Point.onCurve_negate onWitness),
    Point.toGroup_negate onWitness, toGroup_witness onCurve, toGroup_witness onCurve, residue_neg, inv_neg,
    neg_smul]

/-- The point that has a given witness. -/
def solve (nonce : Point) (r s z : Scalar) : Point :=
  let w := r.inverse
  (Point.generator.multiply (-(w * z))).add (nonce.multiply (w * s))

theorem onCurve_solve (onCurve : p.OnCurve) (r s z : Scalar) : (solve p r s z).OnCurve :=
  Point.onCurve_add (Point.onCurve_generator_multiply _) (Point.onCurve_multiply onCurve _)

theorem toGroup_solve (onCurve : p.OnCurve) (r s z : Scalar) : (solve p r s z).toGroup =
    (residue r)⁻¹ • (residue s • p.toGroup - residue z • Point.generator.toGroup) := by
  have left := Point.onCurve_generator_multiply (-(r.inverse * z))
  have right := Point.onCurve_multiply onCurve (r.inverse * s)
  unfold solve
  rw [Point.toGroup_add left right, Point.toGroup_multiply_residue Point.onCurve_generator,
    Point.toGroup_multiply_residue onCurve]
  simp only [residue_mul, residue_neg, Scalar.residue_inverse]
  module

/-- The equation of signatures, solved for either point. -/
theorem solve_eq_iff (onCurve : p.OnCurve) (onSigner : q.OnCurve) (rNonzero : r ≠ 0) (sNonzero : s ≠ 0) :
    solve p r s z = q ↔ witness q r s z = p := by
  have rUnit : residue r ≠ 0 := residue_eq_zero.not.2 rNonzero
  have sUnit : residue s ≠ 0 := residue_eq_zero.not.2 sNonzero
  rw [← Point.toGroup_inj (onCurve_solve onCurve r s z) onSigner, toGroup_solve onCurve,
    ← Point.toGroup_inj (onCurve_witness onSigner r s z) onCurve, toGroup_witness onSigner,
    inv_smul_eq_iff₀ rUnit, inv_smul_eq_iff₀ sUnit, sub_eq_iff_eq_add', eq_comm]

/-! ## Signers -/

/-- The point signed the hash: it is not infinity, and its witness is the point that the id names. -/
def SignedBy (q : Point) (sig : Signature) (id : RecoveryId) (hash : Octets 32) : Prop :=
  q ≠ .infinity ∧ ∃ r s, sig.components? = some (r, s) ∧ id.Names r (witness q r s (Scalar.reduce hash))

/-- The opposite signature is by the same signer, with the mirrored id. -/
theorem SignedBy.opposite (onCurve : q.OnCurve) (signed : SignedBy q sig id hash) :
    SignedBy q sig.opposite id.mirror hash := by
  obtain ⟨finite, r, s, possible, names⟩ := signed
  obtain ⟨rNonzero, sNonzero, rfl⟩ := Signature.components?_eq_some.1 possible
  refine ⟨finite, r, -s, ?_, ?_⟩
  · rw [Signature.opposite_ofScalars r sNonzero]
    exact Signature.components?_eq_some.2 ⟨rNonzero, Scalar.neg_ne_zero sNonzero, rfl⟩
  · rw [witness_neg onCurve]
    exact names.negate

theorem signedBy_ofScalars (rNonzero : r ≠ 0) (sNonzero : s ≠ 0) :
    SignedBy q (Signature.ofScalars r s) id hash ↔
      q ≠ .infinity ∧ id.Names r (witness q r s (Scalar.reduce hash)) := by
  refine and_congr_right fun _ => ?_
  constructor
  · rintro ⟨r', s', possible, names⟩
    rw [Signature.components?_eq_some.2 ⟨rNonzero, sNonzero, rfl⟩] at possible
    cases possible
    exact names
  · intro names
    exact ⟨r, s, Signature.components?_eq_some.2 ⟨rNonzero, sNonzero, rfl⟩, names⟩

/-- The id that goes with the lower one of `s` and its opposite. -/
def lowerId (s : Scalar) (id : RecoveryId) : RecoveryId :=
  if s.isHigh then id.mirror else id

@[simp] theorem lowerId_lowerId (s : Scalar) (id : RecoveryId) : lowerId s (lowerId s id) = id := by
  unfold lowerId
  split_ifs <;> simp

/-- Choosing the lower `s`, and the id that goes with it, keeps the signer. -/
theorem signedBy_lower (onCurve : q.OnCurve) (sNonzero : s ≠ 0) :
    SignedBy q (Signature.ofScalars r s.lower) (lowerId s id) hash ↔
      SignedBy q (Signature.ofScalars r s) id hash := by
  unfold Scalar.lower lowerId
  split_ifs with high
  · have flipped := Signature.opposite_ofScalars r sNonzero
    have back := Signature.opposite_ofScalars r (Scalar.neg_ne_zero sNonzero)
    rw [Scalar.neg_neg] at back
    constructor
    · intro signed
      have again := signed.opposite onCurve
      rwa [back, RecoveryId.mirror_mirror] at again
    · intro signed
      have again := signed.opposite onCurve
      rwa [flipped] at again
  · exact Iff.rfl

/-- A signature verifies for exactly the points that signed with some id. -/
theorem verify_iff (onCurve : q.OnCurve) : verify q sig hash = true ↔ ∃ id, SignedBy q sig id hash := by
  unfold verify
  rw [Signature.components?_normalizeS]
  cases possible : sig.components? with
  | none => simp [SignedBy, possible]
  | some pair =>
      obtain ⟨r, s⟩ := pair
      obtain ⟨rNonzero, sNonzero, rfl⟩ := Signature.components?_eq_some.1 possible
      have onWitness := onCurve_witness onCurve r s.lower (Scalar.reduce hash)
      have lowered (id : RecoveryId) : SignedBy q (Signature.ofScalars r s.lower) id hash ↔
          q ≠ .infinity ∧ id.Names r (witness q r s.lower (Scalar.reduce hash)) :=
        signedBy_ofScalars rNonzero (Scalar.lower_ne_zero sNonzero)
      simp only [Option.map_some, decide_eq_true_eq, xScalar?_eq_some onWitness, ← exists_and_left,
        ← lowered]
      constructor
      · rintro ⟨id, signed⟩
        refine ⟨lowerId s id, (signedBy_lower onCurve sNonzero).1 ?_⟩
        rwa [lowerId_lowerId]
      · rintro ⟨id, signed⟩
        exact ⟨lowerId s id, (signedBy_lower onCurve sNonzero).2 signed⟩

/-- Recovering, with the choice of the lower `s` made once. -/
theorem recover?_ofScalars (rNonzero : r ≠ 0) (sNonzero : s ≠ 0) :
    recover? (Signature.ofScalars r s) id hash =
      ((restoreX? r (lowerId s id).overflow).bind (Point.lift? · (lowerId s id).oddY)).bind fun nonce =>
        let q := solve nonce r s.lower (Scalar.reduce hash)
        if verify q (Signature.ofScalars r s.lower) hash then some q else none := by
  unfold recover? Scalar.lower lowerId
  rw [Signature.components?_eq_some.2 ⟨rNonzero, sNonzero, rfl⟩]
  simp only [Option.bind_eq_bind, Option.bind_some]
  cases s.isHigh with
  | true => simp only [if_true, Option.bind_assoc, solve]
  | false => simp only [Bool.false_eq_true, if_false, Option.bind_assoc, solve]

/-- Recovering finds exactly the signer. -/
theorem recover?_eq_some : recover? sig id hash = some q ↔ q.OnCurve ∧ SignedBy q sig id hash := by
  cases possible : sig.components? with
  | none =>
      have lacking : ¬SignedBy q sig id hash := by
        rintro ⟨-, r, s, some, -⟩
        rw [possible] at some
        cases some
      have fails : recover? sig id hash = none := by
        unfold recover?
        rw [possible]
        rfl
      simp [fails, lacking]
  | some pair =>
      obtain ⟨r, s⟩ := pair
      obtain ⟨rNonzero, sNonzero, rfl⟩ := Signature.components?_eq_some.1 possible
      have lower := Scalar.lower_ne_zero sNonzero
      rw [recover?_ofScalars rNonzero sNonzero, Option.bind_eq_some_iff]
      simp only [restore_lift_eq_some]
      constructor
      · rintro ⟨nonce, names, found⟩
        split_ifs at found with verified
        cases found
        have onCurve := onCurve_solve names.onCurve r s.lower (Scalar.reduce hash)
        refine ⟨onCurve, (signedBy_lower onCurve sNonzero).1 ((signedBy_ofScalars rNonzero lower).2 ⟨?_, ?_⟩)⟩
        · obtain ⟨_, finite, -⟩ := (verify_iff onCurve).1 verified
          exact finite
        · rwa [(solve_eq_iff names.onCurve onCurve rNonzero lower).1 rfl]
      · rintro ⟨onCurve, signed⟩
        have lowered := (signedBy_lower onCurve sNonzero).2 signed
        obtain ⟨finite, names⟩ := (signedBy_ofScalars rNonzero lower).1 lowered
        refine ⟨_, names, ?_⟩
        have solved := (solve_eq_iff names.onCurve onCurve rNonzero lower).2 rfl
        simp only [solved, (verify_iff onCurve).2 ⟨_, lowered⟩, if_true]

/-- The opposite signature with the mirrored id leads to the same signer. -/
theorem recover?_opposite (inRange : Signature.InRange sig.s) (id : RecoveryId) (hash : Octets 32) :
    recover? sig.opposite id.mirror hash = recover? sig id hash := by
  apply Option.ext
  intro q
  rw [recover?_eq_some, recover?_eq_some]
  refine and_congr_right fun onCurve => ⟨fun signed => ?_, fun signed => signed.opposite onCurve⟩
  have back := signed.opposite onCurve
  rwa [Signature.opposite_opposite inRange, RecoveryId.mirror_mirror] at back

/-! ## Signing -/

variable {secret nonce : Scalar}

/-- The second number that a nonce gives, before the lower one is chosen. -/
def secondNumber (secret nonce r z : Scalar) : Scalar :=
  nonce.inverse * (z + r * secret)

/-- The nonce gives a zero in the place of one of the two numbers. -/
def Degenerate (secret nonce : Scalar) (hash : Octets 32) : Prop :=
  ∃ r, xScalar? (Point.generator.multiply nonce) = some r ∧
    (r = 0 ∨ secondNumber secret nonce r (Scalar.reduce hash) = 0)

/-- Signing, with the choice of the lower `s` made once. -/
theorem signWith?_affine {x y : FieldElement} (point : Point.generator.multiply nonce = .affine x y) :
    signWith? secret nonce hash =
      let r := Fin.ofNat groupOrder x.val
      let s := secondNumber secret nonce r (Scalar.reduce hash)
      if r = 0 ∨ s = 0 then none
      else some (Signature.ofScalars r s.lower,
        lowerId s { oddY := y.isOdd, overflow := groupOrder ≤ x.val }) := by
  unfold signWith? secondNumber Scalar.lower lowerId
  rw [point]
  dsimp only
  split_ifs <;> rfl

/-- The witness of what is made with a nonce is the nonce's point. -/
theorem witness_secondNumber (r z : Scalar) (nonceNonzero : nonce ≠ 0)
    (sNonzero : secondNumber secret nonce r z ≠ 0) :
    witness (Point.generator.multiply secret) r (secondNumber secret nonce r z) z =
      Point.generator.multiply nonce := by
  have onSigner := Point.onCurve_generator_multiply secret
  have unit : residue (secondNumber secret nonce r z) ≠ 0 := residue_eq_zero.not.2 sNonzero
  have nonceUnit : residue nonce ≠ 0 := residue_eq_zero.not.2 nonceNonzero
  rw [← Point.toGroup_inj (onCurve_witness onSigner _ _ _) (Point.onCurve_generator_multiply nonce),
    toGroup_witness onSigner, inv_smul_eq_iff₀ unit, Point.toGroup_multiply_residue Point.onCurve_generator,
    Point.toGroup_multiply_residue Point.onCurve_generator, smul_smul, smul_smul, ← add_smul]
  congr 1
  simp only [secondNumber, residue_mul, residue_add, Scalar.residue_inverse]
  field_simp

/-- What is made with a nonce is low, and signed by the secret's point. -/
theorem signWith?_eq_some (secretNonzero : secret ≠ 0) (nonceNonzero : nonce ≠ 0)
    (h : signWith? secret nonce hash = some (sig, id)) :
    sig.isLowS = true ∧ SignedBy (Point.generator.multiply secret) sig id hash := by
  have finite := Point.generator_multiply_eq_infinity.not.2 secretNonzero
  have onSigner := Point.onCurve_generator_multiply secret
  have onNonce := Point.onCurve_generator_multiply nonce
  cases point : Point.generator.multiply nonce with
  | infinity => exact absurd (Point.generator_multiply_eq_infinity.1 point) nonceNonzero
  | affine x y =>
      rw [signWith?_affine point] at h
      dsimp only at h
      split_ifs at h with degenerate
      obtain ⟨rNonzero, sNonzero⟩ := not_or.1 degenerate
      cases h
      refine ⟨?_, (signedBy_lower onSigner sNonzero).2 ?_⟩
      · rw [Signature.isLowS_ofScalars, Scalar.isHigh_lower sNonzero]
        rfl
      · refine (signedBy_ofScalars rNonzero sNonzero).2 ⟨finite, ?_⟩
        rw [witness_secondNumber _ _ nonceNonzero sNonzero, point]
        exact ⟨point ▸ onNonce, rfl, rfl⟩

/-- With a nonce other than zero only a zero in the place of one of the numbers keeps from signing. -/
theorem signWith?_eq_none (nonceNonzero : nonce ≠ 0) :
    signWith? secret nonce hash = none ↔ Degenerate secret nonce hash := by
  unfold Degenerate
  cases point : Point.generator.multiply nonce with
  | infinity => exact absurd (Point.generator_multiply_eq_infinity.1 point) nonceNonzero
  | affine x y =>
      rw [signWith?_affine point]
      dsimp only [xScalar?]
      constructor
      · intro h
        split_ifs at h with degenerate
        exact ⟨_, rfl, degenerate⟩
      · rintro ⟨r, first, degenerate⟩
        cases first
        exact if_pos degenerate

end Ecdsa

namespace Nonce

variable {tries tries' : Nat} {state : State} {secret nonce : Scalar} {hash : Octets 32}

/-- The generator after a draw that is no nonce. -/
def State.next (state : State) : State :=
  state.draw.mix 0 []

/-- The next draw is no nonce: it is zero, or not below the group order. -/
def State.Refuses (state : State) : Prop :=
  state.draw.value.toNat = 0 ∨ groupOrder ≤ state.draw.value.toNat

theorem search_of_refuses (refused : state.Refuses) (tries : Nat) :
    search (tries + 1) state = search tries state.next := by
  rcases refused with zero | large
  · have below : state.draw.value.toNat < groupOrder := zero ▸ by decide
    exact (dif_pos below).trans (if_pos zero)
  · exact dif_neg (Nat.not_lt.2 large)

/-- A draw that is a nonce ends the search, however many tries are left. -/
theorem search_of_not_refuses (drawn : ¬state.Refuses) :
    ∃ nonce, nonce ≠ 0 ∧ ∀ tries, search (tries + 1) state = some nonce := by
  obtain ⟨nonzero, small⟩ := not_or.1 drawn
  have below : state.draw.value.toNat < groupOrder := Nat.lt_of_not_le small
  refine ⟨⟨_, below⟩, fun zero => nonzero (congrArg Fin.val zero), fun tries => ?_⟩
  exact (dif_pos below).trans (if_neg nonzero)

/-- The number of tries decides whether a nonce is found, never which. -/
theorem search_of_le (more : tries ≤ tries') (h : search tries state = some nonce) :
    search tries' state = some nonce := by
  induction tries generalizing state tries' with
  | zero => cases h
  | succ tries ih =>
      obtain ⟨tries', rfl⟩ := Nat.exists_eq_add_one.2 (Nat.zero_lt_of_lt more)
      by_cases refused : state.Refuses
      · rw [search_of_refuses refused] at h ⊢
        exact ih (Nat.le_of_succ_le_succ more) h
      · obtain ⟨found, -, ends⟩ := search_of_not_refuses refused
        rw [ends] at h ⊢
        exact h

theorem ne_zero_of_search (h : search tries state = some nonce) : nonce ≠ 0 := by
  induction tries generalizing state with
  | zero => cases h
  | succ tries ih =>
      by_cases refused : state.Refuses
      · rw [search_of_refuses refused] at h
        exact ih h
      · obtain ⟨found, nonzero, ends⟩ := search_of_not_refuses refused
        rw [ends] at h
        cases h
        exact nonzero

/-- None is found exactly when every draw that is tried is none. -/
theorem search_eq_none : search tries state = none ↔ ∀ i < tries, (State.next^[i] state).Refuses := by
  induction tries generalizing state with
  | zero => simp [search]
  | succ tries ih =>
      rw [Nat.forall_lt_succ_left]
      by_cases refused : state.Refuses
      · have later : search tries state.next = none ↔ ∀ i < tries, (State.next^[i + 1] state).Refuses := ih
        rw [search_of_refuses refused, later]
        exact (and_iff_right refused).symm
      · obtain ⟨found, -, ends⟩ := search_of_not_refuses refused
        rw [ends]
        exact ⟨nofun, fun all => absurd all.1 refused⟩

theorem derive?_eq_none : derive? secret hash = none ↔
    ∀ i < maxTries, (State.next^[i] (start secret hash)).Refuses :=
  search_eq_none

/-- A nonce is never zero. -/
theorem ne_zero_of_derive? (h : derive? secret hash = some nonce) : nonce ≠ 0 :=
  ne_zero_of_search h

end Nonce

namespace Ecdsa

variable {secret : Scalar} {hash : Octets 32} {sig : Signature} {id : RecoveryId}

theorem sign?_eq_some (secretNonzero : secret ≠ 0) (h : sign? secret hash = some (sig, id)) :
    sig.isLowS = true ∧ SignedBy (Point.generator.multiply secret) sig id hash := by
  obtain ⟨nonce, derived, h⟩ := Option.bind_eq_some_iff.1 h
  exact signWith?_eq_some secretNonzero (Nonce.ne_zero_of_derive? derived) h

/-- What keeps from signing is that no nonce is found, or that the one that is found gives a zero. -/
theorem sign?_eq_none : sign? secret hash = none ↔ Nonce.derive? secret hash = none ∨
    ∃ nonce, Nonce.derive? secret hash = some nonce ∧ Degenerate secret nonce hash := by
  unfold sign?
  cases derived : Nonce.derive? secret hash with
  | none => simp
  | some nonce =>
      have nonzero := Nonce.ne_zero_of_derive? derived
      simp [signWith?_eq_none nonzero]

end Ecdsa

end Bitcoin
