import Bitcoin.Proofs.Curve.Order
import Bitcoin.Proofs.KeyPair.PublicKey

/-! # Forms of public keys

The octets that stand for points, said in numbers: coordinates below the field prime that satisfy the curve
equation, or one coordinate above which the curve has a point. Reading accepts the octets that pass the strict
check and stand for a point, and each of them is the only encoding of its form that its point has.
-/

namespace Bitcoin.Point

variable {x y : FieldElement} {p : Point} {octets : Bytes}

/-- The curve equation between numbers. -/
def Equation (x y : Nat) : Prop :=
  y ^ 2 ≡ x ^ 3 + 7 [MOD fieldPrime]

instance (x y : Nat) : Decidable (Equation x y) :=
  inferInstanceAs (Decidable (_ ≡ _ [MOD _]))

theorem onCurve_iff_equation : (affine x y).OnCurve ↔ Equation x.val y.val := by
  rw [← equation_iff, curve_equation_iff, Equation, ← ZMod.natCast_eq_natCast_iff]
  simp [residue, pow_succ]

/-- Octets stand for a point: after 4 two coordinates that satisfy the equation, and after another tag the
    first coordinate of a point. -/
def Denoted : Bytes → Prop
  | [] => False
  | tag :: content =>
      if tag = 4 then
        Bytes.toNat (content.take 32) < fieldPrime ∧ Bytes.toNat (content.drop 32) < fieldPrime ∧
          Equation (Bytes.toNat (content.take 32)) (Bytes.toNat (content.drop 32))
      else Bytes.toNat content < fieldPrime ∧ ∃ y, Equation (Bytes.toNat content) y

theorem coordinate?_eq_some {bs : Bytes} : coordinate? bs = some x ↔ Bytes.toNat bs = x.val := by
  unfold coordinate?
  constructor
  · intro h
    split_ifs at h
    cases h
    rfl
  · intro value
    simp [value]

/-- Above a coordinate there is a point of either parity or there is none. -/
theorem exists_onCurve_isOdd (odd : Bool) :
    (∃ y, (affine x y).OnCurve ∧ y.isOdd = odd) ↔ ∃ height, Equation x.val height := by
  constructor
  · rintro ⟨y, onCurve, -⟩
    exact ⟨y.val, onCurve_iff_equation.1 onCurve⟩
  · rintro ⟨height, equation⟩
    obtain ⟨y, value⟩ : ∃ y : FieldElement, y.val = height % fieldPrime := ⟨Fin.ofNat fieldPrime height, rfl⟩
    have onCurve : (affine x y).OnCurve := by
      apply onCurve_iff_equation.2
      rw [value]
      exact ((Nat.mod_modEq height fieldPrime).pow 2).trans equation
    by_cases parity : y.isOdd = odd
    · exact ⟨y, onCurve, parity⟩
    · refine ⟨-y, onCurve_negate onCurve, ?_⟩
      rw [FieldElement.isOdd_neg (height_ne_zero onCurve)]
      exact Bool.not_eq_iff.2 parity

theorem exists_decodeForm? {tag : UInt8} {content : Bytes} (form : hasForm tag content = true) :
    (∃ p, decodeForm? tag content = some p) ↔ Denoted (tag :: content) := by
  by_cases uncompressed : tag = 4
  · subst uncompressed
    constructor
    · rintro ⟨p, found⟩
      obtain ⟨x, y, left, right, onCurve, rfl⟩ := decodeForm?_uncompressed.1 found
      rw [coordinate?_eq_some] at left right
      simp [Denoted, left, right, onCurve_iff_equation.1 onCurve]
    · rintro ⟨left, right, equation⟩
      refine ⟨affine ⟨_, left⟩ ⟨_, right⟩, decodeForm?_uncompressed.2 ⟨_, _, ?_, ?_, ?_, rfl⟩⟩
      · exact coordinate?_eq_some.2 rfl
      · exact coordinate?_eq_some.2 rfl
      · exact onCurve_iff_equation.2 equation
  · have known : tag = 2 ∨ tag = 3 := by
      simp only [hasForm, uncompressed, false_and, or_false, decide_eq_true_eq] at form
      exact form.1
    simp only [decodeForm?_compressed known, Denoted, if_neg uncompressed]
    constructor
    · rintro ⟨p, x, y, value, onCurve, -, -⟩
      rw [coordinate?_eq_some] at value
      simp only [value]
      exact ⟨x.isLt, y.val, onCurve_iff_equation.1 onCurve⟩
    · rintro ⟨below, height⟩
      have above := (exists_onCurve_isOdd (x := ⟨_, below⟩) (tag = 3)).2 height
      obtain ⟨y, onCurve, parity⟩ := above
      exact ⟨_, _, y, coordinate?_eq_some.2 rfl, onCurve, by simp [parity], rfl⟩

/-! ## Reading -/

theorem exists_decode :
    (∃ p, decode octets = .ok p) ↔ Canonical.checkPublicKey octets = .ok () ∧ Denoted octets := by
  cases octets with
  | nil => simp [decode, Denoted]
  | cons tag content =>
      have passes : Canonical.checkPublicKey (tag :: content) = .ok () ↔ hasForm tag content = true := by
        simp [Canonical.checkPublicKey_eq_ok]
      simp only [decode_cons_eq_ok_iff, exists_and_left, passes]
      exact and_congr_right exists_decodeForm?

theorem decode_of_malformed (malformed : Canonical.checkPublicKey octets ≠ .ok ()) :
    decode octets = .error (.invalidKey (.malformedPoint octets.length)) := by
  cases octets with
  | nil => rfl
  | cons tag content =>
      have shapeless : ¬hasForm tag content = true := by
        intro form
        exact malformed (Canonical.checkPublicKey_eq_ok.2 ⟨tag, content, rfl, form⟩)
      simp [decode, shapeless]

theorem decode_of_not_denoted (passes : Canonical.checkPublicKey octets = .ok ())
    (nothing : ¬Denoted octets) : decode octets = .error (.invalidKey .offCurve) := by
  obtain ⟨tag, content, rfl, form⟩ := Canonical.checkPublicKey_eq_ok.1 passes
  have none : decodeForm? tag content = none := by
    rw [Option.eq_none_iff_forall_ne_some]
    intro p found
    exact nothing ((exists_decodeForm? form).1 ⟨p, found⟩)
  simp [decode, form, none]

/-! ## Both ways -/

/-- The point has an encoding of either form that is read as the point, and coordinates that satisfy the curve
    equation and are what the longer form holds. -/
structure HasForms (p : Point) : Prop where
  forms : ∀ compressed, ∃ octets, p.encode compressed = .ok octets ∧
    octets.length = (if compressed then 33 else 65) ∧ decode octets = .ok p
  coordinates : ∃ x y : Nat, p.x = .ok x ∧ p.y = .ok y ∧ x < fieldPrime ∧ y < fieldPrime ∧ Equation x y ∧
    p.encode false = .ok (4 :: (Octets.ofNat 32 x).toList ++ (Octets.ofNat 32 y).toList)

theorem hasForms (onCurve : p.OnCurve) (finite : p ≠ .infinity) : p.HasForms := by
  cases p with
  | infinity => exact absurd rfl finite
  | affine x y =>
      constructor
      · intro compressed
        have encoded : ∃ octets, (affine x y).encode compressed = .ok octets := by
          cases compressed <;> exact ⟨_, rfl⟩
        obtain ⟨octets, encoded⟩ := encoded
        exact ⟨octets, encoded, length_encode encoded, decode_encode onCurve encoded⟩
      · exact ⟨x.val, y.val, rfl, rfl, x.isLt, y.isLt, onCurve_iff_equation.1 onCurve, rfl⟩

/-- Encodings and finite points of the curve determine each other. Each point is read from its encoding of
    either form. The octets that are read are those that pass the strict check and stand for a point, and they are
    what that point is written as in the form of their length; all others are refused for their shape or for want
    of a point. Infinity has neither encoding nor coordinates. -/
theorem encodings_bijective :
    (∀ p : Point, p.OnCurve → p ≠ .infinity → p.HasForms) ∧
      (∀ octets, (∃ p, decode octets = .ok p) ↔
        Canonical.checkPublicKey octets = .ok () ∧ Denoted octets) ∧
      (∀ octets p, decode octets = .ok p → p.OnCurve ∧ p ≠ .infinity ∧
        p.encode (octets.length = 33) = .ok octets) ∧
      (∀ octets, Canonical.checkPublicKey octets ≠ .ok () →
        decode octets = .error (.invalidKey (.malformedPoint octets.length))) ∧
      (∀ octets, Canonical.checkPublicKey octets = .ok () → ¬Denoted octets →
        decode octets = .error (.invalidKey .offCurve)) ∧
      (∀ compressed, infinity.encode compressed = .error (.invalidKey .infinityEncoding)) ∧
      infinity.x = .error (.invalidKey .infinityEncoding) ∧
      infinity.y = .error (.invalidKey .infinityEncoding) := by
  refine ⟨fun p => hasForms, fun octets => exists_decode, ?_, fun octets => decode_of_malformed,
    fun octets => decode_of_not_denoted, fun compressed => rfl, rfl, rfl⟩
  intro octets p decoded
  obtain ⟨onCurve, encoded⟩ := encode_decode decoded
  refine ⟨onCurve, ?_, encoded⟩
  rintro rfl
  cases encoded

/-- The generator is read from both of its forms. The single zero octet that would be infinity is not read, and
    neither are the coordinates zero and zero. -/
theorem encodings_bijective_generator :
    (generator.OnCurve ∧ generator ≠ .infinity ∧ generator.HasForms) ∧
      (Canonical.checkPublicKey [0] ≠ .ok () ∧ decode [0] = .error (.invalidKey (.malformedPoint 1))) ∧
      Canonical.checkPublicKey (4 :: List.replicate 64 0) = .ok () ∧
        ¬Denoted (4 :: List.replicate 64 0) ∧
        decode (4 :: List.replicate 64 0) = .error (.invalidKey .offCurve) := by
  obtain ⟨forms, -, -, malformed, offCurve, -⟩ := encodings_bijective
  have finite : generator ≠ .infinity := Point.noConfusion
  have refused : Canonical.checkPublicKey [0] ≠ .ok () := by decide
  have passes : Canonical.checkPublicKey (4 :: List.replicate 64 0) = .ok () := by decide
  have nothing : ¬Denoted (4 :: List.replicate 64 0) := by
    rintro ⟨-, -, equation⟩
    exact absurd equation (by decide)
  exact ⟨⟨onCurve_generator, finite, forms generator onCurve_generator finite⟩,
    ⟨refused, malformed [0] refused⟩, passes, nothing, offCurve _ passes nothing⟩

end Bitcoin.Point
