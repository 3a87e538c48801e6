import Bitcoin.Curve.Encoding
import Bitcoin.Proofs.Curve.Group
import Bitcoin.Proofs.Octets

/-! # Encodings of points and scalars, both ways

Each point of the curve has one encoding of either form, and reading accepts exactly these encodings. That
the compressed form tells two mirrored points apart rests on the curve having no point of height zero: minus
seven is no cube. Each scalar has one form of 32 octets.
-/

namespace Bitcoin

namespace FieldElement

theorem neg_twice (a : FieldElement) : -(-a) = a := by
  rw [← residue_inj]
  simp

theorem neg_mul_self (a : FieldElement) : -a * -a = a * a := by
  rw [← residue_inj]
  simp

end FieldElement

namespace Point

variable {x y : FieldElement}

/-- Minus seven is no cube, by Euler's criterion for cubes. -/
theorem cubic_ne_zero (x : FieldElement) : cubic x ≠ 0 := by
  intro zero
  have cube : residue x ^ 3 = ((fieldPrime - 7 : Nat) : ZMod fieldPrime) := by
    rw [Nat.cast_sub (by decide), ZMod.natCast_self, zero_sub, eq_neg_iff_add_eq_zero]
    have equation := residue_eq_zero.2 zero
    simp only [cubic, residue_add, residue_mul, residue_numeral] at equation
    rw [← equation]
    push_cast
    ring
  have nonzero : residue x ≠ 0 := by
    intro none
    rw [none, zero_pow (by decide), eq_comm, ZMod.natCast_eq_zero_iff] at cube
    exact absurd cube (Nat.not_dvd_of_pos_of_lt (by decide) (by decide))
  have unit : ((fieldPrime - 7 : Nat) : ZMod fieldPrime) ^ ((fieldPrime - 1) / 3) = 1 := by
    have exponent : 3 * ((fieldPrime - 1) / 3) = fieldPrime - 1 := by decide
    rw [← cube, ← pow_mul, exponent, ZMod.pow_card_sub_one_eq_one nonzero]
  rw [Prime.pow_eq_one_iff (by decide)] at unit
  exact absurd unit (by decide +kernel)

theorem height_ne_zero (onCurve : (affine x y).OnCurve) : y ≠ 0 := by
  rintro rfl
  have flat : (0 : FieldElement) * 0 = cubic x := onCurve
  exact cubic_ne_zero x (flat.symm.trans (by decide))

/-- Lifting finds exactly the point of the wanted parity. -/
theorem lift?_eq_some_iff {odd : Bool} {p : Point} :
    lift? x odd = some p ↔ ∃ y, (affine x y).OnCurve ∧ y.isOdd = odd ∧ p = affine x y := by
  constructor
  · intro h
    obtain ⟨root, found, value⟩ := Option.bind_eq_some_iff.1 h
    have square : (affine x root).OnCurve := FieldElement.mul_self_of_sqrt? found
    cases value
    split_ifs with parity
    · exact ⟨root, square, parity, rfl⟩
    · have mirrored : (affine x (-root)).OnCurve := (FieldElement.neg_mul_self root).trans square
      refine ⟨-root, mirrored, ?_, rfl⟩
      rw [FieldElement.isOdd_neg (height_ne_zero square)]
      exact Bool.not_eq_iff.2 parity
  · rintro ⟨y, onCurve, rfl, rfl⟩
    have square : y * y = cubic x := onCurve
    obtain ⟨root, found, side⟩ := FieldElement.sqrt?_mul_self y
    rw [lift?, ← square, found]
    refine congrArg (fun height => some (affine x height)) ?_
    rcases side with rfl | rfl
    · exact if_pos rfl
    · rw [FieldElement.isOdd_neg (height_ne_zero onCurve), if_neg (Bool.not_ne_self _), FieldElement.neg_twice]

/-! ## Coordinates -/

@[simp] theorem length_coordinate (x : FieldElement) : (coordinate x).length = 32 :=
  Octets.length_toList _

theorem val_lt_coordinates (x : FieldElement) : x.val < 256 ^ 32 :=
  x.isLt.trans (by decide)

@[simp] theorem coordinate?_coordinate (x : FieldElement) : coordinate? (coordinate x) = some x := by
  have value : Bytes.toNat (coordinate x) = x.val := Octets.toNat_ofNat_of_lt (val_lt_coordinates x)
  rw [coordinate?, dif_pos (value ▸ x.isLt)]
  exact congrArg some (Fin.ext value)

theorem coordinate_of_coordinate? {bs : Bytes} (length : bs.length = 32)
    (h : coordinate? bs = some x) : coordinate x = bs := by
  unfold coordinate? at h
  split_ifs at h
  cases h
  exact Octets.toList_ofNat_toNat length

/-! ## Encodings -/

theorem encode_compressed (x y : FieldElement) :
    (affine x y).encode true = .ok ((if y.isOdd then 3 else 2) :: coordinate x) := rfl

theorem encode_uncompressed (x y : FieldElement) :
    (affine x y).encode false = .ok (4 :: coordinate x ++ coordinate y) := rfl

theorem length_encode {p : Point} {compressed : Bool} {octets : Bytes}
    (h : p.encode compressed = .ok octets) : octets.length = if compressed then 33 else 65 := by
  cases p with
  | infinity => cases h
  | affine x y =>
      cases compressed with
      | false =>
          cases h
          simp
      | true =>
          cases h
          simp

theorem decodeForm?_compressed {tag : UInt8} (known : tag = 2 ∨ tag = 3) {content : Bytes} {p : Point} :
    decodeForm? tag content = some p ↔ ∃ x y, coordinate? content = some x ∧
      (affine x y).OnCurve ∧ y.isOdd = (tag = 3) ∧ p = affine x y := by
  have other : tag ≠ 4 := by
    rcases known with rfl | rfl <;> decide
  rw [decodeForm?, if_neg other]
  constructor
  · intro h
    obtain ⟨x, found, lifted⟩ := Option.bind_eq_some_iff.1 h
    obtain ⟨y, onCurve, parity, rfl⟩ := lift?_eq_some_iff.1 lifted
    exact ⟨x, y, found, onCurve, by simp [parity], rfl⟩
  · rintro ⟨x, y, found, onCurve, parity, rfl⟩
    exact Option.bind_eq_some_iff.2 ⟨x, found, lift?_eq_some_iff.2 ⟨y, onCurve, by simp [← parity], rfl⟩⟩

theorem decodeForm?_uncompressed {content : Bytes} {p : Point} :
    decodeForm? 4 content = some p ↔ ∃ x y, coordinate? (content.take 32) = some x ∧
      coordinate? (content.drop 32) = some y ∧ (affine x y).OnCurve ∧ p = affine x y := by
  rw [decodeForm?, if_pos rfl]
  constructor
  · intro h
    obtain ⟨x, left, h⟩ := Option.bind_eq_some_iff.1 h
    obtain ⟨y, right, h⟩ := Option.bind_eq_some_iff.1 h
    unfold ofCoordinates? at h
    split_ifs at h with onCurve
    cases h
    exact ⟨x, y, left, right, onCurve, rfl⟩
  · rintro ⟨x, y, left, right, onCurve, rfl⟩
    rw [left, right]
    exact if_pos onCurve

theorem decode_cons_eq_ok_iff {tag : UInt8} {content : Bytes} {p : Point} :
    decode (tag :: content) = .ok p ↔ hasForm tag content ∧ decodeForm? tag content = some p := by
  simp only [decode]
  split_ifs with form
  · cases found : decodeForm? tag content <;> simp [form]
  · simp [form]

/-- Reading an encoding gives the point back, whichever the form. -/
theorem decode_encode {p : Point} (onCurve : p.OnCurve) {compressed : Bool} {octets : Bytes}
    (h : p.encode compressed = .ok octets) : decode octets = .ok p := by
  cases p with
  | infinity => cases h
  | affine x y =>
      cases compressed with
      | false =>
          cases h
          refine decode_cons_eq_ok_iff.2 ⟨by simp [hasForm], decodeForm?_uncompressed.2 ?_⟩
          exact ⟨x, y, by simp, by simp, onCurve, rfl⟩
      | true =>
          cases h
          have known : (if y.isOdd then (3 : UInt8) else 2) = 2 ∨
              (if y.isOdd then (3 : UInt8) else 2) = 3 := by
            cases y.isOdd <;> decide
          have tag : y.isOdd = ((if y.isOdd then (3 : UInt8) else 2) = 3) := by
            cases y.isOdd <;> decide
          refine decode_cons_eq_ok_iff.2 ⟨?_, (decodeForm?_compressed known).2 ?_⟩
          · simp [hasForm]
          · exact ⟨x, y, coordinate?_coordinate x, onCurve, tag, rfl⟩

/-- What is read is a point of the curve whose encoding in the form of that length was read. -/
theorem encode_decode {p : Point} {octets : Bytes} (h : decode octets = .ok p) :
    p.OnCurve ∧ p.encode (octets.length = 33) = .ok octets := by
  cases octets with
  | nil => cases h
  | cons tag content =>
      obtain ⟨form, found⟩ := decode_cons_eq_ok_iff.1 h
      simp only [hasForm, decide_eq_true_eq] at form
      rcases form with ⟨known, length⟩ | ⟨rfl, length⟩
      · obtain ⟨x, y, value, onCurve, parity, rfl⟩ := (decodeForm?_compressed known).1 found
        have shape : decide ((tag :: content).length = 33) = true := by simp [length]
        have octet : (if y.isOdd then 3 else 2) = tag := by
          rcases known with rfl | rfl
          · exact if_neg (by simp [parity])
          · exact if_pos (by simp [parity])
        rw [shape, encode_compressed, coordinate_of_coordinate? length value, octet]
        exact ⟨onCurve, rfl⟩
      · obtain ⟨x, y, left, right, onCurve, rfl⟩ := decodeForm?_uncompressed.1 found
        have shape : decide ((4 :: content).length = 33) = false := by simp [length]
        rw [shape, encode_uncompressed, coordinate_of_coordinate? (by simp [length]) left,
          coordinate_of_coordinate? (by simp [length]) right, List.cons_append, List.take_append_drop]
        exact ⟨onCurve, rfl⟩

end Point

theorem Scalar.ofBytes_eq_ok {octets : Bytes} {k : Scalar} :
    ofBytes octets = .ok k ↔ octets = k.toOctets.toList := by
  constructor
  · intro h
    unfold ofBytes at h
    split_ifs at h with length below
    cases h
    exact (Octets.toList_ofNat_toNat (not_not.1 length)).symm
  · rintro rfl
    have value : Bytes.toNat k.toOctets.toList = k.val :=
      Octets.toNat_ofNat_of_lt (k.isLt.trans (by decide))
    rw [ofBytes, if_neg (by simp), dif_pos (value ▸ k.isLt)]
    exact congrArg Except.ok (Fin.ext value)

end Bitcoin
