import Bitcoin.KeyPair.Signing
import Bitcoin.Proofs.KeyPair.Sound
import Bitcoin.Proofs.Signature.Ecdsa

/-! # Recovering signers

A compact signature is a header and the octets of a signature, and the header stands for a recovery id and the
form of the key. Reading one back is exact, so the keys that compact signatures are recovered to are the keys
that the plain signature verifies for. Of a signature and its opposite the recovery ids are mirrored.
-/

namespace Bitcoin

namespace RecoveryId

theorem exists_toOctet_eq {octet : UInt8} (small : octet ≤ 3) : ∃ id : RecoveryId, id.toOctet = octet := by
  have bound : octet.toNat ≤ 3 := UInt8.le_iff_toNat_le.1 small
  rw [← UInt8.ofNat_toNat (x := octet)]
  generalize octet.toNat = n at bound
  interval_cases n
  · exact ⟨⟨false, false⟩, rfl⟩
  · exact ⟨⟨true, false⟩, rfl⟩
  · exact ⟨⟨false, true⟩, rfl⟩
  · exact ⟨⟨true, true⟩, rfl⟩

theorem toOctet_le (id : RecoveryId) : id.toOctet ≤ 3 := by
  obtain ⟨oddY, overflow⟩ := id
  cases oddY <;> cases overflow <;> decide

/-- The mirrored id differs in the lowest bit. -/
theorem toOctet_mirror (id : RecoveryId) : id.mirror.toOctet = id.toOctet ^^^ 1 := by
  obtain ⟨oddY, overflow⟩ := id
  cases oddY <;> cases overflow <;> decide

end RecoveryId

namespace KeyPair

variable {key : KeyPair} {sig : Signature} {id : RecoveryId} {hash : Octets 32} {compressed : Bool}
  {compact : Bytes}

/-! ## Compact signatures -/

/-- A signature in compact form: 27 and the recovery id, with four more for a compressed key, and the octets
    of both numbers. -/
def compactOctets (recid : UInt8) (compressed : Bool) (sig : Signature) : Bytes :=
  (27 + recid + if compressed then 4 else 0) :: sig.r.toList ++ sig.s.toList

theorem length_compactOctets (recid : UInt8) (compressed : Bool) (sig : Signature) :
    (compactOctets recid compressed sig).length = 65 := by
  simp [compactOctets]

/-- The header never wraps around. -/
theorem toNat_compactHeader (id : RecoveryId) (compressed : Bool) :
    (compactHeader id compressed).toNat = 27 + id.toOctet.toNat + if compressed then 4 else 0 := by
  obtain ⟨oddY, overflow⟩ := id
  cases oddY <;> cases overflow <;> cases compressed <;> decide

theorem readHeader_eq_ok {header : UInt8} :
    readHeader header = .ok (id, compressed) ↔ header = compactHeader id compressed := by
  constructor
  · intro h
    unfold readHeader at h
    split_ifs at h with inside
    have lower : 27 ≤ header.toNat := UInt8.le_iff_toNat_le.1 inside.1
    have upper : header.toNat < 35 := UInt8.lt_iff_toNat_lt.1 inside.2
    cases h
    rw [← UInt8.ofNat_toNat (x := header)]
    generalize header.toNat = n at lower upper
    interval_cases n <;> decide
  · rintro rfl
    obtain ⟨oddY, overflow⟩ := id
    cases oddY <;> cases overflow <;> cases compressed <;> rfl

theorem readCompact_eq_ok :
    readCompact compact = .ok (sig, id, compressed) ↔ compact = compactOctets id.toOctet compressed sig := by
  constructor
  · intro h
    unfold readCompact at h
    split_ifs at h with length
    obtain ⟨⟨id', compressed'⟩, header, h⟩ := Outcome.bind_eq_ok.1 h
    cases h
    cases compact with
    | nil => simp at length
    | cons first numbers =>
        have split := Octets.left_append_right (m := 32) (n := 32) ⟨numbers, by simpa using length⟩
        have octet : first = 27 + id.toOctet + if compressed then 4 else 0 := readHeader_eq_ok.1 header
        rw [compactOctets, ← octet, List.cons_append]
        exact congrArg (first :: ·) split.symm
  · rintro rfl
    have left : ((compactOctets id.toOctet compressed sig).drop 1).take 32 = sig.r.toList :=
      List.take_left' sig.r.length_eq
    have right : ((compactOctets id.toOctet compressed sig).drop 1).drop 32 = sig.s.toList :=
      List.drop_left' sig.r.length_eq
    have numbers (octets : Octets (32 + 32))
        (h : octets.toList = (compactOctets id.toOctet compressed sig).drop 1) :
          (⟨octets.left, octets.right⟩ : Signature) = sig := by
      have first : octets.left = sig.r := Octets.ext ((congrArg (List.take 32) h).trans left)
      have second : octets.right = sig.s := Octets.ext ((congrArg (List.drop 32) h).trans right)
      rw [first, second]
    unfold readCompact
    rw [dif_pos (length_compactOctets _ _ _)]
    refine Outcome.bind_eq_ok.2 ⟨(id, compressed), readHeader_eq_ok.2 rfl, ?_⟩
    exact congrArg (fun sig => Except.ok (sig, id, compressed)) (numbers _ rfl)

/-! ## Recovering -/

/-- The point of the signer, as a pair of the form that the header tells. -/
theorem recoverCompact_compactOctets (sig : Signature) (id : RecoveryId) (compressed : Bool)
    (hash : Octets 32) : recoverCompact (compactOctets id.toOctet compressed sig) hash =
      match Ecdsa.recover? sig id hash with
      | none => .error (.invalidSignature .unsolvable)
      | some point => .ok ⟨none, point, compressed⟩ := by
  unfold recoverCompact
  rw [Outcome.mapError_eq_ok.2 (readCompact_eq_ok.2 rfl), Outcome.ok_bind]
  dsimp only
  cases found : Ecdsa.recover? sig id hash with
  | none => rfl
  | some point =>
      have finite := (Ecdsa.recover?_eq_some.1 found).2.1
      have made : ofPoint point = .ok ⟨none, point, true⟩ := ofPoint_eq_ok.2 ⟨finite, rfl⟩
      simp only [made]
      rfl

theorem recoverCompact_compactOctets_eq_ok :
    recoverCompact (compactOctets id.toOctet compressed sig) hash = .ok key ↔
      ∃ point, Ecdsa.recover? sig id hash = some point ∧ key = ⟨none, point, compressed⟩ := by
  rw [recoverCompact_compactOctets]
  cases Ecdsa.recover? sig id hash with
  | none => simp
  | some point => simp [eq_comm]

/-- Octets are a signature in compact form, or are refused as none. -/
theorem compactOctets_or_refused (compact : Bytes) (hash : Octets 32) :
    (∃ sig id compressed, compact = compactOctets (RecoveryId.toOctet id) compressed sig) ∨
      ∃ fault, recoverCompact compact hash = .error (.invalidSignature fault) := by
  cases read : readCompact compact with
  | ok parts => exact .inl ⟨_, _, _, readCompact_eq_ok.1 read⟩
  | error fault =>
      refine .inr ⟨fault, ?_⟩
      unfold recoverCompact
      rw [read]
      rfl

/-- Recovering gives a pair exactly from the compact form of a signature that its point signed. -/
theorem recoverCompact_eq_ok : recoverCompact compact hash = .ok key ↔
    ∃ sig id, compact = compactOctets (RecoveryId.toOctet id) key.compressed sig ∧ key.secret = none ∧
      key.point.OnCurve ∧ Ecdsa.SignedBy key.point sig id hash := by
  constructor
  · intro h
    rcases compactOctets_or_refused compact hash with ⟨sig, id, compressed, rfl⟩ | ⟨fault, refused⟩
    · obtain ⟨point, found, rfl⟩ := recoverCompact_compactOctets_eq_ok.1 h
      obtain ⟨onCurve, signed⟩ := Ecdsa.recover?_eq_some.1 found
      exact ⟨sig, id, rfl, rfl, onCurve, signed⟩
    · rw [refused] at h
      cases h
  · rintro ⟨sig, id, rfl, lacking, onCurve, signed⟩
    refine recoverCompact_compactOctets_eq_ok.2 ⟨_, Ecdsa.recover?_eq_some.2 ⟨onCurve, signed⟩, ?_⟩
    rw [← lacking]

/-- Whatever keeps from recovering is a fault of the signature. -/
theorem eq_invalidSignature_of_recoverCompact {e : Error} (h : recoverCompact compact hash = .error e) :
    ∃ fault, e = .invalidSignature fault := by
  rcases compactOctets_or_refused compact hash with ⟨sig, id, compressed, rfl⟩ | ⟨fault, refused⟩
  · rw [recoverCompact_compactOctets] at h
    cases found : Ecdsa.recover? sig id hash with
    | none =>
        rw [found] at h
        cases h
        exact ⟨_, rfl⟩
    | some point =>
        rw [found] at h
        cases h
  · rw [refused] at h
    cases h
    exact ⟨fault, rfl⟩

/-- A point verifies a signature exactly if it is recovered from the compact form with some recovery id. -/
theorem verify_iff_recoverCompact {q : Point} (onCurve : q.OnCurve) (compressed : Bool) :
    Ecdsa.verify q sig hash = true ↔ ∃ recid : UInt8, recid ≤ 3 ∧ ∃ signer,
      recoverCompact (compactOctets recid compressed sig) hash = .ok signer ∧ signer.point = q := by
  rw [Ecdsa.verify_iff onCurve]
  constructor
  · rintro ⟨id, signed⟩
    have found := Ecdsa.recover?_eq_some.2 ⟨onCurve, signed⟩
    exact ⟨id.toOctet, id.toOctet_le, _, recoverCompact_compactOctets_eq_ok.2 ⟨q, found, rfl⟩, rfl⟩
  · rintro ⟨recid, small, signer, recovered, rfl⟩
    obtain ⟨id, rfl⟩ := RecoveryId.exists_toOctet_eq small
    obtain ⟨point, found, rfl⟩ := recoverCompact_compactOctets_eq_ok.1 recovered
    exact ⟨id, (Ecdsa.recover?_eq_some.1 found).2⟩

/-- What is recovered holds no secret and has the form that the header tells. -/
theorem bare_of_recoverCompact {recid : UInt8} (small : recid ≤ 3)
    (h : recoverCompact (compactOctets recid compressed sig) hash = .ok key) :
    key.secret = none ∧ key.compressed = compressed := by
  obtain ⟨id, rfl⟩ := RecoveryId.exists_toOctet_eq small
  obtain ⟨point, -, rfl⟩ := recoverCompact_compactOctets_eq_ok.1 h
  exact ⟨rfl, rfl⟩

/-- With the lowest bit of the recovery id toggled, the signature with `n - s` recovers to the same result. -/
theorem recoverCompact_opposite {recid : UInt8} (small : recid ≤ 3) (inRange : Signature.InRange sig.s) :
    recoverCompact (compactOctets (recid ^^^ 1) compressed sig.opposite) hash =
      recoverCompact (compactOctets recid compressed sig) hash := by
  obtain ⟨id, rfl⟩ := RecoveryId.exists_toOctet_eq small
  rw [← RecoveryId.toOctet_mirror, recoverCompact_compactOctets, recoverCompact_compactOctets,
    Ecdsa.recover?_opposite inRange]

/-- Octets of another length, with another header, or with a number out of range are no compact
    signature. -/
theorem refused_of_malformed (malformed : compact.length ≠ 65 ∨
      (∃ header rest, compact = header :: rest ∧ (header < 27 ∨ 34 < header)) ∨
      ∃ (header : UInt8) (r s : Octets 32), compact = header :: r.toList ++ s.toList ∧
        ¬(Signature.InRange r ∧ Signature.InRange s)) (hash : Octets 32) :
    ∃ fault, recoverCompact compact hash = .error (.invalidSignature fault) := by
  cases outcome : recoverCompact compact hash with
  | error e =>
      obtain ⟨fault, rfl⟩ := eq_invalidSignature_of_recoverCompact outcome
      exact ⟨fault, rfl⟩
  | ok key =>
      exfalso
      obtain ⟨sig, id, rfl, -, -, -, r, s, possible, -⟩ := recoverCompact_eq_ok.1 outcome
      obtain ⟨rNonzero, sNonzero, rfl⟩ := Signature.components?_eq_some.1 possible
      rcases malformed with length | ⟨header, rest, same, outside⟩ | ⟨header, r', s', same, outside⟩
      · exact length (length_compactOctets _ _ _)
      · have octet : compactHeader id key.compressed = header := (List.cons.inj same).1
        have value := toNat_compactHeader id key.compressed
        have small : id.toOctet.toNat ≤ 3 := UInt8.le_iff_toNat_le.1 id.toOctet_le
        rw [octet] at value
        rw [UInt8.lt_iff_toNat_lt, UInt8.lt_iff_toNat_lt] at outside
        change header.toNat < 27 ∨ 34 < header.toNat at outside
        split_ifs at value <;> omega
      · have numbers := (List.cons.inj same).2
        have parts := List.append_inj numbers (by simp)
        have first : (Signature.ofScalars r s).r = r' := Octets.ext parts.1
        have second : (Signature.ofScalars r s).s = s' := Octets.ext parts.2
        rw [← first, ← second] at outside
        exact outside ⟨Signature.inRange_toOctets rNonzero, Signature.inRange_toOctets sNonzero⟩

/-- Recovering from compact signatures finds exactly the points that verify the signature, whether or not `s`
    is low. What it finds holds no secret and has the form that the header tells; the opposite signature with
    the parity of the recovery id toggled gives the same result; and nothing is found in octets of another
    length, with another header or with a number out of range. -/
theorem recoverCompact_finds_signers :
    (∀ (sig : Signature) (hash : Octets 32) (q : Point) (compressed : Bool), q.OnCurve → q ≠ .infinity →
      ∃ key, ofPoint q = .ok key ∧ (key.verify sig hash = true ↔ ∃ recid : UInt8, recid ≤ 3 ∧
        ∃ signer, recoverCompact (compactOctets recid compressed sig) hash = .ok signer ∧
          signer.point = q)) ∧
    (∀ (sig : Signature) (hash : Octets 32) (compressed : Bool) (recid : UInt8) (signer : KeyPair),
      recid ≤ 3 → recoverCompact (compactOctets recid compressed sig) hash = .ok signer →
        signer.secret = none ∧ signer.compressed = compressed) ∧
    (∀ (sig : Signature) (hash : Octets 32) (compressed : Bool) (recid : UInt8), recid ≤ 3 →
      Signature.InRange sig.s → recoverCompact (compactOctets (recid ^^^ 1) compressed sig.opposite) hash =
        recoverCompact (compactOctets recid compressed sig) hash) ∧
    ∀ (compact : Bytes) (hash : Octets 32), (compact.length ≠ 65 ∨
        (∃ header rest, compact = header :: rest ∧ (header < 27 ∨ 34 < header)) ∨
        ∃ (header : UInt8) (r s : Octets 32), compact = header :: r.toList ++ s.toList ∧
          ¬(Signature.InRange r ∧ Signature.InRange s)) →
      ∃ fault, recoverCompact compact hash = .error (.invalidSignature fault) := by
  refine ⟨?_, ?_, ?_, ?_⟩
  · intro sig hash q compressed onCurve finite
    exact ⟨_, ofPoint_eq_ok.2 ⟨finite, rfl⟩, verify_iff_recoverCompact onCurve compressed⟩
  · intro sig hash compressed recid signer small
    exact bare_of_recoverCompact small
  · intro sig hash compressed recid
    exact recoverCompact_opposite
  · intro compact hash malformed
    exact refused_of_malformed malformed hash

/-- The signature of the hash zero by the secret one with the nonce one. -/
def unitSignature : Signature :=
  ⟨Octets.ofNat 32 generatorX, Octets.ofNat 32 generatorX⟩

/-- It recovers to the generator, and so does its opposite. -/
theorem recoverCompact_unitSignature :
    (Point.generator.OnCurve ∧ Point.generator ≠ .infinity ∧ Signature.InRange unitSignature.s ∧
      ([] : Bytes).length ≠ 65) ∧
    (∃ recid : UInt8, recid ≤ 3 ∧ ∃ signer,
      recoverCompact (compactOctets recid true unitSignature) (Octets.zero 32) = .ok signer ∧
        signer.point = .generator ∧ signer.secret = none ∧ signer.compressed = true ∧
        recoverCompact (compactOctets (recid ^^^ 1) true unitSignature.opposite) (Octets.zero 32) =
          .ok signer) ∧
    ∃ fault, recoverCompact [] (Octets.zero 32) = .error (.invalidSignature fault) := by
  obtain ⟨finds, bare, opposite, refuses⟩ := recoverCompact_finds_signers
  have finite : Point.generator ≠ .infinity := Point.noConfusion
  have inRange : Signature.InRange unitSignature.s := by decide +kernel
  have short : ([] : Bytes).length ≠ 65 := by decide
  have verifies : Ecdsa.verify .generator unitSignature (Octets.zero 32) = true := by decide +kernel
  obtain ⟨key, made, found⟩ := finds unitSignature (Octets.zero 32) .generator true
    Point.onCurve_generator finite
  obtain ⟨-, rfl⟩ := ofPoint_eq_ok.1 made
  obtain ⟨recid, small, signer, recovered, point⟩ := found.1 verifies
  obtain ⟨lacking, form⟩ := bare _ _ _ _ signer small recovered
  refine ⟨⟨Point.onCurve_generator, finite, inRange, short⟩, ⟨recid, small, signer, recovered, point,
    lacking, form, ?_⟩, refuses [] (Octets.zero 32) (.inl short)⟩
  rw [opposite _ _ _ _ small inRange, recovered]

end KeyPair

end Bitcoin
