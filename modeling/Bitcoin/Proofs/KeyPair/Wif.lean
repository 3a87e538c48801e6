import Bitcoin.Proofs.KeyPair.Reachable
import Bitcoin.Proofs.Text.Base58

/-! # Wallet import format, both ways

A pair with a secret comes back from its text, form and network included, and a text that is read is the text
of the pair that it is read as. The texts that are read are those of an octet for the network, a secret and
perhaps a mark; all others are refused, each for the first thing that is wrong with it.
-/

namespace Bitcoin

theorem Network.ofSecretVersion?_eq_some {octet : UInt8} {network : Network} :
    ofSecretVersion? octet = some network ↔ octet = network.secretVersion := by
  unfold ofSecretVersion?
  constructor
  · intro h
    split_ifs at h with main test
    · cases h
      exact main
    · cases h
      exact test
  · intro same
    cases network with
    | mainnet => exact if_pos same
    | testnet =>
        subst same
        rfl

namespace KeyPair

variable {key : KeyPair} {network : Network} {text : String} {payload : Bytes}

/-! ## Writing -/

/-- What a secret is written as: an octet for the network, the secret, and a mark if its point is to be
    written in compressed form. -/
def wifPayload (network : Network) (secret : Scalar) (compressed : Bool) : Bytes :=
  network.secretVersion :: secret.toOctets.toList ++ if compressed then [1] else []

theorem toWif_eq_ok : key.toWif network = .ok text ↔ ∃ secret, key.secret = some secret ∧
    text = Base58Check.encode (wifPayload network secret key.compressed) := by
  unfold toWif
  simp only [Outcome.bind_pure_eq_ok, requireSecret_eq_ok]
  rfl

theorem toWif_eq_noSecretKey : key.toWif network = .error .noSecretKey ↔ key.hasSecret = false := by
  unfold toWif requireSecret hasSecret
  cases key.secret with
  | none => exact iff_of_true rfl rfl
  | some secret => exact iff_of_false nofun nofun

/-! ## Reading -/

/-- The first octet is that of a network. -/
def HasNetwork (payload : Bytes) : Prop :=
  payload.head? = some 0x80 ∨ payload.head? = some 0xef

/-- The length is that of a secret behind one octet, without a mark or with one. -/
def HasWifForm (payload : Bytes) : Prop :=
  payload.length = 33 ∨ payload.length = 34 ∧ payload.getLast? = some 1

/-- The octets behind the first one that a secret takes. -/
def wifSecret (payload : Bytes) : Bytes :=
  (payload.drop 1).take 32

/-- The octets are a network's octet, a secret below the group order that is not zero, and perhaps a mark. -/
def IsSecretPayload (payload : Bytes) : Prop :=
  ∃ (version : UInt8) (secret : Octets 32) (mark : Bytes), payload = version :: secret.toList ++ mark ∧
    (version = 0x80 ∨ version = 0xef) ∧ (1 ≤ secret.toNat ∧ secret.toNat < groupOrder) ∧
    (mark = [] ∨ mark = [1])

/-- What octets are refused for: the first of their faults. -/
inductive RefusedFor (payload : Bytes) : Error → Prop where
  | network : ¬HasNetwork payload → RefusedFor payload (.invalidWif .unknownNetwork)
  | length : HasNetwork payload → ¬HasWifForm payload →
      RefusedFor payload (.invalidWif (.payloadLength payload.length))
  | zero : HasNetwork payload → HasWifForm payload → Bytes.toNat (wifSecret payload) = 0 →
      RefusedFor payload (.invalidKey .zeroSecret)
  | range : HasNetwork payload → HasWifForm payload → groupOrder ≤ Bytes.toNat (wifSecret payload) →
      RefusedFor payload (.invalidKey .scalarRange)

/-- What a payload is read as, whatever it is. -/
theorem ofWif_encode (payload : Bytes) : ofWif (Base58Check.encode payload) =
    match payload.head?.bind Network.ofSecretVersion? with
    | none => .error (.invalidWif .unknownNetwork)
    | some network => (wifForm payload).mapError .invalidWif >>= fun compressed =>
        ofSecret (wifSecret payload) >>= fun key => .ok (key.withCompressed compressed, network) := by
  have decoded : Base58Check.decode (Base58Check.encode payload) = .ok payload :=
    Base58Check.decode_eq_ok.2 rfl
  unfold ofWif
  rw [decoded]
  rfl

theorem bind_ofSecretVersion?_eq_none :
    payload.head?.bind Network.ofSecretVersion? = none ↔ ¬HasNetwork payload := by
  have octets : Network.secretVersion .mainnet = 0x80 ∧ Network.secretVersion .testnet = 0xef := ⟨rfl, rfl⟩
  unfold HasNetwork
  cases payload with
  | nil => simp
  | cons version rest =>
      simp only [List.head?_cons, Option.bind_some, Option.some.injEq, Network.ofSecretVersion?, octets]
      split_ifs with main test
      · simp [main]
      · simp [test]
      · simp [main, test]

theorem wifForm_eq_ok {compressed : Bool} : wifForm payload = .ok compressed ↔
    ∃ version, ∃ secret : Octets 32,
      payload = version :: secret.toList ++ if compressed then [1] else [] := by
  unfold wifForm
  constructor
  · intro h
    cases payload with
    | nil => cases h
    | cons version rest =>
        split_ifs at h with short marked
        · cases h
          exact ⟨version, ⟨rest, by simpa using short⟩, by simp⟩
        · cases h
          obtain ⟨length, last⟩ := marked
          have nonempty : rest ≠ [] := by
            apply List.ne_nil_of_length_pos
            simp only [List.length_cons] at length
            omega
          rw [List.getLast?_cons, Option.some.injEq, List.getLast?_eq_some_getLast nonempty] at last
          refine ⟨version, ⟨rest.dropLast, by simp_all⟩, ?_⟩
          have whole := List.dropLast_concat_getLast nonempty
          simp only [Option.getD_some] at last
          rw [last] at whole
          exact congrArg (version :: ·) whole.symm
  · rintro ⟨version, secret, rfl⟩
    cases compressed with
    | false => simp
    | true =>
        have marked : (version :: secret.toList ++ [1]).getLast? = some 1 := List.getLast?_concat
        simpa using marked

theorem hasWifForm_iff : HasWifForm payload ↔ ∃ compressed, wifForm payload = .ok compressed := by
  unfold HasWifForm wifForm
  split_ifs with short marked
  · simp [short]
  · simp [marked]
  · simp [short, marked]

/-- The payloads of secrets are those that a secret other than zero is written as. -/
theorem isSecretPayload_iff : IsSecretPayload payload ↔ ∃ network, ∃ secret : Scalar, ∃ compressed,
    secret ≠ 0 ∧ payload = wifPayload network secret compressed := by
  constructor
  · rintro ⟨version, octets, mark, rfl, known, inRange, form⟩
    obtain ⟨network, rfl⟩ : ∃ network, version = Network.secretVersion network := by
      cases known with
      | inl main => exact ⟨.mainnet, main⟩
      | inr test => exact ⟨.testnet, test⟩
    obtain ⟨secret, nonzero, rfl⟩ := Signature.InRange.exists_scalar inRange
    cases form with
    | inl bare => exact ⟨network, secret, false, nonzero, by rw [bare]; rfl⟩
    | inr marked => exact ⟨network, secret, true, nonzero, by rw [marked]; rfl⟩
  · rintro ⟨network, secret, compressed, nonzero, rfl⟩
    refine ⟨network.secretVersion, secret.toOctets, _, rfl, ?_, Signature.inRange_toOctets nonzero, ?_⟩
    · cases network with
      | mainnet => exact .inl rfl
      | testnet => exact .inr rfl
    · cases compressed with
      | false => exact .inl rfl
      | true => exact .inr rfl

/-! ## What is read -/

/-- The texts that are read, and the pairs that they are read as. -/
theorem ofWif_eq_ok : ofWif text = .ok (key, network) ↔ ∃ secret : Scalar, ∃ compressed, secret ≠ 0 ∧
    text = Base58Check.encode (wifPayload network secret compressed) ∧
    key = ⟨some secret, Point.generator.multiply secret, compressed⟩ := by
  constructor
  · intro h
    obtain ⟨payload, decoded, -⟩ := Outcome.bind_eq_ok.1 h
    obtain rfl := Base58Check.decode_eq_ok.1 decoded
    rw [ofWif_encode] at h
    cases found : payload.head?.bind Network.ofSecretVersion? with
    | none =>
        rw [found] at h
        cases h
    | some known =>
        rw [found] at h
        obtain ⟨compressed, form, h⟩ := Outcome.bind_eq_ok.1 h
        obtain ⟨pair, made, h⟩ := Outcome.bind_eq_ok.1 h
        cases h
        obtain ⟨version, octets, rfl⟩ := wifForm_eq_ok.1 (Outcome.mapError_eq_ok.1 form)
        obtain ⟨secret, written, nonzero, rfl⟩ := ofSecret_eq_ok.1 made
        obtain rfl : version = network.secretVersion := Network.ofSecretVersion?_eq_some.1 found
        refine ⟨secret, compressed, nonzero, ?_, rfl⟩
        have whole : octets.toList = secret.toOctets.toList := by
          rw [← written]
          simp [wifSecret]
        rw [wifPayload, whole]
  · rintro ⟨secret, compressed, nonzero, rfl, rfl⟩
    have found : (wifPayload network secret compressed).head?.bind Network.ofSecretVersion? = some network :=
      Network.ofSecretVersion?_eq_some.2 rfl
    have form : wifForm (wifPayload network secret compressed) = .ok compressed :=
      wifForm_eq_ok.2 ⟨_, _, rfl⟩
    have octets : wifSecret (wifPayload network secret compressed) = secret.toOctets.toList := by
      simp [wifSecret, wifPayload]
    rw [ofWif_encode, found, form, octets, ofSecret_eq_ok.2 ⟨secret, rfl, nonzero, rfl⟩]
    rfl

/-- Reading a text and writing that text are the same relation between texts and pairs with a secret. -/
theorem ofWif_eq_ok_iff_toWif : ofWif text = .ok (key, network) ↔
    key.Reachable ∧ key.hasSecret = true ∧ key.toWif network = .ok text := by
  rw [ofWif_eq_ok]
  constructor
  · rintro ⟨secret, compressed, nonzero, rfl, rfl⟩
    exact ⟨reachable_secret nonzero compressed, rfl, toWif_eq_ok.2 ⟨secret, rfl, rfl⟩⟩
  · rintro ⟨reachable, -, written⟩
    obtain ⟨secret, held, rfl⟩ := toWif_eq_ok.1 written
    have sound := reachable.sound
    refine ⟨secret, key.compressed, sound.secret_ne_zero held, rfl, ?_⟩
    rw [← sound.secret secret held, ← held]

theorem exists_ofWif : (∃ key network, ofWif text = .ok (key, network)) ↔
    ∃ payload, IsSecretPayload payload ∧ text = Base58Check.encode payload := by
  simp only [ofWif_eq_ok, isSecretPayload_iff]
  constructor
  · rintro ⟨key, network, secret, compressed, nonzero, written, -⟩
    exact ⟨_, ⟨network, secret, compressed, nonzero, rfl⟩, written⟩
  · rintro ⟨payload, ⟨network, secret, compressed, nonzero, rfl⟩, written⟩
    exact ⟨_, network, secret, compressed, nonzero, written, rfl⟩

/-! ## What is refused -/

theorem exists_network (known : HasNetwork payload) :
    ∃ network, payload.head?.bind Network.ofSecretVersion? = some network := by
  apply Option.ne_none_iff_exists'.1
  intro none
  exact bind_ofSecretVersion?_eq_none.1 none known

theorem length_wifSecret (form : HasWifForm payload) : (wifSecret payload).length = 32 := by
  unfold HasWifForm at form
  simp only [wifSecret, List.length_take, List.length_drop]
  omega

theorem ofSecret_of_zero {octets : Bytes} (length : octets.length = 32) (zero : Bytes.toNat octets = 0) :
    ofSecret octets = .error (.invalidKey .zeroSecret) := by
  have written : octets = (0 : Scalar).toOctets.toList := by
    rw [← Octets.toList_ofNat_toNat length, zero]
    rfl
  rw [ofSecret, Scalar.ofBytes_eq_ok.2 written]
  rfl

theorem ofSecret_of_range {octets : Bytes} (length : octets.length = 32)
    (large : groupOrder ≤ Bytes.toNat octets) : ofSecret octets = .error (.invalidKey .scalarRange) := by
  rw [ofSecret, Scalar.ofBytes, if_neg (not_not.2 length), dif_neg (Nat.not_lt.2 large)]
  rfl

/-- Behind a network's octet and a form the secret decides. -/
theorem ofWif_encode_of_form (known : HasNetwork payload) (form : HasWifForm payload) {e : Error}
    (refused : ofSecret (wifSecret payload) = .error e) : ofWif (Base58Check.encode payload) = .error e := by
  obtain ⟨network, found⟩ := exists_network known
  obtain ⟨compressed, form⟩ := hasWifForm_iff.1 form
  rw [ofWif_encode, found, form, refused]
  rfl

/-- The first fault of a payload is what its text is refused for. -/
theorem RefusedFor.ofWif_encode {e : Error} (refused : RefusedFor payload e) :
    ofWif (Base58Check.encode payload) = .error e := by
  cases refused with
  | network foreign =>
      rw [KeyPair.ofWif_encode, bind_ofSecretVersion?_eq_none.2 foreign]
  | length known other =>
      obtain ⟨network, found⟩ := exists_network known
      unfold HasWifForm at other
      have form : wifForm payload = .error (.payloadLength payload.length) := by
        rw [not_or] at other
        rw [wifForm, if_neg other.1, if_neg other.2]
      rw [KeyPair.ofWif_encode, found, form]
      rfl
  | zero known form zero =>
      exact ofWif_encode_of_form known form (ofSecret_of_zero (length_wifSecret form) zero)
  | range known form large =>
      exact ofWif_encode_of_form known form (ofSecret_of_range (length_wifSecret form) large)

/-- A payload is that of a secret or has a fault. -/
theorem isSecretPayload_or_refusedFor (payload : Bytes) :
    IsSecretPayload payload ∨ ∃ e, RefusedFor payload e := by
  by_cases known : HasNetwork payload
  · by_cases form : HasWifForm payload
    · by_cases zero : Bytes.toNat (wifSecret payload) = 0
      · exact .inr ⟨_, .zero known form zero⟩
      · by_cases below : Bytes.toNat (wifSecret payload) < groupOrder
        · left
          obtain ⟨compressed, shape⟩ := hasWifForm_iff.1 form
          obtain ⟨version, secret, rfl⟩ := wifForm_eq_ok.1 shape
          have middle : wifSecret (version :: secret.toList ++ if compressed then [1] else []) =
              secret.toList := by simp [wifSecret]
          rw [middle] at zero below
          refine ⟨version, secret, _, rfl, ?_, ⟨Nat.pos_of_ne_zero zero, below⟩, ?_⟩
          · simpa [HasNetwork] using known
          · cases compressed with
            | false => exact .inl rfl
            | true => exact .inr rfl
        · exact .inr ⟨_, .range known form (Nat.le_of_not_lt below)⟩
    · exact .inr ⟨_, .length known form⟩
  · exact .inr ⟨_, .network known⟩

theorem ofWif_encode_eq_error {e : Error} :
    ofWif (Base58Check.encode payload) = .error e ↔ RefusedFor payload e := by
  constructor
  · intro failed
    cases isSecretPayload_or_refusedFor payload with
    | inl accepted =>
        obtain ⟨key, network, read⟩ := exists_ofWif.2 ⟨payload, accepted, rfl⟩
        rw [failed] at read
        cases read
    | inr refused =>
        obtain ⟨e', refused⟩ := refused
        have same := refused.ofWif_encode
        rw [failed] at same
        cases same
        exact refused
  · exact RefusedFor.ofWif_encode

/-- A text without a right checksum is refused for that. -/
theorem ofWif_of_decode_eq_error {e : Error} (failed : Base58Check.decode text = .error e) :
    ofWif text = .error e := by
  rw [ofWif, failed]
  rfl

/-! ## The codec -/

/-- The text of a pair: none without a secret, and else one that the pair and the network are read from. -/
structure RoundTripsWif (key : KeyPair) (network : Network) : Prop where
  lacking : key.toWif network = .error .noSecretKey ↔ key.hasSecret = false
  written : key.hasSecret = true → ∃ text, key.toWif network = .ok text ∧ ofWif text = .ok (key, network)

theorem roundTripsWif (reachable : key.Reachable) (network : Network) : key.RoundTripsWif network where
  lacking := toWif_eq_noSecretKey
  written := by
    intro held
    obtain ⟨secret, value⟩ := Option.isSome_iff_exists.1 held
    have written : key.toWif network = .ok (Base58Check.encode (wifPayload network secret key.compressed)) :=
      toWif_eq_ok.2 ⟨secret, value, rfl⟩
    exact ⟨_, written, ofWif_eq_ok_iff_toWif.2 ⟨reachable, held, written⟩⟩

/-- Writing and reading secrets are inverse to each other, with network and form. The texts that are read are
    those of the payloads of secrets; other payloads are refused for their first fault, and other texts for
    their characters or their checksum. A pair and a network are read from one text only. -/
theorem wif_codec :
    (∀ key : KeyPair, key.Reachable → ∀ network, key.RoundTripsWif network) ∧
      (∀ text key network, ofWif text = .ok (key, network) ↔
        key.Reachable ∧ key.hasSecret = true ∧ key.toWif network = .ok text) ∧
      (∀ text, (∃ key network, ofWif text = .ok (key, network)) ↔
        ∃ payload, IsSecretPayload payload ∧ text = Base58Check.encode payload) ∧
      (∀ payload e, ofWif (Base58Check.encode payload) = .error e ↔ RefusedFor payload e) ∧
      (∀ text, (∀ payload, text ≠ Base58Check.encode payload) →
        ∃ e, Base58Check.decode text = .error e ∧ ofWif text = .error e) ∧
      ∀ text other key network, ofWif text = .ok (key, network) → ofWif other = .ok (key, network) →
        text = other := by
  refine ⟨fun key => roundTripsWif, fun text key network => ofWif_eq_ok_iff_toWif, fun text => exists_ofWif,
    fun payload e => ofWif_encode_eq_error, ?_, ?_⟩
  · intro text foreign
    cases decoded : Base58Check.decode text with
    | ok payload => exact absurd (Base58Check.decode_eq_ok.1 decoded) (foreign payload)
    | error e => exact ⟨e, rfl, ofWif_of_decode_eq_error decoded⟩
  · intro text other key network read again
    have written := (ofWif_eq_ok_iff_toWif.1 read).2.2
    have same := (ofWif_eq_ok_iff_toWif.1 again).2.2
    rw [written] at same
    exact Except.ok.inj same

/-- The pair of the secret one in the longer form is read from its text for the other network and from no
    other; without its secret it has no text. A single zero is no text of anything. -/
theorem wif_codec_one :
    (KeyPair.Reachable ⟨some 1, Point.generator.multiply 1, false⟩ ∧
      ∃ text, toWif ⟨some 1, Point.generator.multiply 1, false⟩ .testnet = .ok text ∧
        ∀ other, ofWif other = .ok (⟨some 1, Point.generator.multiply 1, false⟩, .testnet) → text = other) ∧
    (KeyPair.Reachable ⟨none, Point.generator.multiply 1, false⟩ ∧
      toWif ⟨none, Point.generator.multiply 1, false⟩ .testnet = .error .noSecretKey) ∧
    (∀ payload, "0" ≠ Base58Check.encode payload) ∧
      ∃ e, Base58Check.decode "0" = .error e ∧ ofWif "0" = .error e := by
  obtain ⟨pairs, -, -, -, texts, unique⟩ := wif_codec
  have nonzero : (1 : Scalar) ≠ 0 := by decide
  have reachable := reachable_secret nonzero false
  obtain ⟨text, written, read⟩ := (pairs _ reachable .testnet).written rfl
  have foreign : ∀ payload, "0" ≠ Base58Check.encode payload := by
    intro payload same
    have failed : Base58Check.decode "0" = .error (.invalidBase58 (.badCharacter '0' 0)) := rfl
    rw [Base58Check.decode_eq_ok.2 same] at failed
    cases failed
  refine ⟨⟨reachable, text, written, fun other again => unique text other _ _ read again⟩, ?_,
    foreign, texts "0" foreign⟩
  exact ⟨reachable.publicOnly, (pairs _ reachable.publicOnly .testnet).lacking.2 rfl⟩

end KeyPair

end Bitcoin
