import Bitcoin.Proofs.KeyTree.Children
import Bitcoin.Proofs.Text.Base58

/-! # The first child that meets a target

A search tries the indices of a window in their order, and the window ends where the indices do. What a search
finds is the child of the least index whose child meets the target, and it finds none only if the window has
none. An address stands for a target that its own key meets.
-/

namespace Bitcoin

theorem Network.ofAddressVersion?_addressVersion (network : Network) :
    ofAddressVersion? network.addressVersion = some network := by
  cases network <;> rfl

namespace SearchTarget

variable {target : SearchTarget} {key : KeyPair}

/-- The key has the wanted point, or one of the two encodings of its point has the wanted hash. -/
inductive MetBy (key : KeyPair) : SearchTarget → Prop where
  | publicPoint : MetBy key (.publicPoint key.point)
  | keyHash {compressed : Bool} {octets : Bytes} (encoded : key.point.encode compressed = .ok octets) :
      MetBy key (.keyHash (Hash.hash160 octets))

theorem metBy_encodePoint (finite : key.point ≠ .infinity) (compressed : Bool) :
    (keyHash (Hash.hash160 (key.encodePoint compressed))).MetBy key :=
  .keyHash (KeyPair.encode_eq_encodePoint finite compressed)

theorem isMetBy_iff (finite : key.point ≠ .infinity) : target.isMetBy key = true ↔ target.MetBy key := by
  cases target with
  | publicPoint point =>
      simp only [isMetBy, decide_eq_true_eq]
      constructor
      · rintro rfl
        exact .publicPoint
      · rintro ⟨⟩
        rfl
  | keyHash hash =>
      simp only [isMetBy, decide_eq_true_eq]
      constructor
      · rintro (rfl | rfl)
        · exact metBy_encodePoint finite true
        · exact metBy_encodePoint finite false
      · intro met
        cases met with
        | @keyHash compressed octets encoded =>
            rw [KeyPair.encode_eq_encodePoint finite, Except.ok.injEq] at encoded
            subst encoded
            cases compressed with
            | true => exact .inl rfl
            | false => exact .inr rfl

/-- The target of an address is the hash in it. -/
theorem ofAddress_address (key : KeyPair) (network : Network) :
    ofAddress (key.address network) = .ok (.keyHash key.keyHash) := by
  have decoded : Base58Check.decode (key.address network) =
      .ok (network.addressVersion :: key.keyHash.toList) := Base58Check.decode_eq_ok.2 rfl
  simp only [ofAddress, decoded, Outcome.ok_bind, Octets.ofList?_toList, Network.ofAddressVersion?_addressVersion]
  rfl

end SearchTarget

namespace KeyNode

variable {node child : KeyNode} {target : SearchTarget} {index start limit : UInt32} {hardened : Bool}
  {first tries : Nat} {found : Option KeyNode} {e : Error}

/-! ## Windows -/

/-- The index is among so many from the first one on, and there is a child number with it. -/
structure InWindow (first tries : Nat) (index : UInt32) : Prop where
  le : first ≤ index.toNat
  lt : index.toNat < first + tries
  low : index.toNat ≤ 0x7fffffff

/-- A window is its first index and the window behind it. -/
theorem inWindow_succ :
    InWindow first (tries + 1) index ↔
      (index.toNat = first ∧ first ≤ 0x7fffffff) ∨ InWindow (first + 1) tries index := by
  constructor
  · rintro ⟨le, lt, low⟩
    by_cases here : index.toNat = first
    · exact .inl ⟨here, here ▸ low⟩
    · exact .inr ⟨by omega, by omega, low⟩
  · rintro (⟨here, low⟩ | ⟨le, lt, low⟩)
    · exact ⟨by omega, by omega, by omega⟩
    · exact ⟨by omega, by omega, low⟩

/-- The index is no match: it has no child, or its child does not meet the target. -/
inductive PassesOver (node : KeyNode) (target : SearchTarget) (hardened : Bool) (index : UInt32) : Prop where
  | missing (derived : node.derive index hardened = .error (.invalidChild index))
  | other {child : KeyNode} (derived : node.derive index hardened = .ok child)
      (unmet : ¬target.MetBy child.key)

theorem PassesOver.not_metBy (passed : node.PassesOver target hardened index)
    (derived : node.derive index hardened = .ok child) : ¬target.MetBy child.key := by
  cases passed with
  | missing missing =>
      rw [missing] at derived
      cases derived
  | other same unmet =>
      rw [same] at derived
      cases derived
      exact unmet

/-- What there is to find in a window: the first match, or nothing. -/
inductive Holds (node : KeyNode) (target : SearchTarget) (hardened : Bool) (first tries : Nat) :
    Option KeyNode → Prop where
  | hit {index : UInt32} {child : KeyNode} (inside : InWindow first tries index)
      (derived : node.derive index hardened = .ok child) (met : target.MetBy child.key)
      (earlier : ∀ other, InWindow first tries other → other < index → node.PassesOver target hardened other) :
      Holds node target hardened first tries (some child)
  | nothing (all : ∀ other, InWindow first tries other → node.PassesOver target hardened other) :
      Holds node target hardened first tries none

namespace Holds

/-- In front of a window, an index without a match changes nothing. -/
theorem cons (here : index.toNat = first) (passed : node.PassesOver target hardened index)
    (holds : node.Holds target hardened (first + 1) tries found) :
    node.Holds target hardened first (tries + 1) found := by
  have this {other : UInt32} (same : other.toNat = first) : node.PassesOver target hardened other := by
    rw [← here, UInt32.toNat_inj] at same
    exact same ▸ passed
  cases holds with
  | hit inside derived met earlier =>
      refine .hit (inWindow_succ.2 (.inr inside)) derived met ?_
      intro other within less
      cases inWindow_succ.1 within with
      | inl head => exact this head.1
      | inr behind => exact earlier other behind less
  | nothing all =>
      apply nothing
      intro other within
      cases inWindow_succ.1 within with
      | inl head => exact this head.1
      | inr behind => exact all other behind

/-- A window holds one thing only. -/
theorem unique {found' : Option KeyNode} (holds : node.Holds target hardened first tries found)
    (holds' : node.Holds target hardened first tries found') : found = found' := by
  cases holds with
  | @hit index child inside derived met earlier =>
      cases holds' with
      | @hit index' child' inside' derived' met' earlier' =>
          obtain less | same | greater := Nat.lt_trichotomy index.toNat index'.toNat
          · have passed := earlier' index inside (UInt32.lt_iff_toNat_lt.2 less)
            exact absurd met (passed.not_metBy derived)
          · rw [UInt32.toNat_inj.1 same, derived'] at derived
            cases derived
            rfl
          · have passed := earlier index' inside' (UInt32.lt_iff_toNat_lt.2 greater)
            exact absurd met' (passed.not_metBy derived')
      | nothing all => exact absurd met ((all index inside).not_metBy derived)
  | nothing all =>
      cases holds' with
      | @hit index' child' inside' derived' met' => exact absurd met' ((all index' inside').not_metBy derived')
      | nothing => rfl

end Holds

/-! ## Searching -/

theorem search_of_past (past : 0x7fffffff < first) :
    node.search target hardened tries first = .ok none := by
  cases tries with
  | zero => rfl
  | succ tries => exact if_pos past

theorem search_of_missing (low : index.toNat ≤ 0x7fffffff)
    (missing : node.derive index hardened = .error (.invalidChild index)) :
    node.search target hardened (tries + 1) index.toNat = node.search target hardened tries (index.toNat + 1) := by
  simp [search, Nat.not_le.2 (Nat.lt_succ_of_le low), missing, Error.isRetryable]

theorem search_of_derive (low : index.toNat ≤ 0x7fffffff) (derived : node.derive index hardened = .ok child) :
    node.search target hardened (tries + 1) index.toNat =
      if target.isMetBy child.key then .ok (some child)
      else node.search target hardened tries (index.toNat + 1) := by
  simp [search, Nat.not_le.2 (Nat.lt_succ_of_le low), derived]

theorem search_of_bars (live : node.cleared = false) (low : index.toNat ≤ 0x7fffffff)
    (bars : node.Bars hardened e) : node.search target hardened (tries + 1) index.toNat = .error e := by
  have final : e.isRetryable = false := by cases bars <;> rfl
  simp [search, Nat.not_le.2 (Nat.lt_succ_of_le low), derive_of_bars live low bars, final]

/-- A search that is not barred finds what the window holds. -/
theorem holds_search (live : node.cleared = false) (admits : node.Admits hardened) (target : SearchTarget)
    (tries first : Nat) : ∃ found, node.search target hardened tries first = .ok found ∧
      node.Holds target hardened first tries found := by
  induction tries generalizing first with
  | zero =>
      refine ⟨none, rfl, .nothing ?_⟩
      intro other within
      have le := within.le
      have lt := within.lt
      omega
  | succ tries ih =>
      by_cases past : 0x7fffffff < first
      · refine ⟨none, search_of_past past, .nothing ?_⟩
        intro other within
        have le := within.le
        have low := within.low
        omega
      obtain ⟨found, searched, holds⟩ := ih (first + 1)
      obtain ⟨index, here⟩ : ∃ index : UInt32, index.toNat = first :=
        ⟨UInt32.ofNat first, UInt32.toNat_ofNat_of_lt' (by change _ < 2 ^ 32; omega)⟩
      subst here
      have low := Nat.le_of_not_lt past
      cases derive_of_admits live low admits with
      | inr missing =>
          rw [search_of_missing low missing]
          exact ⟨found, searched, holds.cons rfl (.missing missing)⟩
      | inl derived =>
          obtain ⟨child, derived⟩ := derived
          have met : target.isMetBy child.key = true ↔ target.MetBy child.key :=
            SearchTarget.isMetBy_iff (finite_of_derive derived)
          rw [search_of_derive low derived]
          split_ifs with h
          · refine ⟨some child, rfl, .hit ⟨le_rfl, by omega, low⟩ derived (met.1 h) ?_⟩
            intro other within less
            exact absurd (UInt32.lt_iff_toNat_lt.1 less) (Nat.not_lt.2 within.le)
          · exact ⟨found, searched, holds.cons rfl (.other derived fun m => h (met.2 m))⟩

/-! ## Finding -/

/-- The answers of a search for a child, each with the conditions that lead to it. -/
inductive Finds (node : KeyNode) (target : SearchTarget) (start : UInt32) (hardened : Bool) (limit : UInt32) :
    Result KeyNode → Prop where
  | nowhere (empty : ∀ index, ¬InWindow start.toNat limit.toNat index) :
      Finds node target start hardened limit (.error (.keyNotFound limit))
  | barred {index : UInt32} {e : Error} (inside : InWindow start.toNat limit.toNat index)
      (bars : node.Bars hardened e) : Finds node target start hardened limit (.error e)
  | hit {child : KeyNode} (admits : node.Admits hardened)
      (holds : node.Holds target hardened start.toNat limit.toNat (some child)) :
      Finds node target start hardened limit (.ok child)
  | nothing (admits : node.Admits hardened)
      (holds : node.Holds target hardened start.toNat limit.toNat none) :
      Finds node target start hardened limit (.error (.keyNotFound limit))

theorem find_of_search (h : node.search target hardened limit.toNat start.toNat = .ok found) :
    node.find target start hardened limit = found.elim (.error (.keyNotFound limit)) .ok := by
  rw [find, h]
  cases found <;> rfl

theorem find_of_holds (live : node.cleared = false) (admits : node.Admits hardened)
    (holds : node.Holds target hardened start.toNat limit.toNat found) :
    node.find target start hardened limit = found.elim (.error (.keyNotFound limit)) .ok := by
  obtain ⟨found', searched, held⟩ := holds_search live admits target limit.toNat start.toNat
  rw [find_of_search searched, held.unique holds]

/-- A window without an index has no tries or starts behind the last index. -/
theorem search_of_empty (empty : ∀ index, ¬InWindow start.toNat tries index) :
    node.search target hardened tries start.toNat = .ok none := by
  by_cases past : 0x7fffffff < start.toNat
  · exact search_of_past past
  cases tries with
  | zero => rfl
  | succ tries => exact absurd ⟨le_rfl, by omega, Nat.le_of_not_lt past⟩ (empty start)

theorem find_of_bars (live : node.cleared = false) (inside : InWindow start.toNat limit.toNat index)
    (bars : node.Bars hardened e) : node.find target start hardened limit = .error e := by
  obtain ⟨le, lt, low⟩ := inside
  obtain ⟨tries, count⟩ : ∃ tries, limit.toNat = tries + 1 := Nat.exists_eq_add_one.2 (by omega)
  rw [find, count, search_of_bars live (by omega) bars]
  rfl

/-- An answer whose conditions hold is the one that is given. -/
theorem find_of_finds (live : node.cleared = false) {answer : Result KeyNode}
    (finds : node.Finds target start hardened limit answer) :
    node.find target start hardened limit = answer := by
  cases finds with
  | nowhere empty => exact find_of_search (search_of_empty empty)
  | barred inside bars => exact find_of_bars live inside bars
  | hit admits holds => exact find_of_holds live admits holds
  | nothing admits holds => exact find_of_holds live admits holds

/-- There is always an answer. -/
theorem finds_find (live : node.cleared = false) (target : SearchTarget) (start : UInt32) (hardened : Bool)
    (limit : UInt32) : node.Finds target start hardened limit (node.find target start hardened limit) := by
  by_cases empty : ∀ index, ¬InWindow start.toNat limit.toNat index
  · rw [find_of_finds live (.nowhere empty)]
    exact .nowhere empty
  · simp only [not_forall, not_not] at empty
    obtain ⟨index, inside⟩ := empty
    obtain admits | ⟨e, bars⟩ := admits_or_bars node hardened
    · obtain ⟨found, searched, holds⟩ := holds_search live admits target limit.toNat start.toNat
      rw [find_of_search searched]
      cases found with
      | none => exact .nothing admits holds
      | some child => exact .hit admits holds
    · rw [find_of_bars live inside bars]
      exact .barred inside bars

/-- A child in the window that meets the target makes the search succeed, with this child or an earlier one. -/
theorem exists_find (live : node.cleared = false) (inside : InWindow start.toNat limit.toNat index)
    (derived : node.derive index hardened = .ok child) (met : target.MetBy child.key) :
    ∃ found first, node.find target start hardened limit = .ok found ∧
      InWindow start.toNat limit.toNat first ∧ first ≤ index ∧
      node.derive first hardened = .ok found ∧ target.MetBy found.key := by
  have finds := finds_find live target start hardened limit
  generalize answered : node.find target start hardened limit = answer at finds
  cases finds with
  | nowhere empty => exact absurd inside (empty index)
  | barred _ bars =>
      rw [derive_of_bars live inside.low bars] at derived
      cases derived
  | @hit found admits holds =>
      cases holds with
      | @hit first _ inside' derived' met' earlier =>
          refine ⟨found, first, rfl, inside', ?_, derived', met'⟩
          apply UInt32.not_lt.1
          intro less
          exact (earlier index inside less).not_metBy derived met
  | nothing admits holds =>
      cases holds with
      | nothing all => exact absurd met ((all index inside).not_metBy derived)

/-- A search gives an answer exactly if its conditions hold. With the address of a child in the window, on either
    network, it succeeds: the address stands for a target that the child meets, and the child found is this one or
    an earlier one that meets it too. -/
theorem find_first_match (live : node.cleared = false) (start : UInt32) (hardened : Bool) (limit : UInt32) :
    (∀ target answer, node.find target start hardened limit = answer ↔
      node.Finds target start hardened limit answer) ∧
    ∀ index child network, InWindow start.toNat limit.toNat index → node.derive index hardened = .ok child →
      ∃ target, SearchTarget.ofAddress (child.key.address network) = .ok target ∧ target.MetBy child.key ∧
        ∃ found first, node.find target start hardened limit = .ok found ∧
          InWindow start.toNat limit.toNat first ∧ first ≤ index ∧
          node.derive first hardened = .ok found ∧ target.MetBy found.key := by
  constructor
  · intro target answer
    constructor
    · rintro rfl
      exact finds_find live target start hardened limit
    · exact find_of_finds live
  · intro index child network inside derived
    have met := SearchTarget.metBy_encodePoint (finite_of_derive derived) child.key.compressed
    exact ⟨_, SearchTarget.ofAddress_address child.key network, met, exists_find live inside derived met⟩

/-- The master node of the secret one finds its first hardened child by the address, and nothing behind the last
    index. Without its secret it does not even try. -/
theorem find_first_match_master :
    ((master 1).cleared = false ∧ ∃ child target found first, (master 1).derive 0 true = .ok child ∧
      SearchTarget.ofAddress (child.key.address .testnet) = .ok target ∧
      (master 1).find target 0 true 1 = .ok found ∧ first ≤ 0 ∧ (master 1).derive first true = .ok found) ∧
    (master 1).find (.publicPoint .generator) 0x80000000 false 5 = .error (.keyNotFound 5) ∧
    (master 1).publicOnly.cleared = false ∧
      (master 1).publicOnly.find (.publicPoint .generator) 0 true 5 = .error .hardenedNeedsSecret := by
  have live : (master 1).cleared = false := rfl
  have live' : (master 1).publicOnly.cleared = false := rfl
  have solvable : ((master 1).derive 0 true).isOk = true := by decide +kernel
  obtain ⟨child, derived⟩ := Outcome.exists_of_isOk solvable
  have inside : InWindow (0 : UInt32).toNat (1 : UInt32).toNat 0 := ⟨by decide, by decide, by decide⟩
  obtain ⟨target, read, -, found, first, searched, -, le, same, -⟩ :=
    (find_first_match live 0 true 1).2 0 child .testnet inside derived
  refine ⟨⟨live, child, target, found, first, derived, read, searched, le, same⟩, ?_, live', ?_⟩
  · apply ((find_first_match live 0x80000000 false 5).1 _ _).2
    apply Finds.nowhere
    intro index outside
    exact absurd (outside.le.trans outside.low) (by decide)
  · apply ((find_first_match live' 0 true 5).1 _ _).2
    have inside' : InWindow (0 : UInt32).toNat (5 : UInt32).toNat 0 := ⟨by decide, by decide, by decide⟩
    exact .barred inside' (.secretless (by decide) rfl rfl)

end KeyNode

end Bitcoin
