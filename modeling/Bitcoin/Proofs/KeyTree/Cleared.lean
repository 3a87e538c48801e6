import Bitcoin.Proofs.KeyTree.Reachable
import Mathlib.Logic.Relation

/-! # Cleared nodes

Clearing is final. What an operation makes of a cleared node is the same node or nothing: children, extended
keys and matches all fail with the same error, which a search does not pass over. So whatever is done with a
node after it was cleared, only its public point and its place in the tree are left of it.
-/

namespace Bitcoin.KeyNode

variable {node next origin held : KeyNode}

/-! ## Single operations -/

section Cleared

variable (cleared : node.cleared = true)
include cleared

theorem deriveWithFactor_of_cleared (index : UInt32) (hardened : Bool) :
    node.deriveWithFactor index hardened = .error .cleared := by
  simp [deriveWithFactor_eq, cleared]

theorem derive_of_cleared (index : UInt32) (hardened : Bool) :
    node.derive index hardened = .error .cleared := by
  simp [derive, deriveWithFactor_of_cleared cleared]

theorem keyAt_of_cleared (index : UInt32) (hardened : Bool) :
    node.keyAt index hardened = .error .cleared := by
  simp [keyAt, derive_of_cleared cleared]

/-- Only the empty path leads anywhere. -/
theorem derivePath_of_cleared (path : DerivationPath) :
    node.derivePath path = if path = [] then .ok node else .error .cleared := by
  cases path with
  | nil => rfl
  | cons step path => simp [derivePath, derive_of_cleared cleared]

theorem eq_of_derivePath {path : DerivationPath} (h : node.derivePath path = .ok next) : next = node := by
  rw [derivePath_of_cleared cleared] at h
  split_ifs at h
  cases h
  rfl

theorem deriveText_of_cleared {text : String} {path : DerivationPath}
    (parsed : DerivationPath.parse text = .ok path) :
    node.deriveText text = if path = [] then .ok node else .error .cleared := by
  simp [deriveText, parsed, derivePath_of_cleared cleared]

theorem toExtended_of_cleared (withSecret : Bool) : node.toExtended withSecret = .error .cleared := by
  simp [toExtended, requireLive, cleared]

theorem toExtendedText_of_cleared (withSecret : Bool) :
    node.toExtendedText withSecret = .error .cleared := by
  simp [toExtendedText, toExtended_of_cleared cleared]

/-- The first index that is tried ends the search. -/
theorem search_of_cleared (target : SearchTarget) (hardened : Bool) (tries index : Nat) :
    node.search target hardened tries index =
      if tries = 0 ∨ 0x80000000 ≤ index then .ok none else .error .cleared := by
  cases tries with
  | zero => rfl
  | succ tries => simp [search, derive_of_cleared cleared, Error.isRetryable]

/-- A search fails because of the node if it tries an index at all. -/
theorem find_of_cleared (target : SearchTarget) (start : UInt32) (hardened : Bool) (limit : UInt32) :
    node.find target start hardened limit =
      .error (if limit = 0 ∨ 0x7fffffff < start then .keyNotFound limit else .cleared) := by
  have none : limit.toNat = 0 ↔ limit = 0 := UInt32.toNat_inj (b := 0)
  have past : 0x80000000 ≤ start.toNat ↔ 0x7fffffff < start := by
    simp [UInt32.lt_iff_toNat_lt, Nat.lt_iff_add_one_le]
  simp only [find, search_of_cleared cleared, none, past]
  split_ifs <;> rfl

end Cleared

/-! ## Any number of operations -/

/-- An operation on the first node gives the second one. -/
inductive Gives : KeyNode → KeyNode → Prop where
  | copy (node : KeyNode) : Gives node node
  | publicOnly (node : KeyNode) : Gives node node.publicOnly
  | clear (node : KeyNode) : Gives node node.clear
  | derive {node child : KeyNode} {index : UInt32} {hardened : Bool} :
      node.derive index hardened = .ok child → Gives node child
  | deriveWithFactor {node child : KeyNode} {factor : Scalar} {index : UInt32} {hardened : Bool} :
      node.deriveWithFactor index hardened = .ok (child, factor) → Gives node child
  | derivePath {node child : KeyNode} {path : DerivationPath} :
      node.derivePath path = .ok child → Gives node child
  | deriveText {node child : KeyNode} {path : String} :
      node.deriveText path = .ok child → Gives node child
  | find {node child : KeyNode} {target : SearchTarget} {start limit : UInt32} {hardened : Bool} :
      node.find target start hardened limit = .ok child → Gives node child

/-- The node is what is left of another one that was cleared: its point, in the form that it was written in,
    and its place. -/
structure RemainsOf (node origin : KeyNode) : Prop where
  cleared : node.cleared = true
  secret : node.key.secret = none
  chainCode : node.chainCode = Octets.zero 32
  point : node.key.point = origin.key.point
  compressed : node.key.compressed = origin.key.compressed
  depth : node.depth = origin.depth
  parentFingerprint : node.parentFingerprint = origin.parentFingerprint
  child : node.child = origin.child
  network : node.network = origin.network

namespace RemainsOf

theorem clear (origin : KeyNode) : origin.clear.RemainsOf origin := by
  constructor <;> rfl

/-- The operations that give anything at all leave the node as it is. -/
theorem step (remains : node.RemainsOf origin) (gives : node.Gives next) : next.RemainsOf origin := by
  have cleared := remains.cleared
  cases gives with
  | copy => exact remains
  | publicOnly => exact { remains with secret := rfl }
  | clear => exact { remains with cleared := rfl, secret := rfl, chainCode := rfl }
  | derive h => simp [derive_of_cleared cleared] at h
  | deriveWithFactor h => simp [deriveWithFactor_of_cleared cleared] at h
  | derivePath h => exact eq_of_derivePath cleared h ▸ remains
  | deriveText h =>
      obtain ⟨path, -, h⟩ := Outcome.bind_eq_ok.1 h
      exact eq_of_derivePath cleared h ▸ remains
  | find h => simp [find_of_cleared cleared] at h

theorem run (remains : node.RemainsOf origin) (gives : Relation.ReflTransGen Gives node held) :
    held.RemainsOf origin := by
  induction gives with
  | refl => exact remains
  | tail _ gives ih => exact ih.step gives

end RemainsOf

/-- Neither a child nor a match nor an extended key can be had of the node. -/
structure Inert (node : KeyNode) : Prop where
  derive : ∀ index hardened, node.derive index hardened = .error .cleared
  deriveWithFactor : ∀ index hardened, node.deriveWithFactor index hardened = .error .cleared
  keyAt : ∀ index hardened, node.keyAt index hardened = .error .cleared
  derivePath : ∀ path, path ≠ [] → node.derivePath path = .error .cleared
  deriveText : ∀ text path, DerivationPath.parse text = .ok path → path ≠ [] →
    node.deriveText text = .error .cleared
  find : ∀ target start hardened limit, limit ≠ 0 → start ≤ 0x7fffffff →
    node.find target start hardened limit = .error .cleared
  extended : ∀ withSecret, node.toExtended withSecret = .error .cleared
  extendedText : ∀ withSecret, node.toExtendedText withSecret = .error .cleared

theorem inert_of_cleared (cleared : node.cleared = true) : node.Inert where
  derive := derive_of_cleared cleared
  deriveWithFactor := deriveWithFactor_of_cleared cleared
  keyAt := keyAt_of_cleared cleared
  derivePath := by
    intro path nonempty
    simp [derivePath_of_cleared cleared, nonempty]
  deriveText := by
    intro text path parsed nonempty
    simp [deriveText_of_cleared cleared parsed, nonempty]
  find := by
    intro target start hardened limit tries inside
    simp [find_of_cleared cleared, tries, UInt32.not_lt.2 inside]
  extended := toExtended_of_cleared cleared
  extendedText := toExtendedText_of_cleared cleared

/-- Clearing any node is final: after whatever operations follow, what is held is still what was left of the
    node. It is never live again and gives neither children nor extended keys, and its error is one that no
    search passes over. -/
theorem clear_is_permanent (origin : KeyNode) (run : Relation.ReflTransGen Gives origin.clear held) :
    held.RemainsOf origin ∧ held.Inert ∧ Error.cleared.isRetryable = false := by
  have remains := (RemainsOf.clear origin).run run
  exact ⟨remains, inert_of_cleared remains.cleared, rfl⟩

/-- The master node of the secret one, cleared, without its secret once more, and led along the empty path. -/
theorem clear_is_permanent_master :
    Relation.ReflTransGen Gives (master 1).clear (master 1).clear.publicOnly ∧
      (master 1).clear.publicOnly.RemainsOf (master 1) ∧ (master 1).clear.publicOnly.Inert := by
  have run : Relation.ReflTransGen Gives (master 1).clear (master 1).clear.publicOnly := by
    have stays : (master 1).clear.publicOnly.derivePath [] = .ok (master 1).clear.publicOnly := rfl
    apply Relation.ReflTransGen.tail (Relation.ReflTransGen.single (.publicOnly _))
    exact .derivePath stays
  obtain ⟨remains, inert, -⟩ := clear_is_permanent (master 1) run
  exact ⟨run, remains, inert⟩

/-! ## What clearing does not refuse -/

/-- The error of a cleared node comes from a derivation, so it is missing where there is none to make: along the
    empty path, which leads to the node as it is, and in a search that tries no index, which finds nothing. -/
theorem refusals_of_cleared (cleared : node.cleared = true) :
    (∀ path, node.derivePath path = .error .cleared ↔ path ≠ []) ∧ node.derivePath [] = .ok node ∧
      ∀ target start hardened limit,
        (node.find target start hardened limit = .error .cleared ↔ limit ≠ 0 ∧ start ≤ 0x7fffffff) ∧
        (limit = 0 ∨ 0x7fffffff < start →
          node.find target start hardened limit = .error (.keyNotFound limit)) := by
  refine ⟨?_, rfl, ?_⟩
  · intro path
    cases path with
    | nil => simp [derivePath_of_cleared cleared]
    | cons step path => simp [derivePath_of_cleared cleared]
  · intro target start hardened limit
    rw [find_of_cleared cleared]
    by_cases idle : limit = 0 ∨ 0x7fffffff < start
    · have none : ¬(limit ≠ 0 ∧ start ≤ 0x7fffffff) := by
        intro tried
        cases idle with
        | inl zero => exact tried.1 zero
        | inr past => exact UInt32.not_lt.2 tried.2 past
      simp [if_pos idle, none]
    · have tried : limit ≠ 0 ∧ start ≤ 0x7fffffff :=
        ⟨fun zero => idle (.inl zero), UInt32.not_lt.1 fun past => idle (.inr past)⟩
      simp [tried]

/-- The cleared master node of the secret one goes along the empty path, and looks for its own point in vain. -/
theorem refusals_of_cleared_master :
    (master 1).clear.cleared = true ∧ (master 1).clear.derivePath [] = .ok (master 1).clear ∧
      (master 1).clear.find (.publicPoint Point.generator) 0 false 0 = .error (.keyNotFound 0) ∧
      (master 1).clear.find (.publicPoint Point.generator) 0x80000000 false 5 = .error (.keyNotFound 5) := by
  have cleared : (master 1).clear.cleared = true := rfl
  obtain ⟨-, stays, search⟩ := refusals_of_cleared cleared
  refine ⟨cleared, stays, ?_, ?_⟩
  · exact (search (.publicPoint Point.generator) 0 false 0).2 (.inl rfl)
  · exact (search (.publicPoint Point.generator) 0x80000000 false 5).2 (.inr (by decide))

end Bitcoin.KeyNode
