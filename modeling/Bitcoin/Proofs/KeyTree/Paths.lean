import Bitcoin.Proofs.KeyTree.Children
import Mathlib.Data.List.Induction

/-! # Descending along paths

A path is descended step by step, so a path in two parts is two descents. The node at its end lies as many steps
below the first one as the path has, on the same network and with a secret if the first one has one. Whether the
tree is deep enough, and whether there is the secret that hardened steps demand, is known before the descent: it
stops at the first step that lacks either, if no child is missing before, and otherwise for a missing child only.
-/

namespace Bitcoin.KeyNode

variable {node parent child last : KeyNode} {path before after : DerivationPath} {step : ChildNumber}
  {count : Nat} {e : Error}

/-! ## Composition -/

theorem derivePath_cons (node : KeyNode) (step : ChildNumber) (path : DerivationPath) :
    node.derivePath (step :: path) =
      node.derive step.word step.hardened >>= fun child => child.derivePath path :=
  rfl

theorem derivePath_append (node : KeyNode) (p q : DerivationPath) :
    node.derivePath (p ++ q) = node.derivePath p >>= fun parent => parent.derivePath q := by
  induction p generalizing node with
  | nil => rfl
  | cons step p ih =>
      rw [List.cons_append, derivePath_cons, derivePath_cons]
      cases node.derive step.word step.hardened with
      | error e => rfl
      | ok child => exact ih child

/-- A path fails where one of its nodes is reached and has no such child. -/
theorem derivePath_eq_error : node.derivePath path = .error e ↔ ∃ before step after parent,
    path = before ++ step :: after ∧ node.derivePath before = .ok parent ∧
      parent.derive step.word step.hardened = .error e := by
  constructor
  · intro failed
    induction path generalizing node with
    | nil => cases failed
    | cons step path ih =>
        cases Outcome.bind_eq_error.1 failed with
        | inl here => exact ⟨[], step, path, node, rfl, rfl, here⟩
        | inr later =>
            obtain ⟨child, derived, failed⟩ := later
            obtain ⟨before, lacking, after, parent, rfl, reached, failed⟩ := ih failed
            refine ⟨step :: before, lacking, after, parent, rfl, ?_, failed⟩
            exact Outcome.bind_eq_ok.2 ⟨child, derived, reached⟩
  · rintro ⟨before, step, after, parent, rfl, reached, failed⟩
    rw [derivePath_append, reached, Outcome.ok_bind, derivePath_cons, failed]
    rfl

/-! ## Where a path leads -/

/-- The node is the end of the path: so many steps below the first node, of the same network and with a secret if
    that one has one, and a child, by the last step, of the end of the path without it. -/
structure LeadsTo (node : KeyNode) (path : DerivationPath) (last : KeyNode) : Prop where
  depth : last.depth.toNat = node.depth.toNat + path.length
  short : node.depth.toNat + path.length ≤ 255
  network : last.network = node.network
  isPrivate : last.isPrivate = node.isPrivate
  place : ∀ before step, path = before ++ [step] → last.child = step ∧
    ∃ parent, node.derivePath before = .ok parent ∧ last.parentFingerprint = parent.fingerprint

theorem LeadsTo.root (node : KeyNode) : node.LeadsTo [] node where
  depth := rfl
  short := Nat.le_of_lt_succ node.depth.toNat_lt
  network := rfl
  isPrivate := rfl
  place := by
    intro before step empty
    cases before <;> cases empty

theorem LeadsTo.concat (leads : node.LeadsTo path parent) (reached : node.derivePath path = .ok parent)
    (h : parent.derive step.word step.hardened = .ok child) : node.LeadsTo (path ++ [step]) child := by
  have privacy := isPrivate_of_derive h
  obtain ⟨factor, derived⟩ := derive_eq_ok.1 h
  obtain ⟨-, shallow, same, seed, number, -, made⟩ := deriveWithFactor_eq_ok.1 derived
  obtain ⟨-, key, -, rfl⟩ := childOfHash_eq_ok.1 made
  obtain rfl : step = same := Except.ok.inj ((ChildNumber.ofIndex_word step).symm.trans number)
  have deeper := toNat_depth_add_one shallow
  have octet := (parent.depth + 1).toNat_lt
  have above := leads.depth
  constructor
  · change (parent.depth + 1).toNat = _
    rw [deeper, above, List.length_append, List.length_singleton, Nat.add_assoc]
  · rw [List.length_append, List.length_singleton]
    omega
  · exact leads.network
  · exact privacy.trans leads.isPrivate
  · intro before final split
    obtain ⟨rfl, ends⟩ := List.append_inj' split rfl
    cases ends
    exact ⟨rfl, parent, reached, rfl⟩

theorem leadsTo_of_derivePath (h : node.derivePath path = .ok last) : node.LeadsTo path last := by
  induction path using List.reverseRecOn generalizing last with
  | nil =>
      cases h
      exact .root node
  | append_singleton path step ih =>
      rw [derivePath_append] at h
      obtain ⟨parent, reached, h⟩ := Outcome.bind_eq_ok.1 h
      obtain ⟨child, derived, h⟩ := Outcome.bind_eq_ok.1 h
      cases h
      exact (ih reached).concat reached derived

/-! ## What stands in the way -/

/-- What is known to be in the way of a step with so many steps before it: it would be too deep, or it is hardened
    and there is no secret. -/
inductive Hinders (node : KeyNode) (count : Nat) (step : ChildNumber) : Error → Prop where
  | tooDeep (deep : 255 < node.depth.toNat + count + 1) : Hinders node count step .maxDepthExceeded
  | secretless (shallow : node.depth.toNat + count + 1 ≤ 255) (demanded : step.hardened = true)
      (lacking : node.isPrivate = false) : Hinders node count step .hardenedNeedsSecret

/-- Nothing is known to be in the way of the path. -/
structure Spans (node : KeyNode) (path : DerivationPath) : Prop where
  short : node.depth.toNat + path.length ≤ 255
  held : ∀ step ∈ path, step.hardened = true → node.isPrivate = true

theorem isPrivate_eq_false : node.isPrivate = false ↔ node.key.secret = none := by
  unfold isPrivate KeyPair.hasSecret
  simp

/-- What is in the way of a step is in the way of the child that the step would lead to. -/
theorem LeadsTo.bars_iff (leads : node.LeadsTo before parent) :
    parent.Bars step.hardened e ↔ node.Hinders before.length step e := by
  have depth := leads.depth
  have octet := parent.depth.toNat_lt
  have deepest : parent.depth = 255 ↔ 255 < node.depth.toNat + before.length + 1 := by
    rw [← UInt8.toNat_inj]
    change parent.depth.toNat = 255 ↔ _
    omega
  have lacking : parent.key.secret = none ↔ node.isPrivate = false := by
    rw [← isPrivate_eq_false, leads.isPrivate]
  constructor
  · intro bars
    cases bars with
    | tooDeep deep => exact .tooDeep (deepest.1 deep)
    | secretless shallow demanded none =>
        exact .secretless (Nat.le_of_not_lt (deepest.not.1 shallow)) demanded (lacking.1 none)
  · intro hinders
    cases hinders with
    | tooDeep deep => exact .tooDeep (deepest.2 deep)
    | secretless shallow demanded none =>
        exact .secretless (deepest.not.2 (Nat.not_lt.2 shallow)) demanded (lacking.2 none)

theorem Spans.not_hinders (spans : node.Spans (before ++ step :: after)) :
    ¬node.Hinders before.length step e := by
  have short := spans.short
  rw [List.length_append, List.length_cons] at short
  intro hinders
  cases hinders with
  | tooDeep deep => omega
  | secretless _ demanded lacking =>
      have held := spans.held step (List.mem_append_right before List.mem_cons_self) demanded
      rw [lacking] at held
      cases held

/-- With a step that nothing is in the way of, a path that nothing is in the way of stays so. -/
theorem Spans.concat (spans : node.Spans path) (free : ∀ e, ¬node.Hinders path.length step e) :
    node.Spans (path ++ [step]) := by
  have short : node.depth.toNat + path.length + 1 ≤ 255 := by
    by_contra deep
    exact free _ (.tooDeep (Nat.lt_of_not_le deep))
  constructor
  · rw [List.length_append, List.length_singleton]
    exact short
  · intro other member demanded
    obtain early | last := List.mem_append.1 member
    · exact spans.held other early demanded
    · rw [List.mem_singleton.1 last] at demanded
      by_contra lacking
      exact free _ (.secretless short demanded (eq_false_of_ne_true lacking))

/-- If something is in the way of a path, it is in the way of a first step. -/
theorem exists_hinders (hindered : ¬node.Spans path) : ∃ before step after e,
    path = before ++ step :: after ∧ node.Spans before ∧ node.Hinders before.length step e := by
  induction path using List.reverseRecOn with
  | nil =>
      apply absurd _ hindered
      exact ⟨Nat.le_of_lt_succ node.depth.toNat_lt, fun _ member => nomatch member⟩
  | append_singleton path step ih =>
      by_cases spans : node.Spans path
      · by_contra free
        apply hindered
        apply spans.concat
        intro e hinders
        exact free ⟨path, step, [], e, rfl, spans, hinders⟩
      · obtain ⟨before, first, after, e, rfl, spans, hinders⟩ := ih spans
        exact ⟨before, first, after ++ [step], e, by simp, spans, hinders⟩

/-! ## How a descent fails -/

/-- The path fails at a step to which there is no child, in a node that is reached. -/
inductive Misses (node : KeyNode) : DerivationPath → Error → Prop where
  | atStep {before after : DerivationPath} {step : ChildNumber} {parent : KeyNode}
      (reached : node.derivePath before = .ok parent)
      (missing : parent.derive step.word step.hardened = .error (.invalidChild step.word)) :
      Misses node (before ++ step :: after) (.invalidChild step.word)

/-- The path fails at the first step that something is in the way of, or at a child that is missing before it. -/
inductive Stops (node : KeyNode) : DerivationPath → Prop where
  | atStep {before after : DerivationPath} {step : ChildNumber} {e : Error} (spans : node.Spans before)
      (hinders : node.Hinders before.length step e)
      (answer : node.derivePath (before ++ step :: after) = .error e ∨
        ∃ e', node.Misses before e' ∧ node.derivePath (before ++ step :: after) = .error e') :
      Stops node (before ++ step :: after)

/-- Only a missing child is in the way when nothing is known to be. -/
theorem Spans.misses (live : node.cleared = false) (spans : node.Spans path)
    (failed : node.derivePath path = .error e) : node.Misses path e := by
  obtain ⟨before, step, after, parent, rfl, reached, failed⟩ := derivePath_eq_error.1 failed
  have live' := live_of_derivePath live reached
  have low := step.toNat_word_le
  obtain admits | ⟨fault, bars⟩ := parent.admits_or_bars step.hardened
  · cases derive_of_admits live' low admits with
    | inl derived =>
        obtain ⟨child, derived⟩ := derived
        rw [derived] at failed
        cases failed
    | inr missing =>
        rw [missing] at failed
        cases failed
        exact .atStep reached missing
  · exact absurd ((leadsTo_of_derivePath reached).bars_iff.1 bars) spans.not_hinders

theorem stops_of_not_spans (live : node.cleared = false) (hindered : ¬node.Spans path) : node.Stops path := by
  obtain ⟨before, step, after, e, rfl, spans, hinders⟩ := exists_hinders hindered
  refine .atStep spans hinders ?_
  cases outcome : node.derivePath before with
  | error e' =>
      refine .inr ⟨e', spans.misses live outcome, ?_⟩
      rw [derivePath_append, outcome]
      rfl
  | ok parent =>
      have bars := (leadsTo_of_derivePath outcome).bars_iff.2 hinders
      have failed := derive_of_bars (live_of_derivePath live outcome) step.toNat_word_le bars
      exact .inl (derivePath_eq_error.2 ⟨before, step, after, parent, rfl, outcome, failed⟩)

/-- Descending along a path in two parts is descending twice, and what it leads to is known from the path. Where
    the tree is not deep enough, or a hardened step finds no secret, the descent stops at the first such step
    with the error that belongs to it, unless a child is missing before; otherwise it fails for a missing child
    only. -/
theorem derivePath_composes_and_stops (live : node.cleared = false) :
    (∀ p q, node.derivePath (p ++ q) = node.derivePath p >>= fun parent => parent.derivePath q) ∧
      (∀ path last, node.derivePath path = .ok last → node.LeadsTo path last) ∧
      (∀ path, 255 < node.depth.toNat + path.length ∨
        (node.isPrivate = false ∧ ∃ step ∈ path, step.hardened = true) → node.Stops path) ∧
      ∀ path, node.Spans path → ∀ e, node.derivePath path = .error e → node.Misses path e := by
  refine ⟨derivePath_append node, ?_, ?_, ?_⟩
  · intro path last
    exact leadsTo_of_derivePath
  · intro path impossible
    apply stops_of_not_spans live
    intro spans
    cases impossible with
    | inl long => exact Nat.not_lt.2 spans.short long
    | inr lacking =>
        obtain ⟨lacking, step, member, demanded⟩ := lacking
        rw [spans.held step member demanded] at lacking
        cases lacking
  · intro path spans e
    exact spans.misses live

/-- From the master node of the secret one a path of two steps is descended at once and step by step. Without the
    secret the descent stops at the hardened step, and at the greatest depth it stops at any. -/
theorem derivePath_composes_and_stops_master :
    ((master 1).cleared = false ∧ ∃ child last, (master 1).derivePath [⟨0, true⟩] = .ok child ∧
      child.derivePath [⟨1, false⟩] = .ok last ∧ (master 1).LeadsTo [⟨0, true⟩, ⟨1, false⟩] last) ∧
    ((master 1).publicOnly.cleared = false ∧ (master 1).publicOnly.isPrivate = false ∧
      (master 1).publicOnly.Stops [⟨1, false⟩, ⟨0, true⟩]) ∧
    KeyNode.Stops { master 1 with depth := 255 } [⟨1, false⟩] := by
  have live : (master 1).cleared = false := rfl
  have live' : (master 1).publicOnly.cleared = false := rfl
  have bare : (master 1).publicOnly.isPrivate = false := rfl
  obtain ⟨composes, leads, -, -⟩ := derivePath_composes_and_stops live
  have solvable : ((master 1).derivePath [⟨0, true⟩, ⟨1, false⟩]).isOk = true := by decide +kernel
  obtain ⟨last, descended⟩ := Outcome.exists_of_isOk solvable
  obtain ⟨child, first, second⟩ := Outcome.bind_eq_ok.1 ((composes [⟨0, true⟩] [⟨1, false⟩]).symm.trans descended)
  refine ⟨⟨live, child, last, first, second, leads _ last descended⟩, ⟨live', bare, ?_⟩, ?_⟩
  · apply (derivePath_composes_and_stops live').2.2.1
    exact .inr ⟨bare, ⟨0, true⟩, by decide, rfl⟩
  · have deep : KeyNode.cleared { master 1 with depth := 255 } = false := rfl
    apply (derivePath_composes_and_stops deep).2.2.1
    exact .inl (by decide)

end Bitcoin.KeyNode
