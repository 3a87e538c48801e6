import Bitcoin.Proofs.Transaction.Unlocking

/-! # The order of signing

Unlocking several inputs is a run of steps that each write one script. Since no step signs a script of an input,
what the run leaves behind is described without its order.
-/

namespace Bitcoin.Transaction

variable {tx tx' : Transaction} {index : Nat} {unlocker : KeyHashUnlocker}
  {pairs pairs' : List (Nat × KeyHashUnlocker)}

/-- Unlock one input after the other. -/
def unlockInputs (pairs : List (Nat × KeyHashUnlocker)) : EStateM TransactionError Transaction Unit :=
  forM pairs fun (index, unlocker) => unlockInput index unlocker

/-- Every listed input has the script that unlocks it in `tx`, and nothing else differs. -/
structure AllUnlocked (pairs : List (Nat × KeyHashUnlocker)) (tx tx' : Transaction) : Prop where
  version : tx'.version = tx.version
  outputs : tx'.outputs = tx.outputs
  lockTime : tx'.lockTime = tx.lockTime
  length : tx'.inputs.length = tx.inputs.length
  listed : ∀ index unlocker, (index, unlocker) ∈ pairs → ∃ script, unlocker.unlockingScript tx index = .ok script ∧
    tx'.inputs[index]? = tx.inputs[index]?.map fun input => { input with script := script }
  unlisted : ∀ index, index ∉ pairs.map Prod.fst → tx'.inputs[index]? = tx.inputs[index]?

namespace AllUnlocked

theorem nil : AllUnlocked [] tx tx' ↔ tx' = tx := by
  constructor
  · intro all
    cases tx
    cases tx'
    obtain ⟨rfl, rfl, rfl, -, -, unlisted⟩ := all
    congr 1
    apply List.ext_getElem?
    intro index
    exact unlisted index List.not_mem_nil
  · rintro rfl
    exact ⟨rfl, rfl, rfl, rfl, nofun, fun _ _ => rfl⟩

/-- If an input is listed once, its script is written either now or at its turn. -/
theorem cons (fresh : index ∉ pairs.map Prod.fst) : AllUnlocked ((index, unlocker) :: pairs) tx tx' ↔
    ∃ script, unlocker.unlockingScript tx index = .ok script ∧
      AllUnlocked pairs (tx.withScript index script) tx' := by
  have elsewhere {other : Nat} {unlocker' : KeyHashUnlocker} (member : (other, unlocker') ∈ pairs) :
      other ≠ index := by
    rintro rfl
    exact fresh (List.mem_map_of_mem (f := Prod.fst) member)
  have signed (script : Bytes) := unlockingScript_congr (withoutScripts_withScript tx index script)
  constructor
  · intro all
    obtain ⟨script, made, here⟩ := all.listed index unlocker (.head _)
    refine ⟨script, made, all.version, all.outputs, all.lockTime, ?_, ?_, ?_⟩
    · exact all.length.trans (length_withScript tx index script).symm
    · intro other unlocker' member
      rw [signed, getElem?_withScript_of_ne (elsewhere member)]
      exact all.listed other unlocker' (.tail _ member)
    · intro other absent
      by_cases same : other = index
      · rw [same, here, getElem?_withScript_self]
      · rw [getElem?_withScript_of_ne same]
        apply all.unlisted
        simp [same, absent]
  · rintro ⟨script, made, all⟩
    refine ⟨all.version, all.outputs, all.lockTime, all.length.trans (length_withScript ..), ?_, ?_⟩
    · intro other unlocker' member
      cases member with
      | head =>
          refine ⟨script, made, ?_⟩
          rw [all.unlisted index fresh, getElem?_withScript_self]
      | tail _ member =>
          have later := all.listed other unlocker' member
          rw [signed, getElem?_withScript_of_ne (elsewhere member)] at later
          exact later
    · intro other absent
      rw [List.map_cons, List.mem_cons, not_or] at absent
      rw [all.unlisted other absent.2, getElem?_withScript_of_ne absent.1]

theorem perm (all : AllUnlocked pairs tx tx') (order : pairs'.Perm pairs) : AllUnlocked pairs' tx tx' := by
  refine ⟨all.version, all.outputs, all.lockTime, all.length, ?_, ?_⟩
  · intro index unlocker member
    exact all.listed index unlocker (order.mem_iff.1 member)
  · intro index absent
    apply all.unlisted
    rwa [← (order.map Prod.fst).mem_iff]

theorem withoutScripts_eq (all : AllUnlocked pairs tx tx') : tx'.withoutScripts = tx.withoutScripts := by
  have same : tx'.inputs.map unscripted = tx.inputs.map unscripted := by
    apply List.ext_getElem?
    intro index
    rw [List.getElem?_map, List.getElem?_map]
    by_cases listed : index ∈ pairs.map Prod.fst
    · obtain ⟨⟨index, unlocker⟩, member, rfl⟩ := List.mem_map.1 listed
      obtain ⟨script, -, here⟩ := all.listed index unlocker member
      rw [here, Option.map_map]
      rfl
    · rw [all.unlisted index listed]
  rw [withoutScripts, withoutScripts, same, all.version, all.outputs, all.lockTime]

/-- A listed input that is unlocked once more gets the script that it has. -/
theorem unlockInput_again (all : AllUnlocked pairs tx tx') (member : (index, unlocker) ∈ pairs) :
    (unlockInput index unlocker).run tx' = .ok () tx' := by
  obtain ⟨script, made, here⟩ := all.listed index unlocker member
  rw [← unlockingScript_congr all.withoutScripts_eq] at made
  refine run_unlockInput_eq_ok.2 ⟨script, made, ?_⟩
  have same : (tx'.withScript index script).inputs = tx'.inputs := by
    apply List.ext_getElem?
    intro other
    by_cases same : other = index
    · rw [same, getElem?_withScript_self, here, Option.map_map]
      rfl
    · rw [getElem?_withScript_of_ne same]
  exact congrArg (fun inputs => { tx' with inputs := inputs }) same.symm

end AllUnlocked

theorem run_unlockInputs_cons_eq_ok : (unlockInputs ((index, unlocker) :: pairs)).run tx = .ok () tx' ↔
    ∃ script, unlocker.unlockingScript tx index = .ok script ∧
      (unlockInputs pairs).run (tx.withScript index script) = .ok () tx' := by
  have steps : unlockInputs ((index, unlocker) :: pairs) =
      unlockInput index unlocker >>= fun _ => unlockInputs pairs := List.forM_cons
  rw [steps, EStateM.run_bind, run_unlockInput]
  cases unlocker.unlockingScript tx index with
  | error e => simp
  | ok script => simp

/-- The run succeeds with what the list describes, each input being listed once. -/
theorem run_unlockInputs_eq_ok (distinct : (pairs.map Prod.fst).Nodup) :
    (unlockInputs pairs).run tx = .ok () tx' ↔ AllUnlocked pairs tx tx' := by
  induction pairs generalizing tx with
  | nil =>
      rw [AllUnlocked.nil]
      constructor
      · rintro ⟨⟩
        rfl
      · rintro rfl
        rfl
  | cons pair pairs ih =>
      obtain ⟨index, unlocker⟩ := pair
      obtain ⟨fresh, distinct⟩ := List.nodup_cons.1 distinct
      rw [run_unlockInputs_cons_eq_ok, AllUnlocked.cons fresh]
      simp only [ih distinct]

/-- The run succeeds if each input could be unlocked by itself. -/
theorem exists_run_unlockInputs
    (each : ∀ index unlocker, (index, unlocker) ∈ pairs → ∃ script, unlocker.unlockingScript tx index = .ok script) :
    ∃ tx', (unlockInputs pairs).run tx = .ok () tx' := by
  induction pairs generalizing tx with
  | nil => exact ⟨tx, rfl⟩
  | cons pair pairs ih =>
      obtain ⟨index, unlocker⟩ := pair
      obtain ⟨script, made⟩ := each index unlocker (.head _)
      have rest : ∃ tx', (unlockInputs pairs).run (tx.withScript index script) = .ok () tx' := by
        apply ih
        intro other unlocker' member
        rw [unlockingScript_congr (withoutScripts_withScript tx index script)]
        exact each other unlocker' (.tail _ member)
      obtain ⟨tx', done⟩ := rest
      exact ⟨tx', run_unlockInputs_cons_eq_ok.2 ⟨script, made, done⟩⟩

/-- If inputs, each listed once, can be unlocked in one order, they can be in every order and with the same
    outcome. Each has the script that unlocks it in the transaction at the start, whatever scripts stand there by
    then, and gets no other one when it is unlocked again. Nothing else changes. -/
theorem unlockInputs_any_order (distinct : (pairs.map Prod.fst).Nodup)
    (h : (unlockInputs pairs).run tx = .ok () tx') :
    (∀ pairs', pairs'.Perm pairs → (unlockInputs pairs').run tx = .ok () tx') ∧
    (∀ index unlocker, (index, unlocker) ∈ pairs → ∃ input script,
      unlocker.unlockingScript tx index = .ok script ∧
      tx.inputs[index]? = some input ∧ tx'.inputs[index]? = some { input with script := script } ∧
      (unlockInput index unlocker).run tx' = .ok () tx') ∧
    (∀ (other : Transaction) (index : Nat) (unlocker : KeyHashUnlocker),
      other.withoutScripts = tx.withoutScripts →
      unlocker.unlockingScript other index = unlocker.unlockingScript tx index) ∧
    (∀ index, index ∉ pairs.map Prod.fst → tx'.inputs[index]? = tx.inputs[index]?) ∧
    tx'.inputs.length = tx.inputs.length ∧ tx'.version = tx.version ∧ tx'.outputs = tx.outputs ∧
    tx'.lockTime = tx.lockTime := by
  have all := (run_unlockInputs_eq_ok distinct).1 h
  refine ⟨?_, ?_, ?_, all.unlisted, all.length, all.version, all.outputs, all.lockTime⟩
  · intro pairs' order
    have distinct' : (pairs'.map Prod.fst).Nodup := (order.map Prod.fst).nodup_iff.2 distinct
    exact (run_unlockInputs_eq_ok distinct').2 (all.perm order)
  · intro index unlocker member
    obtain ⟨script, made, here⟩ := all.listed index unlocker member
    have input := List.getElem?_eq_getElem (inside_of_unlockingScript made)
    rw [input] at here
    exact ⟨_, script, made, input, here, all.unlockInput_again member⟩
  · intro other index unlocker same
    exact unlockingScript_congr same unlocker index

/-- Inputs that are to be signed with single outputs, alone or not, of a transaction without outputs. -/
def unpaidPairs : List (Nat × KeyHashUnlocker) :=
  [(0, ⟨KeyPair.unitKey.withCompressed true, HashType.single⟩), (1, ⟨KeyPair.unitKey.withCompressed false, 0x83⟩)]

theorem exists_unlockingScript_unpaid (index : Nat) (unlocker : KeyHashUnlocker)
    (member : (index, unlocker) ∈ unpaidPairs) :
    ∃ script, unlocker.unlockingScript (unpaid 2) index = .ok script := by
  simp only [unpaidPairs, List.mem_cons, Prod.mk.injEq, List.not_mem_nil, or_false] at member
  rcases member with ⟨rfl, rfl⟩ | ⟨rfl, rfl⟩
  · exact exists_unlockingScript_lacking true (by decide) (not_hasSignedOutput_unpaid rfl)
  · exact exists_unlockingScript_lacking false (by decide) (not_hasSignedOutput_unpaid rfl)

/-- Both orders leave the same transaction behind. -/
theorem unlockInputs_any_order_unpaid : (unpaidPairs.map Prod.fst).Nodup ∧ ∃ tx',
    (unlockInputs unpaidPairs).run (unpaid 2) = .ok () tx' ∧
      (unlockInputs unpaidPairs.reverse).run (unpaid 2) = .ok () tx' := by
  have distinct : (unpaidPairs.map Prod.fst).Nodup := by decide
  obtain ⟨tx', done⟩ := exists_run_unlockInputs exists_unlockingScript_unpaid
  exact ⟨distinct, tx', done, (unlockInputs_any_order distinct done).1 _ (List.reverse_perm _)⟩

end Bitcoin.Transaction
