import Bitcoin.Proofs.Transaction.Reads
import Bitcoin.Proofs.Wire.Cursor

/-! # Reading a transaction at a cursor

Inputs and outputs are read in loops that go on for as long as a count says, and that may be more than all octets in
memory. But every round of a loop pushes an item, for which the cursor has moved on by the least octets of such an
item, or is the last round. So the octets bound what is pushed, whatever the counts and also where reading fails.
And what reading at a cursor comes to is what reading the unread octets comes to.
-/

namespace Bitcoin

/-- A transaction that is being read: how far, what inputs and outputs were pushed so far, and how many rounds of
    the two loops have begun. -/
structure Progress where
  cursor : Cursor
  inputs : List TxInput
  outputs : List TxOutput
  rounds : Nat

namespace Progress

variable {ε α : Type}

def start (cursor : Cursor) : Progress :=
  { cursor := cursor, inputs := [], outputs := [], rounds := 0 }

def pushInput (input : TxInput) (progress : Progress) : Progress :=
  { progress with inputs := progress.inputs ++ [input] }

def pushOutput (output : TxOutput) (progress : Progress) : Progress :=
  { progress with outputs := progress.outputs ++ [output] }

def beginRound (progress : Progress) : Progress :=
  { progress with rounds := progress.rounds + 1 }

/-- Moved on to where some last octets begin. -/
def upTo (progress : Progress) (rest : Bytes) : Progress :=
  { progress with cursor := progress.cursor.upTo rest }

/-- Steps of the cursor alone. -/
def atCursor (steps : Stepwise Cursor ε α) : Stepwise Progress ε α := fun progress =>
  (steps progress.cursor).map fun (outcome, cursor) => (outcome, { progress with cursor := cursor })

/-- One round of a loop: read an item and push it. -/
def round (item : Stepwise Cursor ε α) (push : α → Progress → Progress) : Stepwise Progress ε Unit := do
  modify beginRound
  let value ← atCursor item
  modify (push value)

def repeatRound (item : Stepwise Cursor ε α) (push : α → Progress → Progress) : Nat → Stepwise Progress ε Unit
  | 0 => pure ()
  | count + 1 => do
      round item push
      repeatRound item push count

theorem atCursor_eq {steps : Stepwise Cursor ε α} {progress : Progress} {outcome : Except ε α} {rest : Bytes}
    (h : steps progress.cursor = some (outcome, progress.cursor.upTo rest)) :
    atCursor steps progress = some (outcome, progress.upTo rest) := by
  rw [atCursor, h]
  rfl

end Progress

open Progress (atCursor repeatRound)

def Cursor.field {α : Type} (field : TransactionField) (steps : Stepwise Cursor Error α) :
    Stepwise Cursor TransactionError α :=
  steps.onError fun cause => .serialization (.reading field cause)

def TxInput.scan : Stepwise Cursor TransactionError TxInput := do
  let previousTxid ← Cursor.field .previousTxid (Cursor.octets 32)
  let previousIndex ← Cursor.field .previousIndex Cursor.u32
  let script ← Cursor.field .inputScript Cursor.varBytes
  let sequence ← Cursor.field .sequence Cursor.u32
  return { previousTxid, previousIndex, script, sequence }

def TxOutput.scan : Stepwise Cursor TransactionError TxOutput := do
  let value ← Cursor.field .outputValue Cursor.i64
  let script ← Cursor.field .outputScript Cursor.varBytes
  return { value, script }

/-- Read a transaction at a cursor, one input or output in every round. -/
def Transaction.scan : Stepwise Progress TransactionError Transaction := do
  let version ← atCursor (Cursor.field .version Cursor.u32)
  let inputCount ← atCursor (Cursor.field .inputCount Cursor.varInt)
  repeatRound TxInput.scan Progress.pushInput inputCount.toNat
  let outputCount ← atCursor (Cursor.field .outputCount Cursor.varInt)
  repeatRound TxOutput.scan Progress.pushOutput outputCount.toNat
  let lockTime ← atCursor (Cursor.field .lockTime Cursor.u32)
  let progress ← get
  return { version, inputs := progress.inputs, outputs := progress.outputs, lockTime }

/-- Read octets from their beginning as one transaction, with nothing behind it. -/
def Transaction.scanWhole : Stepwise Progress TransactionError Transaction := do
  let tx ← scan
  let left ← atCursor Cursor.remaining
  if left ≠ 0 then throw (.serialization (.trailing left)) else return tx

/-! ## Steps and readers -/

/-- From some progress the steps come to what the reader comes to: then `Q` holds of the two values and of what is
    reached, or `E` of where both fail. -/
structure Mirrors {ε α β : Type} (steps : Stepwise Progress ε α) (reader : Reader ε β) (progress : Progress)
    (Q : α → β → Progress → Prop) (E : Progress → Prop) : Prop where
  ok : ∀ {b rest}, reader progress.cursor.unread = .ok b rest →
    ∃ a reached, steps progress = some (.ok a, reached) ∧ reached.cursor.unread = rest ∧ Q a b reached
  error : ∀ {e rest}, reader progress.cursor.unread = .error e rest →
    ∃ reached, steps progress = some (.error e, reached) ∧ reached.cursor.unread = rest ∧ E reached

namespace Mirrors

open Stepwise

variable {ε α β γ δ : Type} {steps : Stepwise Progress ε α} {reader : Reader ε β} {next : α → Stepwise Progress ε γ}
  {nextReader : β → Reader ε δ} {progress : Progress} {Q : α → β → Progress → Prop} {E : Progress → Prop}

theorem pure {a : α} {b : β} (h : steps progress = some (.ok a, progress)) (holds : Q a b progress) :
    Mirrors steps (Pure.pure b) progress Q E := by
  constructor
  · intro b' rest read
    obtain ⟨rfl, rfl⟩ := Reader.pure_eq_ok.1 read
    exact ⟨a, progress, h, rfl, holds⟩
  · intro e rest read
    cases read

theorem bind {Q' : γ → δ → Progress → Prop} (first : Mirrors steps reader progress Q E)
    (second : ∀ {a b reached}, Q a b reached → Mirrors (next a) (nextReader b) reached Q' E) :
    Mirrors (steps >>= next) (reader >>= nextReader) progress Q' E := by
  constructor
  · intro d rest h
    obtain ⟨b, between, read, h⟩ := Reader.bind_eq_ok.1 h
    obtain ⟨a, reached, stepped, rfl, holds⟩ := first.ok read
    rw [bind_ok stepped]
    exact (second holds).ok h
  · intro e rest h
    rcases Reader.bind_eq_error.1 h with read | ⟨b, between, read, h⟩
    · obtain ⟨reached, stepped, unread, holds⟩ := first.error read
      exact ⟨reached, bind_error stepped, unread, holds⟩
    · obtain ⟨a, reached, stepped, rfl, holds⟩ := first.ok read
      rw [bind_ok stepped]
      exact (second holds).error h

theorem map (f : β → δ) {Q' : α → δ → Progress → Prop}
    (mirrors : Mirrors steps reader progress (fun a b reached => Q' a (f b) reached) E) :
    Mirrors steps (do return f (← reader)) progress Q' E := by
  constructor
  · intro d rest h
    obtain ⟨b, between, read, h⟩ := Reader.bind_eq_ok.1 h
    obtain ⟨rfl, rfl⟩ := Reader.pure_eq_ok.1 h
    exact mirrors.ok read
  · intro e rest h
    rcases Reader.bind_eq_error.1 h with read | ⟨b, between, -, h⟩
    · exact mirrors.error read
    · cases h

variable {item : Stepwise Cursor ε α} {itemReader : Reader ε α} {push : α → Progress → Progress}

theorem atCursor {Q : α → α → Progress → Prop} (follows : Cursor.Follows item itemReader)
    (inside : progress.cursor.Inside)
    (ok : ∀ {a rest}, rest <:+ progress.cursor.unread → Q a a (progress.upTo rest))
    (error : ∀ {rest}, rest <:+ progress.cursor.unread → E (progress.upTo rest)) :
    Mirrors (Progress.atCursor item) itemReader progress Q E := by
  constructor
  · intro a rest h
    obtain ⟨behind, stepped⟩ := follows.ok inside h
    exact ⟨a, _, Progress.atCursor_eq stepped, Cursor.unread_upTo behind, ok behind⟩
  · intro e rest h
    obtain ⟨behind, stepped⟩ := follows.error inside h
    exact ⟨_, Progress.atCursor_eq stepped, Cursor.unread_upTo behind, error behind⟩

theorem round {Q : Unit → α → Progress → Prop} (follows : Cursor.Follows item itemReader)
    (inside : progress.cursor.Inside) (keeps : ∀ a progress, (push a progress).cursor = progress.cursor)
    (ok : ∀ {a rest}, itemReader progress.cursor.unread = .ok a rest → rest <:+ progress.cursor.unread →
      Q () a (push a (progress.beginRound.upTo rest)))
    (error : ∀ {rest}, rest <:+ progress.cursor.unread → E (progress.beginRound.upTo rest)) :
    Mirrors (Progress.round item push) itemReader progress Q E := by
  have begun : Progress.round item push progress =
      (Progress.atCursor item >>= fun value => modify (push value)) progress.beginRound := rfl
  constructor
  · intro a rest h
    obtain ⟨behind, stepped⟩ := follows.ok inside h
    have moved : Progress.atCursor item progress.beginRound = _ := Progress.atCursor_eq stepped
    refine ⟨(), push a (progress.beginRound.upTo rest), begun.trans (bind_ok moved), ?_, ok h behind⟩
    rw [keeps]
    exact Cursor.unread_upTo behind
  · intro e rest h
    obtain ⟨behind, stepped⟩ := follows.error inside h
    have moved : Progress.atCursor item progress.beginRound = _ := Progress.atCursor_eq stepped
    exact ⟨_, begun.trans (bind_error moved), Cursor.unread_upTo behind, error behind⟩

/-- What every round keeps holds of all that the rounds push. -/
theorem repeatRound {I : List α → Progress → Prop}
    (step : ∀ {done progress}, I done progress → Mirrors (Progress.round item push) itemReader progress
      (fun _ a reached => I (done ++ [a]) reached) E) (count : Nat) :
    ∀ {done progress}, I done progress → Mirrors (Progress.repeatRound item push count)
      (Reader.many itemReader count) progress (fun _ values reached => I (done ++ values) reached) E := by
  induction count with
  | zero =>
      intro done progress holds
      rw [← List.append_nil done] at holds
      exact pure rfl holds
  | succ count ih =>
      intro done progress holds
      refine bind (step holds) fun {_ head reached} holds' => ?_
      refine map (head :: ·) ?_
      have rest := ih holds'
      simp only [List.append_assoc, List.singleton_append] at rest
      exact rest

end Mirrors

/-! ## What is pushed is paid for -/

/-- Since its origin the cursor has moved on by 41 octets for each input and nine for each output, and of the rounds
    that began all but as many as failed have pushed something. -/
structure Paid (origin : Cursor) (failed : Nat) (progress : Progress) : Prop where
  inside : progress.cursor.Inside
  data : progress.cursor.data = origin.data
  cost : origin.position + 41 * progress.inputs.length + 9 * progress.outputs.length ≤ progress.cursor.position
  rounds : progress.rounds ≤ progress.inputs.length + progress.outputs.length + failed

namespace Paid

variable {origin : Cursor} {progress reached : Progress} {failed price : Nat} {rest : Bytes}

theorem start (inside : origin.Inside) : Paid origin 0 (.start origin) :=
  ⟨inside, rfl, Nat.le_refl _, Nat.le_refl _⟩

theorem upTo (paid : Paid origin failed progress) (behind : rest <:+ progress.cursor.unread) :
    Paid origin failed (progress.upTo rest) := by
  have moved := Cursor.position_upTo paid.inside behind
  have shorter := behind.length_le
  have cost := paid.cost
  refine ⟨paid.inside.upTo rest, paid.data, ?_, paid.rounds⟩
  simp only [Progress.upTo]
  omega

theorem beginRound (paid : Paid origin failed progress) : Paid origin (failed + 1) progress.beginRound :=
  ⟨paid.inside, paid.data, paid.cost, Nat.succ_le_succ paid.rounds⟩

/-- Outside the loops no round has failed. -/
theorem spare (paid : Paid origin failed progress) : Paid origin (failed + 1) progress :=
  ⟨paid.inside, paid.data, paid.cost, Nat.le_succ_of_le paid.rounds⟩

/-- A round that pushes one item pays its price. -/
theorem round (paid : Paid origin 0 progress) (behind : rest <:+ progress.cursor.unread)
    (spent : price + rest.length ≤ progress.cursor.unread.length)
    (cursor : reached.cursor = progress.cursor.upTo rest) (began : reached.rounds = progress.rounds + 1)
    (one : reached.inputs.length + reached.outputs.length = progress.inputs.length + progress.outputs.length + 1)
    (cost : 41 * reached.inputs.length + 9 * reached.outputs.length =
      41 * progress.inputs.length + 9 * progress.outputs.length + price) : Paid origin 0 reached := by
  have moved := Cursor.position_upTo paid.inside behind
  have before := paid.cost
  have rounds := paid.rounds
  rw [← cursor] at moved
  refine ⟨?_, ?_, by omega, by omega⟩
  · rw [cursor]
    exact paid.inside.upTo rest
  · rw [cursor]
    exact paid.data

end Paid

/-! ## The least octets of an item -/

theorem Wire.one_le_length_count (n : Nat) : 1 ≤ (count n).length := by
  rw [count, VarInt.length_encode]
  exact VarInt.one_le_length _

theorem TxInput.le_length_spell (input : TxInput) : 41 ≤ (Wire.spell input.pieces).length := by
  have count := Wire.one_le_length_count input.script.length
  simp only [pieces, Wire.spell_plain, Wire.spell_number, Wire.spell_nil, List.length_append, Octets.length_toList,
    Wire.length_u32, List.length_nil]
  omega

theorem TxOutput.le_length_spell (output : TxOutput) : 9 ≤ (Wire.spell output.pieces).length := by
  have count := Wire.one_le_length_count output.script.length
  simp only [pieces, Wire.spell_plain, Wire.spell_number, Wire.spell_nil, List.length_append, Wire.length_i64,
    List.length_nil]
  omega

/-- Reading takes no fewer octets than the shortest ones of what is read. -/
theorem Reader.Exact.length_add_le {ε α : Type} {reader : Reader ε α} {pieces : α → List Wire.Piece} {value : α}
    {unread rest : Bytes} (exact : Exact reader pieces) (h : reader unread = .ok value rest) :
    (Wire.spell (pieces value)).length + rest.length ≤ unread.length := by
  obtain ⟨octets, ⟨forms, spelled⟩, rfl⟩ := exact.takes h
  rw [List.length_append]
  exact Nat.add_le_add_right spelled.length_spell_le rest.length

/-! ## A whole transaction -/

namespace Cursor.Follows

theorem field {α : Type} {steps : Stepwise Cursor Error α} {reader : Reader Error α} (field : TransactionField)
    (follows : Follows steps reader) : Follows (Cursor.field field steps) (reader.field field) :=
  follows.onError _

theorem input : Follows TxInput.scan TxInput.read := by
  refine bind (field .previousTxid (octets 32)) fun _ => ?_
  refine bind (field .previousIndex u32) fun _ => ?_
  refine bind (field .inputScript varBytes) fun _ => ?_
  exact map _ (field .sequence u32)

theorem output : Follows TxOutput.scan TxOutput.read :=
  bind (field .outputValue i64) fun _ => map _ (field .outputScript varBytes)

end Cursor.Follows

/-- These inputs and outputs were pushed, and are paid for. -/
structure Pushed (origin : Cursor) (inputs : List TxInput) (outputs : List TxOutput) (progress : Progress) : Prop where
  paid : Paid origin 0 progress
  inputs : progress.inputs = inputs
  outputs : progress.outputs = outputs

namespace Pushed

variable {ε α : Type} {origin : Cursor} {inputs : List TxInput} {outputs : List TxOutput} {progress : Progress}

theorem atCursor {steps : Stepwise Cursor ε α} {reader : Reader ε α} (pushed : Pushed origin inputs outputs progress)
    (follows : Cursor.Follows steps reader) : Mirrors (Progress.atCursor steps) reader progress
      (fun a b reached => a = b ∧ Pushed origin inputs outputs reached) (Paid origin 1) :=
  .atCursor follows pushed.paid.inside
    (fun behind => ⟨rfl, pushed.paid.upTo behind, pushed.inputs, pushed.outputs⟩)
    fun behind => (pushed.paid.upTo behind).spare

theorem inputRound (pushed : Pushed origin inputs outputs progress) :
    Mirrors (Progress.round TxInput.scan Progress.pushInput) TxInput.read progress
      (fun _ input reached => Pushed origin (inputs ++ [input]) outputs reached) (Paid origin 1) := by
  refine .round .input pushed.paid.inside (fun _ _ => rfl) ?_ fun behind => pushed.paid.beginRound.upTo behind
  intro input rest h behind
  have spent : 41 + rest.length ≤ progress.cursor.unread.length :=
    (Nat.add_le_add_right input.le_length_spell _).trans (Reader.exact_input.length_add_le h)
  refine ⟨pushed.paid.round behind spent rfl rfl ?_ ?_, congrArg (· ++ [input]) pushed.inputs, pushed.outputs⟩
  all_goals
    simp only [Progress.pushInput, Progress.upTo, Progress.beginRound, List.length_append, List.length_singleton]
    omega

theorem outputRound (pushed : Pushed origin inputs outputs progress) :
    Mirrors (Progress.round TxOutput.scan Progress.pushOutput) TxOutput.read progress
      (fun _ output reached => Pushed origin inputs (outputs ++ [output]) reached) (Paid origin 1) := by
  refine .round .output pushed.paid.inside (fun _ _ => rfl) ?_ fun behind => pushed.paid.beginRound.upTo behind
  intro output rest h behind
  have spent : 9 + rest.length ≤ progress.cursor.unread.length :=
    (Nat.add_le_add_right output.le_length_spell _).trans (Reader.exact_output.length_add_le h)
  refine ⟨pushed.paid.round behind spent rfl rfl ?_ ?_, pushed.inputs, congrArg (· ++ [output]) pushed.outputs⟩
  all_goals
    simp only [Progress.pushOutput, Progress.upTo, Progress.beginRound, List.length_append, List.length_singleton]
    omega

end Pushed

/-- Reading at a cursor is reading what is unread there, and all that is pushed on the way is paid for. -/
theorem Transaction.mirrors_scan {origin : Cursor} (inside : origin.Inside) : Mirrors scan read (.start origin)
    (fun tx tx' reached => tx = tx' ∧ Pushed origin tx.inputs tx.outputs reached) (Paid origin 1) := by
  have started : Pushed origin [] [] (.start origin) := ⟨.start inside, rfl, rfl⟩
  refine .bind (started.atCursor (.field .version .u32)) ?_
  rintro version _ progress ⟨rfl, pushed⟩
  refine .bind (pushed.atCursor (.field .inputCount .varInt)) ?_
  rintro inputCount _ progress ⟨rfl, pushed⟩
  refine .bind (.repeatRound (I := (Pushed origin · [])) Pushed.inputRound inputCount.toNat pushed) ?_
  rintro ⟨⟩ inputs progress pushed
  refine .bind (pushed.atCursor (.field .outputCount .varInt)) ?_
  rintro outputCount _ progress ⟨rfl, pushed⟩
  refine .bind (.repeatRound (I := Pushed origin inputs) Pushed.outputRound outputCount.toNat pushed) ?_
  rintro ⟨⟩ outputs progress pushed
  refine .bind (pushed.atCursor (.field .lockTime .u32)) ?_
  rintro lockTime _ progress ⟨rfl, pushed⟩
  have assembled : (⟨version, progress.inputs, progress.outputs, lockTime⟩ : Transaction) =
      ⟨version, inputs, outputs, lockTime⟩ := by
    rw [pushed.inputs, pushed.outputs]
    rfl
  exact .pure rfl ⟨assembled, pushed.paid, rfl, rfl⟩

end Bitcoin
