import Bitcoin.Proofs.Transaction.Codec
import Bitcoin.Proofs.Transaction.Progress

/-! # Where a transaction ends

The octets of a transaction say where it ends, so none are read that continue it or break off before its end. And
reading any octets comes to an end: with a transaction and exactly its octets taken, or within the field where the
octets ended, and in either case with no more pushed than the octets allow.
-/

namespace Bitcoin

/-- Octets ended within a field. -/
def TransactionError.CutShort (e : TransactionError) : Prop :=
  ∃ field, e = .serialization (.reading field .unexpectedEnd)

open TransactionError (CutShort)

namespace Reader

theorem FailsWith.field {α : Type} {reader : Reader Error α} {broken : Bytes → Bytes → Prop}
    (field : TransactionField) (breaks : Breaks reader broken) : FailsWith (reader.field field) CutShort := by
  refine breaks.failsWith.onError ?_
  rintro _ rfl
  exact ⟨field, rfl⟩

theorem failsWith_input : FailsWith TxInput.read CutShort := by
  refine .bind (.field .previousTxid (.octets 32)) fun _ => ?_
  refine .bind (.field .previousIndex .u32) fun _ => ?_
  refine .bind (.field .inputScript .varBytes) fun _ => ?_
  exact .map _ (.field .sequence .u32)

theorem failsWith_output : FailsWith TxOutput.read CutShort :=
  .bind (.field .outputValue .i64) fun _ => .map _ (.field .outputScript .varBytes)

theorem failsWith_transaction : FailsWith Transaction.read CutShort := by
  refine .bind (.field .version .u32) fun _ => ?_
  refine .bind (.field .inputCount VarInt.breaks_read) fun count => ?_
  refine .bind (failsWith_input.many count.toNat) fun _ => ?_
  refine .bind (.field .outputCount VarInt.breaks_read) fun count => ?_
  refine .bind (failsWith_output.many count.toNat) fun _ => ?_
  exact .map _ (.field .lockTime .u32)

end Reader

namespace Transaction

open Wire Stepwise

variable {tx : Transaction} {octets front more : Bytes}

/-! ## No other octets -/

theorem reads_of_decode (h : decode octets = .ok tx) : Reader.Reads read octets tx := by
  obtain ⟨forms, spelled⟩ := decode_eq_ok.1 h
  exact Reader.exact_transaction.reads spelled

theorem decode_append (h : decode octets = .ok tx) (behind : more ≠ []) :
    decode (octets ++ more) = .error (.serialization (.trailing more.length)) := by
  have run : read.run (octets ++ more) = .ok tx more := reads_of_decode h more
  unfold decode
  rw [run]
  cases more with
  | nil => exact absurd rfl behind
  | cons octet more => rfl

/-- What is read of the front is read of the whole as well, with the octets behind it left over. -/
theorem decode_front (h : decode (front ++ more) = .ok tx) (behind : more ≠ []) :
    ∃ e, decode front = .error e ∧ CutShort e := by
  cases run : read.run front with
  | ok early rest =>
      obtain ⟨octets, ⟨forms, spelled⟩, cut⟩ := Reader.exact_transaction.takes run
      have whole : front ++ more ++ [] = octets ++ (rest ++ more) := by
        rw [List.append_nil, cut, List.append_assoc]
      obtain ⟨-, none⟩ := (reads_of_decode h).unique (Reader.exact_transaction.reads spelled) whole
      exact absurd (List.append_eq_nil_iff.1 none.symm).2 behind
  | error e rest =>
      refine ⟨e, ?_, Reader.failsWith_transaction run⟩
      unfold decode
      rw [run]

/-! ## The end of reading -/

variable {origin : Cursor} {outcome : Except TransactionError Transaction} {reached : Progress}

/-- How reading at a cursor ends: inside the octets and not before where it began, with no more inputs and outputs
    pushed than 41 and nine octets for each allow. A transaction was read from its own octets, and what was pushed are
    its inputs and outputs; else the octets ended within a field. -/
structure Ended (origin : Cursor) (outcome : Except TransactionError Transaction) (reached : Progress) : Prop
    extends Paid origin 1 reached where
  inputs : reached.inputs.length ≤ origin.unread.length / 41
  outputs : reached.outputs.length ≤ origin.unread.length / 9
  ok : ∀ tx, outcome = .ok tx → read origin.unread = .ok tx reached.cursor.unread ∧
    tx.inputs = reached.inputs ∧ tx.outputs = reached.outputs ∧ ∃ forms octets, Spelled tx.pieces forms octets ∧
      origin.unread = octets ++ reached.cursor.unread ∧ reached.cursor.position = origin.position + octets.length
  error : ∀ e, outcome = .error e → read origin.unread = .error e reached.cursor.unread ∧ CutShort e

/-- What is paid for stays within what there was to pay with. -/
theorem Ended.of_paid (inside : origin.Inside) (paid : Paid origin 1 reached)
    (ok : ∀ tx, outcome = .ok tx → read origin.unread = .ok tx reached.cursor.unread ∧
      tx.inputs = reached.inputs ∧ tx.outputs = reached.outputs)
    (error : ∀ e, outcome = .error e → read origin.unread = .error e reached.cursor.unread) :
    Ended origin outcome reached := by
  have whole := inside.length_unread
  have whole' := paid.inside.length_unread
  have cost := paid.cost
  rw [paid.data] at whole'
  refine ⟨paid, by omega, by omega, ?_, ?_⟩
  · intro tx same
    obtain ⟨run, inputs, outputs⟩ := ok tx same
    obtain ⟨octets, ⟨forms, spelled⟩, cut⟩ := Reader.exact_transaction.takes run
    refine ⟨run, inputs, outputs, forms, octets, spelled, cut, ?_⟩
    have lengths := congrArg List.length cut
    rw [List.length_append] at lengths
    omega
  · intro e same
    exact ⟨error e same, Reader.failsWith_transaction (error e same)⟩

theorem exists_scan (inside : origin.Inside) :
    ∃ outcome reached, scan (.start origin) = some (outcome, reached) ∧ Ended origin outcome reached := by
  have mirrors := mirrors_scan inside
  cases run : read origin.unread with
  | ok tx rest =>
      obtain ⟨_, reached, scanned, rfl, rfl, pushed⟩ := mirrors.ok run
      refine ⟨_, reached, scanned, .of_paid inside pushed.paid.spare ?_ ?_⟩
      · rintro _ ⟨⟩
        exact ⟨run, pushed.inputs.symm, pushed.outputs.symm⟩
      · intro e same
        cases same
  | error e rest =>
      obtain ⟨reached, scanned, rfl, paid⟩ := mirrors.error run
      refine ⟨_, reached, scanned, .of_paid inside paid ?_ ?_⟩
      · intro tx same
        cases same
      · rintro _ ⟨⟩
        exact run

/-- Reading at the beginning and then looking for what is left is to decode. -/
theorem exists_scanWhole {indices : Nat} (fits : octets.length < indices) :
    ∃ reached, scanWhole (.start ⟨octets, 0, indices⟩) = some (decode octets, reached) := by
  have inside : Cursor.Inside ⟨octets, 0, indices⟩ := ⟨fits, Nat.zero_le _⟩
  obtain ⟨outcome, reached, scanned, ended⟩ := exists_scan inside
  refine ⟨reached, ?_⟩
  unfold decode
  cases outcome with
  | error e =>
      obtain ⟨failed, -⟩ := ended.error e rfl
      have run : read.run octets = .error e reached.cursor.unread := failed
      rw [run]
      exact bind_error scanned
  | ok tx =>
      obtain ⟨taken, -⟩ := ended.ok tx rfl
      have run : read.run octets = .ok tx reached.cursor.unread := taken
      have left : (Progress.atCursor Cursor.remaining : Stepwise Progress TransactionError Nat) reached =
          some (.ok reached.cursor.unread.length, reached) := by
        rw [Progress.atCursor, Cursor.remaining_eq ended.inside]
        rfl
      rw [run]
      refine (bind_ok scanned).trans ((bind_ok left).trans ?_)
      cases reached.cursor.unread <;> rfl

/-- The octets of a transaction neither continue those of another one nor break off before their end: with more
    octets behind they are refused for these, and without their last ones for the field that is cut. And wherever
    reading begins, no slice, sum or difference of positions is out of range, and no number in the octets makes it
    try or push more than the octets allow. -/
theorem decode_delimited_scan_bounded :
    (∀ octets tx, decode octets = .ok tx →
      (∀ more, more ≠ [] → decode (octets ++ more) = .error (.serialization (.trailing more.length))) ∧
      ∀ front more, octets = front ++ more → more ≠ [] → ∃ e, decode front = .error e ∧ CutShort e) ∧
    (∀ origin : Cursor, origin.Inside →
      ∃ outcome reached, scan (.start origin) = some (outcome, reached) ∧ Ended origin outcome reached) ∧
    ∀ (octets : Bytes) (indices : Nat), octets.length < indices →
      ∃ reached, scanWhole (.start ⟨octets, 0, indices⟩) = some (decode octets, reached) := by
  refine ⟨fun octets tx h => ⟨fun more => decode_append h, ?_⟩, fun origin => exists_scan, ?_⟩
  · rintro front more rfl behind
    exact decode_front h behind
  · intro octets indices fits
    exact exists_scanWhole fits

/-- A version, and that as many inputs follow as a count can say. -/
def endless : Bytes :=
  Wire.u32 1 ++ 0xff :: Wire.u64 0xffffffffffffffff

/-- A transaction with one octet more and with too few, and a count of inputs that are not there. -/
theorem decode_delimited_scan_bounded_endless :
    decode minting.encode = .ok minting ∧
      decode (minting.encode ++ [0]) = .error (.serialization (.trailing 1)) ∧
      (∃ e, decode (minting.encode.take 40) = .error e ∧ CutShort e) ∧
      (∃ reached, scanWhole (.start ⟨endless, 0, UInt64.size⟩) = some (decode endless, reached)) ∧
      ∃ e reached, scan (.start ⟨endless, 0, UInt64.size⟩) = some (.error e, reached) ∧ CutShort e ∧
        reached.inputs = [] ∧ reached.rounds ≤ 2 := by
  have minted : decode minting.encode = .ok minting := rfl
  have refused : read endless = .error (.serialization (.reading .previousTxid .unexpectedEnd)) [] := rfl
  have fits : endless.length < UInt64.size := by decide
  obtain ⟨delimited, bounded, whole⟩ := decode_delimited_scan_bounded
  obtain ⟨behind, front⟩ := delimited _ _ minted
  refine ⟨minted, behind [0] (by decide), front _ _ (List.take_append_drop 40 _).symm (by decide),
    whole endless _ fits, ?_⟩
  obtain ⟨outcome, reached, scanned, ended⟩ := bounded ⟨endless, 0, UInt64.size⟩ ⟨fits, Nat.zero_le _⟩
  cases outcome with
  | ok tx => cases refused.symm.trans (ended.ok tx rfl).1
  | error e =>
      -- Thirteen octets are not enough for an input, and for no more than one output.
      have inputs : reached.inputs.length ≤ 0 := ended.inputs
      have outputs : reached.outputs.length ≤ 1 := ended.outputs
      have rounds := ended.rounds
      exact ⟨e, reached, scanned, (ended.error e rfl).2, List.length_eq_zero_iff.1 (Nat.le_zero.1 inputs), by omega⟩

end Transaction

end Bitcoin
