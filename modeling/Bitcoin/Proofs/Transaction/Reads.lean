import Bitcoin.Proofs.Wire.Pieces
import Bitcoin.Transaction.Basic

/-! # Reading transactions back

An input, an output and a transaction are read from their pieces, with the counts and the script lengths in
whatever forms, and from nothing else. What is written has the shortest forms, so it is read back as long as
every count and length is one that its 64 bits on the wire can hold.
-/

namespace Bitcoin

open Reader Wire

/-! ## Pieces -/

/-- An input: the output it refers to, the length of its script, and the script before the sequence number. -/
def TxInput.pieces (input : TxInput) : List Piece :=
  [.plain (input.previousTxid.toList ++ Wire.u32 input.previousIndex), .number input.script.length,
    .plain (input.script ++ Wire.u32 input.sequence)]

/-- An output: its value, the length of its script, and the script. -/
def TxOutput.pieces (output : TxOutput) : List Piece :=
  [.plain (Wire.i64 output.value), .number output.script.length, .plain output.script]

/-- A transaction: version, inputs after their count, outputs after their count, and lock time. -/
def Transaction.pieces (tx : Transaction) : List Piece :=
  .plain (Wire.u32 tx.version) :: .number tx.inputs.length :: (tx.inputs.flatMap TxInput.pieces ++
    .number tx.outputs.length :: (tx.outputs.flatMap TxOutput.pieces ++ [.plain (Wire.u32 tx.lockTime)]))

theorem TxInput.encode_eq_spell (input : TxInput) : input.encode = spell input.pieces := by
  simp [encode, pieces, Wire.varBytes]

theorem TxOutput.encode_eq_spell (output : TxOutput) : output.encode = spell output.pieces := by
  simp [encode, pieces, Wire.varBytes]

theorem Transaction.encode_eq_spell (tx : Transaction) : tx.encode = spell tx.pieces := by
  simp only [encode, pieces, spell_plain, spell_number, spell_append, spell_flatMap, spell_nil,
    ← TxInput.encode_eq_spell, ← TxOutput.encode_eq_spell, List.append_assoc, List.append_nil]

/-! ## Reading -/

namespace Reader

theorem Reads.field {α : Type} {reader : Reader Error α} {octets : Bytes} {a : α}
    (field : TransactionField) (reads : Reads reader octets a) : Reads (reader.field field) octets a :=
  reads.onError _

theorem Takes.field {α : Type} {reader : Reader Error α} {form : α → Bytes → Prop}
    (field : TransactionField) (takes : Takes reader form) : Takes (reader.field field) form :=
  takes.onError _

theorem exact_input : Exact TxInput.read TxInput.pieces := by
  refine ⟨?_, ?_⟩
  · rintro input forms octets (_ | ⟨_, _ | _ | ⟨written, size, _ | ⟨_, ⟨⟩⟩⟩⟩)
    -- The form of the length and the script behind it are one field.
    simp only [List.append_assoc, List.append_nil]
    rw [← List.append_assoc _ input.script]
    refine .bind (.field .previousTxid (.octets input.previousTxid)) ?_
    refine .bind (.field .previousIndex (.u32 input.previousIndex)) ?_
    refine .bind (.field .inputScript (.varBytes written size)) ?_
    exact .map _ (.field .sequence (.u32 input.sequence))
  · intro unread input rest h
    obtain ⟨previousTxid, _, _, rfl, cut₁, h⟩ := Takes.of_bind (.field .previousTxid (.octets 32)) h
    obtain ⟨previousIndex, _, _, rfl, cut₂, h⟩ := Takes.of_bind (.field .previousIndex .u32) h
    obtain ⟨script, _, _, ⟨value, form, written, size, rfl⟩, cut₃, h⟩ :=
      Takes.of_bind (.field .inputScript .varBytes) h
    obtain ⟨sequence, _, _, rfl, cut₄, h⟩ := Takes.of_bind (.field .sequence .u32) h
    obtain ⟨rfl, rfl⟩ := pure_eq_ok.1 h
    refine ⟨_, ⟨[form], .plain _ (.number written size (.plain _ .nil))⟩, ?_⟩
    simp only [cut₁, cut₂, cut₃, cut₄, List.append_assoc, List.nil_append]

theorem exact_output : Exact TxOutput.read TxOutput.pieces := by
  refine ⟨?_, ?_⟩
  · rintro output forms octets (_ | ⟨_, _ | _ | ⟨written, size, _ | ⟨_, ⟨⟩⟩⟩⟩)
    rw [List.append_nil]
    exact .bind (.field .outputValue (.i64 output.value))
      (.map _ (.field .outputScript (.varBytes written size)))
  · intro unread output rest h
    obtain ⟨value, _, _, rfl, cut₁, h⟩ := Takes.of_bind (.field .outputValue .i64) h
    obtain ⟨script, _, _, ⟨length, form, written, size, rfl⟩, cut₂, h⟩ :=
      Takes.of_bind (.field .outputScript .varBytes) h
    obtain ⟨rfl, rfl⟩ := pure_eq_ok.1 h
    refine ⟨_, ⟨[form], .plain _ (.number written size (.plain _ .nil))⟩, ?_⟩
    simp only [cut₁, cut₂, List.append_assoc, List.nil_append]

theorem exact_transaction : Exact Transaction.read Transaction.pieces := by
  refine ⟨?_, ?_⟩
  · rintro tx forms octets spelled
    cases spelled with | plain _ spelled => ?_
    cases spelled with | number inputCount inputSize spelled => ?_
    obtain ⟨_, _, _, _, inputs, _ | _ | ⟨outputCount, outputSize, behind⟩, -, rfl⟩ := spelled.of_append
    obtain ⟨_, _, _, _, outputs, _ | ⟨_, ⟨⟩⟩, -, rfl⟩ := behind.of_append
    rw [List.append_nil]
    refine .bind (.field .version (.u32 tx.version)) ?_
    refine .bind (.field .inputCount inputCount.reads) ?_
    rw [inputSize]
    refine .bind (exact_input.reads_many inputs) ?_
    refine .bind (.field .outputCount outputCount.reads) ?_
    rw [outputSize]
    refine .bind (exact_output.reads_many outputs) ?_
    exact .map _ (.field .lockTime (.u32 tx.lockTime))
  · intro unread tx rest h
    obtain ⟨version, _, _, rfl, cut₁, h⟩ := Takes.of_bind (.field .version .u32) h
    obtain ⟨count, _, _, inputCount, cut₂, h⟩ := Takes.of_bind (.field .inputCount VarInt.takes_read) h
    obtain ⟨inputs, _, _, ⟨inputSize, _, spelled⟩, cut₃, h⟩ := (exact_input.takes_many count.toNat).of_bind h
    obtain ⟨count', _, _, outputCount, cut₄, h⟩ := Takes.of_bind (.field .outputCount VarInt.takes_read) h
    obtain ⟨outputs, _, _, ⟨outputSize, _, spelled'⟩, cut₅, h⟩ :=
      (exact_output.takes_many count'.toNat).of_bind h
    obtain ⟨lockTime, _, _, rfl, cut₆, h⟩ := Takes.of_bind (.field .lockTime .u32) h
    obtain ⟨rfl, rfl⟩ := pure_eq_ok.1 h
    refine ⟨_, ⟨_, .plain _ (.number inputCount inputSize.symm (spelled.append
      (.number outputCount outputSize.symm (spelled'.append (.plain _ .nil)))))⟩, ?_⟩
    simp only [cut₁, cut₂, cut₃, cut₄, cut₅, cut₆, List.append_assoc, List.nil_append]

end Reader

/-! ## What is written is read back -/

/-- Every count and length fits in 64 bits, as those of lists in a machine's memory do. -/
structure Transaction.Fits (tx : Transaction) : Prop where
  inputCount : tx.inputs.length < UInt64.size
  outputCount : tx.outputs.length < UInt64.size
  inputScript : ∀ input ∈ tx.inputs, input.script.length < UInt64.size
  outputScript : ∀ output ∈ tx.outputs, output.script.length < UInt64.size

namespace Transaction

theorem Fits.exists_spelled {tx : Transaction} (fits : tx.Fits) :
    ∃ forms, Spelled tx.pieces forms tx.encode := by
  rw [encode_eq_spell]
  refine Wire.exists_spelled fun n member => ?_
  simp only [pieces, TxInput.pieces, TxOutput.pieces, List.mem_cons, List.mem_append, List.mem_flatMap,
    Piece.number.injEq, reduceCtorEq, false_or, or_false, List.not_mem_nil] at member
  rcases member with rfl | ⟨input, member, rfl⟩ | rfl | ⟨output, member, rfl⟩
  · exact fits.inputCount
  · exact fits.inputScript input member
  · exact fits.outputCount
  · exact fits.outputScript output member

theorem Fits.reads {tx : Transaction} (fits : tx.Fits) : Reads Transaction.read tx.encode tx := by
  obtain ⟨forms, spelled⟩ := fits.exists_spelled
  exact exact_transaction.reads spelled

/-- No transaction's octets are the beginning of another's, with any octets behind either. -/
theorem encode_append_inj {tx tx' : Transaction} (fits : tx.Fits) (fits' : tx'.Fits)
    {rest rest' : Bytes} (same : tx.encode ++ rest = tx'.encode ++ rest') : tx = tx' ∧ rest = rest' :=
  fits.reads.unique fits'.reads same

end Transaction

end Bitcoin
