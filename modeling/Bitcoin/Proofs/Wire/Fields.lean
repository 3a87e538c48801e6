import Bitcoin.Proofs.Transaction.Progress
import Bitcoin.Wire.Field

/-! # Writing and reading fields in sequence

A writer appends to what is written already, also where it writes an input or an output piece by piece. A
sequence of fields of any kinds is read back by the matching sequence of readers, from octets or at a cursor
in them, and whatever stands behind is left unread.
-/

namespace Bitcoin

open Wire

/-! ## Writing -/

/-- A step of writing: the state is what has been written. -/
abbrev Writer := StateM Bytes Unit

namespace Writer

def append (octets : Bytes) : Writer :=
  modify (· ++ octets)

def u8 (value : UInt8) : Writer :=
  append [value]

def u32 (value : UInt32) : Writer :=
  append (Wire.u32 value)

def u64 (value : UInt64) : Writer :=
  append (Wire.u64 value)

def i64 (value : Int64) : Writer :=
  append (Wire.i64 value)

def varInt (value : UInt64) : Writer :=
  append (VarInt.encode value)

def varBytes (bs : Bytes) : Writer := do
  varInt (UInt64.ofNat bs.length)
  append bs

def input (input : TxInput) : Writer := do
  append input.previousTxid.toList
  u32 input.previousIndex
  varBytes input.script
  u32 input.sequence

def output (output : TxOutput) : Writer := do
  i64 output.value
  varBytes output.script

def field : Field → Writer
  | .u8 value => u8 value
  | .u32 value => u32 value
  | .u64 value => u64 value
  | .i64 value => i64 value
  | .varInt value => varInt value
  | .octets value => append value
  | .varBytes value => varBytes value
  | .input value => input value
  | .output value => output value

def fields : List Field → Writer
  | [] => pure ()
  | head :: tail => do
      field head
      fields tail

/-- Whatever has been written stays, and these octets come behind it. -/
def Appends (writer : Writer) (octets : Bytes) : Prop :=
  ∀ written, writer.run written = ((), written ++ octets)

namespace Appends

variable {first second : Writer} {front back : Bytes}

theorem append (octets : Bytes) : Appends (Writer.append octets) octets :=
  fun _ => rfl

theorem seq (appends : Appends first front) (appends' : Appends second back) :
    Appends (do first; second) (front ++ back) := by
  intro written
  show (first.run written >>= fun (_, written) => second.run written) = _
  rw [appends, ← List.append_assoc]
  exact appends' _

theorem varBytes (bs : Bytes) : Appends (Writer.varBytes bs) (Wire.varBytes bs) :=
  seq (append _) (append bs)

theorem input (input : TxInput) : Appends (Writer.input input) input.encode := by
  have pieces := seq (append input.previousTxid.toList)
    (seq (append (Wire.u32 input.previousIndex)) (seq (varBytes input.script) (append (Wire.u32 input.sequence))))
  -- The pieces nest to the right where they are written and to the left in the record.
  rw [← List.append_assoc, ← List.append_assoc] at pieces
  exact pieces

theorem output (output : TxOutput) : Appends (Writer.output output) output.encode :=
  seq (append (Wire.i64 output.value)) (varBytes output.script)

theorem field (field : Field) : Appends (Writer.field field) field.encode := by
  cases field with
  | u8 value => exact append _
  | u32 value => exact append _
  | u64 value => exact append _
  | i64 value => exact append _
  | varInt value => exact append _
  | octets value => exact append value
  | varBytes value => exact varBytes value
  | input value => exact input value
  | output value => exact output value

theorem fields (fields : List Field) : Appends (Writer.fields fields) (fields.flatMap Field.encode) := by
  induction fields with
  | nil => exact fun written => congrArg _ (List.append_nil written).symm
  | cons head tail ih => exact seq (field head) ih

end Appends

end Writer

/-! ## Reading -/

namespace Wire

namespace Field

/-- Every length that is written in front of something fits in 64 bits, as that of octets in memory does. -/
def Fits : Field → Prop
  | .varBytes value => value.length < UInt64.size
  | .input value => value.script.length < UInt64.size
  | .output value => value.script.length < UInt64.size
  | _ => True

end Field

namespace FieldKind

def readEach : List FieldKind → Reader TransactionError (List Field)
  | [] => pure []
  | kind :: kinds => do
      let field ← kind.read
      let fields ← readEach kinds
      return field :: fields

/-- Read a field of this kind at a cursor. -/
def scan : FieldKind → Stepwise Cursor TransactionError Field
  | .u8 => do return .u8 (← Cursor.u8.onError .primitives)
  | .u32 => do return .u32 (← Cursor.u32.onError .primitives)
  | .u64 => do return .u64 (← Cursor.u64.onError .primitives)
  | .i64 => do return .i64 (← Cursor.i64.onError .primitives)
  | .varInt => do return .varInt (← Cursor.varInt.onError .primitives)
  | .octets length => do return .octets (← (Cursor.take length).onError .primitives)
  | .varBytes => do return .varBytes (← Cursor.varBytes.onError .primitives)
  | .input => do return .input (← TxInput.scan)
  | .output => do return .output (← TxOutput.scan)

def scanEach : List FieldKind → Stepwise Cursor TransactionError (List Field)
  | [] => pure []
  | kind :: kinds => do
      let field ← kind.scan
      let fields ← scanEach kinds
      return field :: fields

end FieldKind

end Wire

namespace Reader

variable {ε α β : Type} {reader : Reader ε α} {octets : Bytes} {a : α}

theorem Reads.mapped (f : α → β) (reads : Reads reader octets a) : Reads (f <$> reader) octets (f a) := by
  rw [← bind_pure_comp]
  exact reads.map f

theorem Exact.reads_spell {pieces : α → List Piece} (exact : Exact reader pieces)
    (small : ∀ n, .number n ∈ pieces a → n < UInt64.size) : Reads reader (spell (pieces a)) a := by
  obtain ⟨forms, spelled⟩ := exists_spelled small
  exact exact.reads spelled

theorem Reads.input {input : TxInput} (fits : input.script.length < UInt64.size) :
    Reads TxInput.read input.encode input := by
  rw [TxInput.encode_eq_spell]
  apply exact_input.reads_spell
  simpa [TxInput.pieces] using fits

theorem Reads.output {output : TxOutput} (fits : output.script.length < UInt64.size) :
    Reads TxOutput.read output.encode output := by
  rw [TxOutput.encode_eq_spell]
  apply exact_output.reads_spell
  simpa [TxOutput.pieces] using fits

/-- A field is read back by the reader of its kind. -/
theorem Reads.ofKind {field : Field} (fits : field.Fits) : Reads field.kind.read field.encode field := by
  cases field with
  | u8 value => exact .mapped Field.u8 ((Reads.u8 value).onError _)
  | u32 value => exact .mapped Field.u32 ((Reads.u32 value).onError _)
  | u64 value => exact .mapped Field.u64 ((Reads.u64 value).onError _)
  | i64 value => exact .mapped Field.i64 ((Reads.i64 value).onError _)
  | varInt value => exact .mapped Field.varInt ((Reads.varInt value).onError _)
  | octets value => exact .mapped Field.octets ((Reads.take value).onError _)
  | varBytes value =>
      have size := UInt64.toNat_ofNat_of_lt' fits
      exact .mapped Field.varBytes ((Reads.varBytes (VarInt.written_encode _) size).onError _)
  | input value => exact .mapped Field.input (.input fits)
  | output value => exact .mapped Field.output (.output fits)

theorem Reads.each {fields : List Field} (fits : ∀ field ∈ fields, field.Fits) :
    Reads (FieldKind.readEach (fields.map Field.kind)) (fields.flatMap Field.encode) fields := by
  induction fields with
  | nil => exact .pure []
  | cons head tail ih =>
      have first := fits head List.mem_cons_self
      have rest := ih fun field member => fits field (List.mem_cons_of_mem head member)
      exact .bind (.ofKind first) (.map (head :: ·) rest)

end Reader

namespace Cursor

variable {ε α β : Type} {steps : Stepwise Cursor ε α} {reader : Reader ε α} {cursor : Cursor}

theorem Follows.mapped (f : α → β) (follows : Follows steps reader) :
    Follows (do return f (← steps)) (f <$> reader) := by
  rw [← bind_pure_comp]
  exact follows.map f

theorem Follows.ofKind (kind : FieldKind) : Follows kind.scan kind.read := by
  cases kind with
  | u8 => exact .mapped Field.u8 (u8.onError _)
  | u32 => exact .mapped Field.u32 (u32.onError _)
  | u64 => exact .mapped Field.u64 (u64.onError _)
  | i64 => exact .mapped Field.i64 (i64.onError _)
  | varInt => exact .mapped Field.varInt (varInt.onError _)
  | octets length => exact .mapped Field.octets ((take length).onError _)
  | varBytes => exact .mapped Field.varBytes (varBytes.onError _)
  | input => exact .mapped Field.input input
  | output => exact .mapped Field.output output

theorem Follows.each (kinds : List FieldKind) :
    Follows (FieldKind.scanEach kinds) (FieldKind.readEach kinds) := by
  induction kinds with
  | nil => exact .pure []
  | cons kind kinds ih => exact .bind (ofKind kind) fun field => .map (field :: ·) ih

/-- Steps that follow a reader take from what is unread the octets that it reads. -/
theorem Follows.of_reads {octets rest : Bytes} {a : α} (follows : Follows steps reader)
    (reads : Reader.Reads reader octets a) (inside : cursor.Inside) (unread : cursor.unread = octets ++ rest) :
    ∃ reached : Cursor, steps cursor = some (.ok a, reached) ∧ reached.Inside ∧ reached.unread = rest ∧
      reached.position = cursor.position + octets.length := by
  have read : reader cursor.unread = .ok a rest := by
    rw [unread]
    exact reads rest
  -- The steps stop where the reader's rest begins, as far before the end as the rest is long.
  obtain ⟨behind, stepped⟩ := follows.ok inside read
  have moved := position_upTo inside behind
  rw [unread, List.length_append] at moved
  exact ⟨_, stepped, inside.upTo rest, unread_upTo behind, by omega⟩

end Cursor

namespace Wire

theorem foldl_write (fields : List Field) (written : Bytes) :
    fields.foldl Field.write written = written ++ fields.flatMap Field.encode := by
  induction fields generalizing written with
  | nil => exact (List.append_nil written).symm
  | cons head tail ih => rw [List.foldl_cons, ih, Field.write, List.append_assoc, List.flatMap_cons]

/-- A signed word in two's complement is congruent to its number. -/
theorem toNat_toUInt64 (value : Int64) : (value.toUInt64.toNat : Int) = value.toInt % 2 ^ 64 := by
  have bits : value.toInt = (value.toUInt64.toNat : Int).bmod (2 ^ 64) :=
    BitVec.toInt_eq_toNat_bmod value.toBitVec
  have width : (2 : Int) ^ 64 = ((2 ^ 64 : Nat) : Int) := rfl
  have small := value.toUInt64.toNat_lt
  rw [bits, width, Int.bmod_emod, Int.emod_eq_of_lt (Int.natCast_nonneg _) (Int.ofNat_lt.2 small)]

/-- What is written last comes behind all that was written before. Whatever the fields are, and whatever
    stands behind them, the readers of their kinds one after the other read these fields, and so do the steps
    at a cursor, which have an outcome and leave exactly what stands behind unread. A signed word is read as
    the word of the same octets. -/
theorem fields_read_back (fields : List Field) (fits : ∀ field ∈ fields, field.Fits) :
    (∀ (field : Field) (written : Bytes), (Writer.field field).run written = ((), Field.write written field) ∧
      Field.write written field = written ++ field.encode) ∧
    (∀ written, (Writer.fields fields).run written = ((), fields.foldl Field.write written)) ∧
    (∀ rest, FieldKind.readEach (fields.map Field.kind) (fields.foldl Field.write [] ++ rest) = .ok fields rest) ∧
    (∀ (value : Int64) (rest : Bytes), Reader.u64 ((Field.i64 value).encode ++ rest) = .ok value.toUInt64 rest ∧
      (value.toUInt64.toNat : Int) = value.toInt % 2 ^ 64 ∧ value.toUInt64.toInt64 = value) ∧
    ∀ (cursor : Cursor) (rest : Bytes), cursor.Inside → cursor.unread = fields.foldl Field.write [] ++ rest →
      ∃ reached, FieldKind.scanEach (fields.map Field.kind) cursor = some (.ok fields, reached) ∧
        (Cursor.remaining : Stepwise Cursor TransactionError Nat) reached = some (.ok rest.length, reached) := by
  have written : fields.foldl Field.write [] = fields.flatMap Field.encode := foldl_write fields []
  have reads := Reader.Reads.each fits
  rw [written]
  refine ⟨fun field written => ⟨Writer.Appends.field field written, rfl⟩, fun written => ?_, reads,
    fun value rest => ⟨Reader.Reads.u64 value.toUInt64 rest, toNat_toUInt64 value, Int64.toInt64_toUInt64 value⟩,
    fun cursor rest inside unread => ?_⟩
  · rw [foldl_write]
    exact Writer.Appends.fields fields written
  · obtain ⟨reached, scanned, inside', left, -⟩ := (Cursor.Follows.each _).of_reads reads inside unread
    refine ⟨reached, scanned, ?_⟩
    rw [Cursor.remaining_eq inside', left]

/-- A field of every kind, with a number below zero, one of nine octets and an empty script among them. -/
def everyKind : List Field :=
  [.u8 7, .u32 0xdeadbeef, .u64 1, .i64 (-1), .varInt 0xffffffffffffffff, .octets [1, 2], .varBytes [],
    .input (.unsigned (Octets.zero 32) 0), .output .null]

/-- They are read back with an octet behind them, in memory that has no more indices than needed. -/
theorem fields_read_back_everyKind :
    (∀ field ∈ everyKind, field.Fits) ∧
      FieldKind.readEach (everyKind.map Field.kind) (everyKind.foldl Field.write [] ++ [42]) = .ok everyKind [42] ∧
      ∃ reached, FieldKind.scanEach (everyKind.map Field.kind)
          ⟨everyKind.foldl Field.write [] ++ [42], 0, 85⟩ = some (.ok everyKind, reached) ∧
        (Cursor.remaining : Stepwise Cursor TransactionError Nat) reached = some (.ok 1, reached) := by
  have fits : ∀ field ∈ everyKind, field.Fits := by
    simp [everyKind, Field.Fits, TxInput.unsigned, TxOutput.null, UInt64.size]
  obtain ⟨-, -, read, -, scanned⟩ := fields_read_back everyKind fits
  exact ⟨fits, read [42], scanned _ [42] ⟨by decide, Nat.zero_le _⟩ rfl⟩

end Wire

end Bitcoin
