import Bitcoin.Proofs.Wire.Cursor

/-! # Sessions of reads

A reader is asked for one thing after another, and asked on where it failed. A request that asks for a number of
octets takes all of them or none; one whose octets themselves say how many there are has by then taken those that say
it. So the position never moves back and never leaves the octets, and what all requests took is everything up to the
position.
-/

namespace Bitcoin

namespace Reader

variable {ε α : Type}

/-- What comes of reading, and what it leaves unread. -/
def attempt (reader : Reader ε α) (unread : Bytes) : Except ε α × Bytes :=
  match reader unread with
  | .ok a rest => (.ok a, rest)
  | .error e rest => (.error e, rest)

end Reader

namespace Wire

/-! ## Requests -/

/-- What a reader can be asked for. -/
inductive Request where
  | octets (n : Nat)
  /-- Octets that fill an array. -/
  | array (n : Nat)
  | u8
  | u16
  | u32
  | u64
  | varInt
  | varBytes

inductive Answer where
  | octets (value : Bytes)
  | u8 (value : UInt8)
  | u16 (value : UInt16)
  | u32 (value : UInt32)
  | u64 (value : UInt64)
  | varInt (value : UInt64)

namespace Request

/-- How many octets are asked for, unless the octets say it. -/
def width : Request → Option Nat
  | .octets n => some n
  | .array n => some n
  | .u8 => some 1
  | .u16 => some 2
  | .u32 => some 4
  | .u64 => some 8
  | .varInt => none
  | .varBytes => none

def read : Request → Reader Error Answer
  | .octets n => do return .octets (← Reader.take n)
  | .array n => do return .octets (← Reader.octets n).toList
  | .u8 => do return .u8 (← Reader.u8)
  | .u16 => do return .u16 (← Reader.u16)
  | .u32 => do return .u32 (← Reader.u32)
  | .u64 => do return .u64 (← Reader.u64)
  | .varInt => do return .varInt (← VarInt.read)
  | .varBytes => do return .octets (← Reader.varBytes)

/-- Of each request what comes of it and what it leaves unread. -/
def readEach : List Request → Bytes → List (Except Error Answer × Bytes)
  | [], _ => []
  | request :: requests, unread =>
      let (outcome, rest) := request.read.attempt unread
      (outcome, rest) :: readEach requests rest

def scan : Request → Stepwise Cursor Error Answer
  | .octets n => do return .octets (← Cursor.take n)
  | .array n => do return .octets (← Cursor.octets n).toList
  | .u8 => do return .u8 (← Cursor.u8)
  | .u16 => do return .u16 (← Cursor.u16)
  | .u32 => do return .u32 (← Cursor.u32)
  | .u64 => do return .u64 (← Cursor.u64)
  | .varInt => do return .varInt (← Cursor.varInt)
  | .varBytes => do return .octets (← Cursor.varBytes)

end Request

/-! ## What a request takes -/

/-- The octets are what the request takes for the answer. -/
inductive Form : Request → Answer → Bytes → Prop where
  | octets (value : Bytes) : Form (.octets value.length) (.octets value) value
  | array {n : Nat} (value : Octets n) : Form (.array n) (.octets value.toList) value.toList
  | u8 (value : UInt8) : Form .u8 (.u8 value) [value]
  | u16 (value : UInt16) : Form .u16 (.u16 value) (Wire.u16 value)
  | u32 (value : UInt32) : Form .u32 (.u32 value) (Wire.u32 value)
  | u64 (value : UInt64) : Form .u64 (.u64 value) (Wire.u64 value)
  | varInt {value : UInt64} {octets : Bytes} : VarInt.Written value octets → Form .varInt (.varInt value) octets
  | varBytes {value : UInt64} {length octets : Bytes} : VarInt.Written value length →
      value.toNat = octets.length → Form .varBytes (.octets octets) (length ++ octets)

/-- The request took the first octets before it failed, and fewer are left over than it needs next. -/
inductive Broken : Request → Bytes → Bytes → Prop where
  | short {request : Request} {n : Nat} {rest : Bytes} : request.width = some n → rest.length < n →
      Broken request [] rest
  | number {taken rest : Bytes} : VarInt.CutOff taken rest → Broken .varInt taken rest
  | length {taken rest : Bytes} : VarInt.CutOff taken rest → Broken .varBytes taken rest
  | behind {value : UInt64} {length rest : Bytes} : VarInt.Written value length → rest.length < value.toNat →
      Broken .varBytes length rest

/-- What comes of a request, by what it takes and what it leaves over. -/
inductive Comes : Request → Except Error Answer → Bytes → Bytes → Prop where
  | answered {request : Request} {answer : Answer} {taken rest : Bytes} : Form request answer taken →
      Comes request (.ok answer) taken rest
  | broken {request : Request} {taken rest : Bytes} : Broken request taken rest →
      Comes request (.error .unexpectedEnd) taken rest

section Width

variable {request : Request} {answer : Answer} {taken rest : Bytes} {n : Nat}

theorem Form.length_eq (form : Form request answer taken) (width : request.width = some n) : taken.length = n := by
  cases form with
  | octets | u8 =>
      cases width
      rfl
  | array value =>
      cases width
      exact value.length_eq
  | u16 | u32 | u64 =>
      cases width
      exact Octets.length_toList _
  | varInt | varBytes => cases width

theorem Broken.of_short (width : request.width = some n) (short : Reader.Short n taken rest) :
    Broken request taken rest := by
  obtain ⟨rfl, fewer⟩ := short
  exact .short width fewer

theorem Broken.to_short (broken : Broken request taken rest) (width : request.width = some n) :
    Reader.Short n taken rest := by
  cases broken with
  | short width' fewer =>
      cases width.symm.trans width'
      exact ⟨rfl, fewer⟩
  | number | length | behind => cases width

/-- A request for a number of octets fails exactly if there are fewer. -/
theorem Comes.failed_iff {outcome : Except Error Answer} (comes : Comes request outcome taken rest)
    (width : request.width = some n) : (∃ e, outcome = .error e) ↔ taken.length + rest.length < n := by
  cases comes with
  | answered form =>
      have whole := form.length_eq width
      refine iff_of_false ?_ (by omega)
      rintro ⟨e, ⟨⟩⟩
  | broken broken =>
      obtain ⟨rfl, fewer⟩ := broken.to_short width
      refine iff_of_true ⟨_, rfl⟩ ?_
      rwa [List.length_nil, Nat.zero_add]

end Width

section Outcome

variable {request : Request} {outcome : Except Error Answer} {taken rest : Bytes}

theorem Comes.form {answer : Answer} (comes : Comes request outcome taken rest) (answered : outcome = .ok answer) :
    Form request answer taken := by
  cases comes with
  | answered form =>
      cases answered
      exact form
  | broken broken => cases answered

theorem Comes.failed {e : Error} (comes : Comes request outcome taken rest) (failed : outcome = .error e) :
    e = .unexpectedEnd ∧ Broken request taken rest := by
  cases comes with
  | answered form => cases failed
  | broken broken =>
      cases failed
      exact ⟨rfl, broken⟩

theorem Broken.cutOff (broken : Broken .varInt taken rest) : VarInt.CutOff taken rest := by
  cases broken with
  | short width fewer => cases width
  | number cutOff => exact cutOff

theorem Broken.cutOff_or_behind (broken : Broken .varBytes taken rest) : VarInt.CutOff taken rest ∨
    ∃ value, VarInt.Written value taken ∧ rest.length < value.toNat := by
  cases broken with
  | short width fewer => cases width
  | length cutOff => exact .inl cutOff
  | behind written fewer => exact .inr ⟨_, written, fewer⟩

end Outcome

namespace Request

/-- A reader that takes one form of each value. -/
theorem takes_spelled {α : Type} {reader : Reader Error α} {spell : α → Bytes} {request : Request} {answer : α → Answer}
    (takes : Reader.Takes reader fun value octets => octets = spell value)
    (forms : ∀ value, Form request (answer value) (spell value)) :
    Reader.Takes (do return answer (← reader)) (Form request) := by
  refine .map answer takes ?_
  rintro value _ rfl
  exact forms value

theorem takes_read (request : Request) : Reader.Takes request.read (Form request) := by
  cases request with
  | octets n =>
      refine .map _ (.take n) ?_
      rintro octets _ ⟨rfl, rfl⟩
      exact .octets _
  | array n => exact takes_spelled (.octets n) .array
  | u8 => exact takes_spelled .u8 .u8
  | u16 => exact takes_spelled .u16 .u16
  | u32 => exact takes_spelled .u32 .u32
  | u64 => exact takes_spelled .u64 .u64
  | varInt => exact .map _ VarInt.takes_read .varInt
  | varBytes =>
      refine .map _ .varBytes ?_
      rintro octets _ ⟨value, length, written, size, rfl⟩
      exact .varBytes written size

theorem breaks_read (request : Request) : Reader.Breaks request.read (Broken request) := by
  cases request with
  | octets n => exact .mono (.map _ (.take n)) (.of_short rfl)
  | array n => exact .mono (.map _ (.octets n)) (.of_short rfl)
  | u8 => exact .mono (.map _ .u8) (.of_short rfl)
  | u16 => exact .mono (.map _ .u16) (.of_short rfl)
  | u32 => exact .mono (.map _ .u32) (.of_short rfl)
  | u64 => exact .mono (.map _ .u64) (.of_short rfl)
  | varInt => exact .mono (.map _ VarInt.breaks_read) .number
  | varBytes =>
      refine .mono (.map _ .varBytes) ?_
      rintro taken rest (cutOff | ⟨value, written, fewer⟩)
      · exact .length cutOff
      · exact .behind written fewer

theorem follows_scan (request : Request) : Cursor.Follows request.scan request.read := by
  cases request with
  | octets n => exact .map _ (.take n)
  | array n => exact .map _ (.octets n)
  | u8 => exact .map _ .u8
  | u16 => exact .map _ .u16
  | u32 => exact .map _ .u32
  | u64 => exact .map _ .u64
  | varInt => exact .map _ .varInt
  | varBytes => exact .map _ .varBytes

/-- Wherever a cursor is inside, a request has an outcome, and the cursor moves on behind what the request takes. -/
theorem exists_scan {cursor : Cursor} (request : Request) (inside : cursor.Inside) :
    ∃ outcome taken rest, request.scan cursor = some (outcome, cursor.upTo rest) ∧
      request.read.attempt cursor.unread = (outcome, rest) ∧ cursor.unread = taken ++ rest ∧
      Comes request outcome taken rest := by
  cases run : request.read cursor.unread with
  | ok answer rest =>
      obtain ⟨-, stepped⟩ := request.follows_scan.ok inside run
      obtain ⟨taken, form, cut⟩ := request.takes_read run
      exact ⟨_, taken, rest, stepped, by rw [Reader.attempt, run], cut, .answered form⟩
  | error e rest =>
      obtain ⟨-, stepped⟩ := request.follows_scan.error inside run
      obtain ⟨rfl, taken, broken, cut⟩ := request.breaks_read run
      exact ⟨_, taken, rest, stepped, by rw [Reader.attempt, run], cut, .broken broken⟩

end Request

/-! ## Sessions -/

/-- A request that was made: what came of it, where the cursor was before and after it, and what remained then. -/
structure Event where
  request : Request
  before : Cursor
  outcome : Except Error Answer
  after : Cursor
  remaining : Except Error Nat

/-- Make a request, and ask what remains. -/
def ask (request : Request) : StateT Cursor Option Event := do
  let before ← get
  let outcome ← request.scan.run
  let remaining ← (Cursor.remaining : Stepwise Cursor Error Nat).run
  let after ← get
  return { request, before, outcome, after, remaining }

/-- Make one request after another, whatever comes of them. -/
def session (requests : List Request) : StateT Cursor Option (List Event) :=
  requests.mapM ask

namespace Event

/-- The octets between the positions before and after. -/
def taken (event : Event) : Bytes :=
  event.before.unread.take (event.after.position - event.before.position)

/-- What holds of every request of a session in these octets, on a machine of so many indices. -/
structure Lawful (data : Bytes) (indices : Nat) (event : Event) : Prop where
  before : event.before = ⟨data, event.before.position, indices⟩
  after : event.after = ⟨data, event.after.position, indices⟩
  position_le : event.after.position ≤ data.length
  moved : event.after.position = event.before.position + event.taken.length
  remaining : event.remaining = .ok (data.length - event.after.position)
  /-- What was unread is what was taken and what is unread. -/
  cut : event.before.unread = event.taken ++ event.after.unread
  ok : ∀ answer, event.outcome = .ok answer → Form event.request answer event.taken
  error : ∀ e, event.outcome = .error e → e = .unexpectedEnd ∧ Broken event.request event.taken event.after.unread
  raw : ∀ n octets, event.request = .octets n → event.outcome = .ok (.octets octets) →
    octets = event.taken ∧ octets.length = n
  /-- A number of octets is not read exactly if fewer remain. -/
  width : ∀ n, event.request.width = some n →
    ((∃ e, event.outcome = .error e) ↔ data.length - event.before.position < n)
  unmoved : ∀ n e, event.request.width = some n → event.outcome = .error e → event.after = event.before
  /-- A sum that is no index is refused like one that lies behind the end. -/
  sum : ∀ n, event.request.width = some n → indices ≤ event.before.position + n →
    event.outcome = .error .unexpectedEnd
  varInt : ∀ e, event.request = .varInt → event.outcome = .error e →
    VarInt.CutOff event.taken event.after.unread ∧ event.taken.length ≤ 1
  varBytes : ∀ e, event.request = .varBytes → event.outcome = .error e →
    VarInt.CutOff event.taken event.after.unread ∨
      ∃ value, VarInt.Written value event.taken ∧ data.length - event.after.position < value.toNat

theorem Lawful.after_data {data : Bytes} {indices : Nat} {event : Event} (lawful : event.Lawful data indices) :
    event.after.data = data :=
  congrArg Cursor.data lawful.after

theorem Lawful.after_indices {data : Bytes} {indices : Nat} {event : Event} (lawful : event.Lawful data indices) :
    event.after.indices = indices :=
  congrArg Cursor.indices lawful.after

variable {request : Request} {before : Cursor} {outcome : Except Error Answer} {front rest : Bytes}

/-- A request that took what was unread in front of a rest obeys the laws. -/
theorem Lawful.of_comes (inside : before.Inside) (cut : before.unread = front ++ rest)
    (comes : Comes request outcome front rest) :
    Lawful before.data before.indices ⟨request, before, outcome, before.upTo rest, .ok rest.length⟩ := by
  have unread : (before.upTo rest).unread = rest := Cursor.unread_upTo ⟨front, cut.symm⟩
  have whole := inside.length_unread
  rw [cut, List.length_append] at whole
  -- The lengths of the two parts of what was unread place both positions.
  have whole' : (before.upTo rest).position + rest.length = before.data.length := by
    have whole' := (inside.upTo rest).length_unread
    rwa [unread] at whole'
  have took : taken ⟨request, before, outcome, before.upTo rest, .ok rest.length⟩ = front := by
    have moved : (before.upTo rest).position - before.position = front.length := by omega
    rw [taken, moved, cut, List.take_left]
  have left : before.data.length - before.position = front.length + rest.length := by omega
  have left' : before.data.length - (before.upTo rest).position = rest.length := by omega
  constructor
  case before => rfl
  case after => rfl
  case position_le => exact (inside.upTo rest).position_le
  case moved =>
    rw [took]
    show (before.upTo rest).position = before.position + front.length
    omega
  case remaining => rw [left']
  case cut => rw [took, unread, cut]
  case ok =>
    intro answer answered
    rw [took]
    exact comes.form answered
  case error =>
    intro e failed
    rw [took, unread]
    exact comes.failed failed
  case raw =>
    rintro n octets rfl answered
    rw [took]
    cases comes.form answered with
    | octets => exact ⟨rfl, rfl⟩
  case width =>
    intro n width
    rw [left]
    exact comes.failed_iff width
  case unmoved =>
    intro n e width failed
    obtain ⟨rfl, -⟩ := (comes.failed failed).2.to_short width
    rw [List.nil_append] at cut
    rw [← cut, Cursor.upTo_unread inside]
  case sum =>
    intro n width large
    have fits := inside.fits
    obtain ⟨e, failed⟩ := (comes.failed_iff width).2 (by dsimp only at large; omega)
    rw [failed, (comes.failed failed).1]
  case varInt =>
    rintro e rfl failed
    rw [took, unread]
    have cutOff := (comes.failed failed).2.cutOff
    exact ⟨cutOff, cutOff.length_le⟩
  case varBytes =>
    rintro e rfl failed
    rw [took, unread, left']
    exact (comes.failed failed).2.cutOff_or_behind

end Event

/-- Requests that obey the laws, each from where the one before it led. -/
inductive Run (data : Bytes) (indices : Nat) : Cursor → List Event → Cursor → Prop where
  | nil (cursor : Cursor) : Run data indices cursor [] cursor
  | cons {event : Event} {events : List Event} {reached : Cursor} : event.Lawful data indices →
      Run data indices event.after events reached → Run data indices event.before (event :: events) reached

namespace Run

variable {data : Bytes} {indices : Nat} {start reached : Cursor} {events : List Event}

theorem lawful (run : Run data indices start events reached) : ∀ event ∈ events, event.Lawful data indices := by
  induction run with
  | nil => simp
  | cons lawful _ ih => exact List.forall_mem_cons.2 ⟨lawful, ih⟩

theorem joined (run : Run data indices start events reached) :
    events.map Event.before ++ [reached] = start :: events.map Event.after := by
  induction run with
  | nil => rfl
  | cons _ _ ih => rw [List.map_cons, List.cons_append, ih, List.map_cons]

/-- No request leads back behind any that was made before it. -/
theorem forward (run : Run data indices start events reached) :
    (start :: events.map Event.after).Pairwise fun cursor later => cursor.position ≤ later.position := by
  induction run with
  | nil => exact List.pairwise_singleton _ _
  | cons lawful _ ih =>
      have onward := Nat.le.intro lawful.moved.symm
      refine List.pairwise_cons.2 ⟨?_, ih⟩
      intro later member
      rcases List.mem_cons.1 member with rfl | member
      · exact onward
      · exact onward.trans (List.rel_of_pairwise_cons ih member)

theorem taken (run : Run data indices start events reached) :
    start.unread = events.flatMap Event.taken ++ reached.unread := by
  induction run with
  | nil => rfl
  | cons lawful _ ih => rw [List.flatMap_cons, List.append_assoc, ← ih, lawful.cut]

end Run

/-- Wherever a cursor is inside, a request can be made, and after it the cursor is inside again. -/
theorem exists_ask {cursor : Cursor} (request : Request) (inside : cursor.Inside) :
    ∃ event : Event, (ask request).run cursor = some (event, event.after) ∧ event.request = request ∧
      event.before = cursor ∧ event.after.Inside ∧ event.Lawful cursor.data cursor.indices ∧
      request.read.attempt cursor.unread = (event.outcome, event.after.unread) := by
  obtain ⟨outcome, taken, rest, scanned, attempted, cut, comes⟩ := request.exists_scan inside
  have behind : rest <:+ cursor.unread := ⟨taken, cut.symm⟩
  refine ⟨⟨request, cursor, outcome, cursor.upTo rest, .ok rest.length⟩, ?_, rfl, rfl, inside.upTo rest,
    .of_comes inside cut comes, ?_⟩
  · show (request.scan cursor >>= fun scanned =>
      (Cursor.remaining : Stepwise Cursor Error Nat) scanned.2 >>= fun left =>
        some (Event.mk request cursor scanned.1 left.2 left.1, left.2)) = _
    rw [scanned, Option.bind_eq_bind, Option.bind_some, Cursor.remaining_upTo inside behind]
    rfl
  · rw [attempted, Cursor.unread_upTo behind]

theorem exists_session {cursor : Cursor} (requests : List Request) (inside : cursor.Inside) :
    ∃ events reached, (session requests).run cursor = some (events, reached) ∧ events.map Event.request = requests ∧
      events.map (fun event => (event.outcome, event.after.unread)) = Request.readEach requests cursor.unread ∧
      Run cursor.data cursor.indices cursor events reached := by
  induction requests generalizing cursor with
  | nil => exact ⟨[], cursor, rfl, rfl, rfl, .nil cursor⟩
  | cons request requests ih =>
      obtain ⟨event, asked, same, rfl, inside', lawful, attempted⟩ := exists_ask request inside
      obtain ⟨events, reached, asked', same', read, run⟩ := ih inside'
      rw [lawful.after_data, lawful.after_indices] at run
      refine ⟨event :: events, reached, ?_, ?_, ?_, ?_⟩
      · unfold session at asked' ⊢
        rw [List.mapM_cons, StateT.run_bind, asked, Option.bind_eq_bind, Option.bind_some, StateT.run_bind, asked']
        rfl
      · rw [List.map_cons, same, same']
      · rw [List.map_cons, read, Request.readEach, attempted]
      · exact .cons lawful run

/-- A session has an outcome, which is what reading one thing after another from what is unread comes to. Each of its
    requests obeys the laws and begins where the one before it led, never further back, and what all of them took is
    everything up to where they led. -/
theorem session_stays_inside (data : Bytes) (indices : Nat) (fits : data.length < indices)
    (requests : List Request) :
    ∃ events reached, (session requests).run ⟨data, 0, indices⟩ = some (events, reached) ∧
      events.map Event.request = requests ∧
      events.map (fun event => (event.outcome, event.after.unread)) = Request.readEach requests data ∧
      (∀ event ∈ events, event.Lawful data indices) ∧
      events.map Event.before ++ [reached] = ⟨data, 0, indices⟩ :: events.map Event.after ∧
      (⟨data, 0, indices⟩ :: events.map Event.after).Pairwise
        (fun cursor later => cursor.position ≤ later.position) ∧
      data = events.flatMap Event.taken ++ reached.unread := by
  have inside : Cursor.Inside ⟨data, 0, indices⟩ := ⟨fits, Nat.zero_le _⟩
  obtain ⟨events, reached, asked, same, read, run⟩ := exists_session requests inside
  exact ⟨events, reached, asked, same, read, run.lawful, run.joined, run.forward, run.taken⟩

/-- After an octet, as many octets as there are indices, a number that is cut off, and octets behind their number. -/
def hostile : List Request :=
  [.u8, .octets (UInt64.size - 1), .varInt, .varBytes]

/-- Only the first of them is read, and the others leave what they did not take. -/
theorem session_stays_inside_hostile :
    ([7, 0xfd, 1] : Bytes).length < UInt64.size ∧
      ∃ events reached, (session hostile).run ⟨[7, 0xfd, 1], 0, UInt64.size⟩ = some (events, reached) ∧
        events.map (fun event => (event.outcome, event.after.unread)) =
          [(.ok (.u8 7), [0xfd, 1]), (.error .unexpectedEnd, [0xfd, 1]), (.error .unexpectedEnd, [1]),
            (.error .unexpectedEnd, [])] ∧
        ∀ event ∈ events, event.Lawful [7, 0xfd, 1] UInt64.size := by
  have fits : ([7, 0xfd, 1] : Bytes).length < UInt64.size := by decide
  obtain ⟨events, reached, asked, -, read, lawful, -⟩ := session_stays_inside _ _ fits hostile
  exact ⟨fits, events, reached, asked, read, lawful⟩

end Wire

end Bitcoin
