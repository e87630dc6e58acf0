import StoreCpp.Events
import StoreCpp.GroupBy

/-!
# The event tables and `mt_append_event`

`mt_streams` is keyed by the stream's uuid, so it is a partial function of
it; `mt_events` is the list of its rows.  Stream identifiers are texts on the
side of the client and become uuids only when the server casts them.
-/

namespace StoreCpp

abbrev Uuid := BitVec 128

def hexValue (c : Char) : Option ℕ :=
  if '0' ≤ c ∧ c ≤ '9' then some (c.toNat - '0'.toNat)
  else if 'a' ≤ c ∧ c ≤ 'f' then some (c.toNat - 'a'.toNat + 10)
  else if 'A' ≤ c ∧ c ≤ 'F' then some (c.toNat - 'A'.toNat + 10)
  else none

/-- Read the given number of bytes, each of two hexadecimal digits; a hyphen
may follow every second byte but the last. -/
def uuidBytes : ℕ → Str → ℕ → Option (ℕ × Str)
  | 0, rest, value => some (value, rest)
  | count + 1, high :: low :: rest, value => do
      let h ← hexValue high
      let l ← hexValue low
      let rest := if count % 2 = 0 ∧ 0 < count ∧ rest.head? = some '-'
        then rest.tail else rest
      uuidBytes count rest (value * 256 + h * 16 + l)
  | _ + 1, _, _ => none

/-- The server's cast of a text to `uuid`: hexadecimal digits of either case,
with or without hyphens and enclosing braces. -/
def uuidIn (text : Str) : Option Uuid :=
  let braces := text.head? = some '{'
  match uuidBytes 16 (if braces then text.tail else text) 0 with
  | some (value, rest) =>
      if rest = (if braces then ['}'] else []) then some (BitVec.ofNat 128 value)
      else none
  | none => none

structure StreamRow where
  type : Str
  version : ℕ
  timestamp : Int64

structure EventRow where
  seqId : ℕ
  id : Uuid
  streamId : Uuid
  version : ℕ
  data : Json
  type : Str
  timestamp : Int64

structure Tables where
  mtStreams : Uuid → Option StreamRow
  mtEvents : List EventRow
  mtEventsSequence : ℕ

def emptyTables : Tables where
  mtStreams _ := none
  mtEvents := []
  mtEventsSequence := 1

structure AppendCall where
  stream : Uuid
  streamType : Str
  eventIds : List Uuid
  eventTypes : List Str
  bodies : List Json

/-- Two rows that the unique constraints of `mt_events` admit together. -/
def EventRow.Compatible (r r' : EventRow) : Prop :=
  r.seqId ≠ r'.seqId ∧ r.id ≠ r'.id ∧
    ¬ (r.streamId = r'.streamId ∧ r.version = r'.version)

instance (r r' : EventRow) : Decidable (r.Compatible r') := by
  unfold EventRow.Compatible
  infer_instance

theorem EventRow.Compatible.symm {r r' : EventRow}
    (hcompatible : r.Compatible r') : r'.Compatible r := by
  obtain ⟨hseqId, hid, hversion⟩ := hcompatible
  refine ⟨hseqId.symm, hid.symm, ?_⟩
  rintro ⟨hstream, hv⟩
  exact hversion ⟨hstream.symm, hv.symm⟩

/-- The row for the event at an index of the arrays, `none` when an array has
no such index. -/
def AppendCall.row (call : AppendCall) (index seq version : ℕ)
    (now : Int64) : Option EventRow := do
  let eventId ← call.eventIds[index]?
  let eventType ← call.eventTypes[index]?
  let body ← call.bodies[index]?
  return {
    seqId := seq, id := eventId, streamId := call.stream, version
    data := body, type := eventType, timestamp := now }

/-- The `foreach` loop and the final update of `mt_append_event`. -/
def appendLoop (call : AppendCall) (now : Int64) :
    (remaining index version : ℕ) → Tables → Option Tables
  | 0, _, version, tables => some { tables with
      mtStreams := Function.update tables.mtStreams call.stream
        ((tables.mtStreams call.stream).map fun row =>
          { row with version, timestamp := now }) }
  | remaining + 1, index, version, tables => do
      let row ← call.row index tables.mtEventsSequence (version + 1) now
      if ∀ r ∈ tables.mtEvents, r.Compatible row then
        appendLoop call now remaining (index + 1) (version + 1) { tables with
          mtEvents := tables.mtEvents ++ [row]
          mtEventsSequence := tables.mtEventsSequence + 1 }
      else none

/-- `mt_append_event` run by itself; `none` when it raises. -/
def mtAppendEvent (call : AppendCall) (now : Int64) (tables : Tables) :
    Option Tables :=
  match tables.mtStreams call.stream with
  | some row =>
      appendLoop call now call.eventIds.length 0 row.version tables
  | none =>
      appendLoop call now call.eventIds.length 0 0 { tables with
        mtStreams := Function.update tables.mtStreams call.stream
          (some { type := call.streamType, version := 0, timestamp := now }) }

def groupCall (stream : Uuid) (events : List IEvent) (eventIds : List Uuid) :
    AppendCall where
  stream := stream
  streamType := (events.map IEvent.type).headD []
  eventIds := eventIds
  eventTypes := events.map IEvent.type
  bodies := events.map IEvent.data

structure AppendCall.Aligned (call : AppendCall) : Prop where
  types : call.eventTypes.length = call.eventIds.length
  bodies : call.bodies.length = call.eventIds.length

theorem groupCall_aligned {stream : Uuid} {events : List IEvent}
    {eventIds : List Uuid} (hlength : eventIds.length = events.length) :
    (groupCall stream events eventIds).Aligned := by
  constructor <;> simp [groupCall, hlength]

def AppendCall.payloads (call : AppendCall) : List (Str × Json) :=
  call.eventTypes.zip call.bodies

theorem groupCall_payloads (stream : Uuid) (events : List IEvent)
    (eventIds : List Uuid) :
    (groupCall stream events eventIds).payloads =
      events.map fun event => (event.type, event.data) := by
  simp [AppendCall.payloads, groupCall, List.zip_map']

theorem AppendCall.row_eq_some {call : AppendCall} {index seq version : ℕ}
    {now : Int64} {row : EventRow}
    (hrow : call.row index seq version now = some row) :
    call.eventIds[index]? = some row.id ∧
      call.payloads[index]? = some (row.type, row.data) ∧
      row.seqId = seq ∧ row.streamId = call.stream ∧
      row.version = version := by
  simp only [AppendCall.row, Option.bind_eq_bind, Option.bind_eq_some_iff,
    Option.pure_def, Option.some.injEq] at hrow
  obtain ⟨eventId, hid, eventType, htype, body, hbody, rfl⟩ := hrow
  refine ⟨hid, ?_, rfl, rfl, rfl⟩
  simp [AppendCall.payloads, List.getElem?_zip_eq_some, htype, hbody]

theorem appendLoop_mtEvents {call : AppendCall} (hcall : call.Aligned)
    {now : Int64} {remaining index version : ℕ} {tables next : Tables}
    (hindex : index + remaining = call.eventIds.length)
    (hloop : appendLoop call now remaining index version tables = some next) :
    ∃ rows, next.mtEvents = tables.mtEvents ++ rows ∧
      (∀ row ∈ rows, row.streamId = call.stream) ∧
      rows.map (fun row => (row.type, row.data)) =
        call.payloads.drop index := by
  induction remaining generalizing index version tables with
  | zero =>
      simp only [appendLoop, Option.some.injEq] at hloop
      subst next
      refine ⟨[], by simp, by simp, ?_⟩
      rw [List.drop_eq_nil_of_le]
      · rfl
      · simp only [AppendCall.payloads, List.length_zip, hcall.types,
          hcall.bodies]
        omega
  | succ remaining ih =>
      simp only [appendLoop, Option.bind_eq_bind,
        Option.bind_eq_some_iff] at hloop
      obtain ⟨row, hrow, hloop⟩ := hloop
      obtain ⟨_, hpayload, _, hstream, _⟩ := AppendCall.row_eq_some hrow
      split_ifs at hloop with hunique
      obtain ⟨rows, hevents, hstreams, hrows⟩ := ih (by omega) hloop
      refine ⟨row :: rows, by simp [hevents], ?_, ?_⟩
      · intro r hr
        rcases List.mem_cons.mp hr with rfl | hr
        · exact hstream
        · exact hstreams r hr
      · obtain ⟨hlt, hget⟩ := List.getElem?_eq_some_iff.mp hpayload
        rw [List.drop_eq_getElem_cons hlt, hget, List.map_cons, hrows]

theorem mtAppendEvent_mtEvents {call : AppendCall} (hcall : call.Aligned)
    {now : Int64} {tables next : Tables}
    (happend : mtAppendEvent call now tables = some next) :
    ∃ rows, next.mtEvents = tables.mtEvents ++ rows ∧
      (∀ row ∈ rows, row.streamId = call.stream) ∧
      rows.map (fun row => (row.type, row.data)) = call.payloads := by
  unfold mtAppendEvent at happend
  cases hstream : tables.mtStreams call.stream with
  | none =>
      rw [hstream] at happend
      simpa using appendLoop_mtEvents hcall (by omega) happend
  | some row =>
      rw [hstream] at happend
      simpa using appendLoop_mtEvents hcall (by omega) happend

end StoreCpp
