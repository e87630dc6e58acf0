import StoreCpp.AppendEvent

/-!
# One `mt_append_event` transaction among others

The statements of `mt_append_event` run one at a time, and each sees what is
committed when it runs.  What a transaction writes stays its own until it
commits: an inserted key waits for, or fails on, an equal key of any other
transaction, and an update waits for another update of the same row.  Both are
a step that is not enabled.
-/

namespace StoreCpp

inductive Stmt where
  | selectVersion
  | insertStream
  | nextval
  | insertEvent (seq : ℕ)
  | updateStream
  | commit
  deriving DecidableEq

/-- The variables of a running `mt_append_event` and its uncommitted
writes. -/
structure Txn where
  call : AppendCall
  now : Int64
  stmt : Stmt
  eventVersion : ℕ
  index : ℕ
  created : Bool
  inserted : List EventRow
  updated : Bool

def Txn.start (call : AppendCall) (now : Int64) : Txn where
  call := call
  now := now
  stmt := .selectVersion
  eventVersion := 0
  index := 0
  created := false
  inserted := []
  updated := false

/-- Go to the loop head: the next element of `event_ids`, or the update. -/
def Txn.loop (txn : Txn) : Txn :=
  { txn with
    stmt := if txn.index < txn.call.eventIds.length then .nextval
      else .updateStream }

def Txn.insert (txn : Txn) (row : EventRow) : Txn :=
  { txn with
    eventVersion := txn.eventVersion + 1
    index := txn.index + 1
    inserted := txn.inserted ++ [row] }

variable {ι : Type*} [Fintype ι]

def Txn.execute (others : ι → Option Txn) (txn : Txn) (tables : Tables) :
    Option (Tables × Txn) :=
  match txn.stmt with
  | .selectVersion =>
      match tables.mtStreams txn.call.stream with
      | some row => some (tables, { txn with eventVersion := row.version }.loop)
      | none => some (tables, { txn with stmt := .insertStream })
  | .insertStream =>
      if tables.mtStreams txn.call.stream = none ∧
          ∀ j, ∀ other ∈ others j,
            ¬ (other.created ∧ other.call.stream = txn.call.stream) then
        some (tables, { txn with created := true }.loop)
      else none
  | .nextval =>
      some ({ tables with mtEventsSequence := tables.mtEventsSequence + 1 },
        { txn with stmt := .insertEvent tables.mtEventsSequence })
  | .insertEvent seq => do
      let row ← txn.call.row txn.index seq (txn.eventVersion + 1) txn.now
      if (txn.created ∨ (tables.mtStreams txn.call.stream).isSome) ∧
          (∀ r ∈ tables.mtEvents, r.Compatible row) ∧
          (∀ r ∈ txn.inserted, r.Compatible row) ∧
          ∀ j, ∀ other ∈ others j, ∀ r ∈ other.inserted, r.Compatible row then
        some (tables, (txn.insert row).loop)
      else none
  | .updateStream =>
      if ∀ j, ∀ other ∈ others j,
          ¬ (other.updated ∧ other.call.stream = txn.call.stream) then
        some (tables, { txn with updated := true, stmt := .commit })
      else none
  | .commit => none

def Txn.streamRow (txn : Txn) (tables : Tables) : Option StreamRow :=
  if txn.created then some {
      type := txn.call.streamType
      version := txn.eventVersion
      timestamp := txn.now }
  else (tables.mtStreams txn.call.stream).map fun row =>
    { row with version := txn.eventVersion, timestamp := txn.now }

def Txn.commit (txn : Txn) (tables : Tables) : Tables where
  mtStreams := Function.update tables.mtStreams txn.call.stream
    (txn.streamRow tables)
  mtEvents := tables.mtEvents ++ txn.inserted
  mtEventsSequence := tables.mtEventsSequence

/-! ## Versions of a stream -/

def versionsOf (rows : List EventRow) (stream : Uuid) : List ℕ :=
  (rows.filter fun row => row.streamId = stream).map EventRow.version

/-- The version of a stream's row, 0 when there is none. -/
def Tables.version (tables : Tables) (stream : Uuid) : ℕ :=
  ((tables.mtStreams stream).map StreamRow.version).getD 0

/-- The rows of each stream have the versions from 1 to the version of the
stream, each of them once. -/
def Tables.Versioned (tables : Tables) : Prop :=
  ∀ stream, (versionsOf tables.mtEvents stream).Perm
    (List.range' 1 (tables.version stream))

def EventRow.payload (row : EventRow) : Str × Json := (row.type, row.data)

def IEvent.payload (event : IEvent) : Str × Json := (event.type, event.data)

/-- The rows have consecutive versions after the base and hold the events in
order. -/
structure RowsOf (stream : Uuid) (base : ℕ) (events : List IEvent)
    (rows : List EventRow) : Prop where
  streams : ∀ row ∈ rows, row.streamId = stream
  versions : rows.map EventRow.version = List.range' (base + 1) rows.length
  payloads : rows.map EventRow.payload = events.map IEvent.payload

/-- What holds of a running transaction that appends the given events: it has
read a version that is not above the committed one, and its rows continue from
there. -/
structure Txn.Sound (txn : Txn) (tables : Tables) (key : Str)
    (events : List IEvent) : Prop where
  call : ∃ stream eventIds, uuidIn key = some stream ∧
    eventIds.length = events.length ∧
      txn.call = groupCall stream events eventIds
  nonempty : events ≠ []
  base : ∃ base, txn.eventVersion = base + txn.index ∧
    base ≤ tables.version txn.call.stream ∧
      RowsOf txn.call.stream base (events.take txn.index) txn.inserted
  index_le : txn.index ≤ events.length
  unread : txn.stmt = .selectVersion ∨ txn.stmt = .insertStream →
    txn.index = 0 ∧ txn.eventVersion = 0
  reading : txn.stmt = .nextval ∨ (∃ seq, txn.stmt = .insertEvent seq) →
    txn.index < events.length
  complete : txn.stmt = .updateStream ∨ txn.stmt = .commit →
    txn.index = events.length
  visible : txn.stmt ≠ .selectVersion → txn.stmt ≠ .insertStream →
    txn.created ∨ (tables.mtStreams txn.call.stream).isSome
  apart : ∀ r ∈ tables.mtEvents, ∀ r' ∈ txn.inserted, r.Compatible r'
  distinct : txn.inserted.Pairwise EventRow.Compatible
  numbered : ∀ row ∈ txn.inserted, 0 < row.seqId
  next : ∀ seq, txn.stmt = .insertEvent seq → 0 < seq

structure Tables.Sound (tables : Tables) : Prop where
  versioned : tables.Versioned
  sequence : 0 < tables.mtEventsSequence
  distinct : tables.mtEvents.Pairwise EventRow.Compatible
  numbered : ∀ row ∈ tables.mtEvents, 0 < row.seqId

theorem RowsOf.length {stream : Uuid} {base : ℕ} {events : List IEvent}
    {rows : List EventRow} (hrows : RowsOf stream base events rows) :
    rows.length = events.length := by
  have hlength := congrArg List.length hrows.payloads
  simpa using hlength

theorem RowsOf.concat {stream : Uuid} {base : ℕ} {events : List IEvent}
    {event : IEvent} {rows : List EventRow} {row : EventRow}
    (hrows : RowsOf stream base events rows) (hstream : row.streamId = stream)
    (hversion : row.version = base + rows.length + 1)
    (hpayload : row.payload = event.payload) :
    RowsOf stream base (events ++ [event]) (rows ++ [row]) := by
  constructor
  · intro r hr
    rcases List.mem_append.mp hr with hr | hr
    · exact hrows.streams r hr
    · rw [List.mem_singleton.mp hr]
      exact hstream
  · rw [List.map_append, hrows.versions, List.length_append,
      List.length_singleton, List.range'_concat]
    simp [hversion]
    omega
  · simp [hrows.payloads, hpayload]

theorem rowsOf_nil (stream : Uuid) (base : ℕ) : RowsOf stream base [] [] :=
  ⟨by simp, rfl, rfl⟩

theorem RowsOf.eq_nil {stream : Uuid} {base : ℕ} {rows : List EventRow}
    (hrows : RowsOf stream base [] rows) : rows = [] :=
  List.eq_nil_of_length_eq_zero hrows.length

theorem Txn.start_sound {tables : Tables} {key : Str} {events : List IEvent}
    {stream : Uuid} {eventIds : List Uuid} (now : Int64)
    (hkey : uuidIn key = some stream)
    (hlength : eventIds.length = events.length) (hevents : events ≠ []) :
    (Txn.start (groupCall stream events eventIds) now).Sound tables key
      events where
  call := ⟨stream, eventIds, hkey, hlength, rfl⟩
  nonempty := hevents
  base := ⟨0, rfl, Nat.zero_le _, rowsOf_nil _ _⟩
  index_le := Nat.zero_le _
  unread := fun _ => ⟨rfl, rfl⟩
  reading := by simp [Txn.start]
  complete := by simp [Txn.start]
  visible := by simp [Txn.start]
  apart := by simp [Txn.start]
  distinct := List.Pairwise.nil
  numbered := by simp [Txn.start]
  next := by simp [Txn.start]

theorem Txn.Sound.of_rows_eq {txn : Txn} {tables tables' : Tables}
    {key : Str} {events : List IEvent} (hsound : txn.Sound tables key events)
    (hstreams : tables'.mtStreams = tables.mtStreams)
    (hevents : tables'.mtEvents = tables.mtEvents) :
    txn.Sound tables' key events := by
  have hversion : tables'.version = tables.version := by
    funext stream
    rw [Tables.version, Tables.version, hstreams]
  exact {
    call := hsound.call
    nonempty := hsound.nonempty
    base := hversion ▸ hsound.base
    index_le := hsound.index_le
    unread := hsound.unread
    reading := hsound.reading
    complete := hsound.complete
    visible := hstreams ▸ hsound.visible
    apart := hevents ▸ hsound.apart
    distinct := hsound.distinct
    numbered := hsound.numbered
    next := hsound.next }

theorem Txn.Sound.payloads {txn : Txn} {tables : Tables} {key : Str}
    {events : List IEvent} (hsound : txn.Sound tables key events) :
    txn.call.payloads = events.map IEvent.payload := by
  obtain ⟨stream, eventIds, _, _, hcall⟩ := hsound.call
  rw [hcall, groupCall_payloads]
  rfl

theorem Txn.loop_sound {txn : Txn} {tables : Tables} {key : Str}
    {events : List IEvent}
    (hcall : ∃ stream eventIds, uuidIn key = some stream ∧
      eventIds.length = events.length ∧
        txn.call = groupCall stream events eventIds)
    (hnonempty : events ≠ [])
    (hbase : ∃ base, txn.eventVersion = base + txn.index ∧
      base ≤ tables.version txn.call.stream ∧
        RowsOf txn.call.stream base (events.take txn.index) txn.inserted)
    (hindex : txn.index ≤ events.length)
    (hvisible : txn.created ∨ (tables.mtStreams txn.call.stream).isSome)
    (hapart : ∀ r ∈ tables.mtEvents, ∀ r' ∈ txn.inserted, r.Compatible r')
    (hdistinct : txn.inserted.Pairwise EventRow.Compatible)
    (hnumbered : ∀ row ∈ txn.inserted, 0 < row.seqId) :
    txn.loop.Sound tables key events := by
  have hlength : txn.call.eventIds.length = events.length := by
    obtain ⟨stream, eventIds, _, hlength, hcallEq⟩ := hcall
    rw [hcallEq]
    exact hlength
  have hstmt : txn.loop.stmt = if txn.index < events.length then .nextval
      else .updateStream := by
    rw [← hlength]
    rfl
  refine ⟨hcall, hnonempty, hbase, hindex, ?_, ?_, ?_, ?_, hapart, hdistinct,
    hnumbered, ?_⟩
  · rw [hstmt]
    split_ifs <;> simp
  · rw [hstmt]
    split_ifs with hlt
    · exact fun _ => hlt
    · simp
  · rw [hstmt]
    split_ifs with hlt
    · simp
    · exact fun _ => le_antisymm hindex (Nat.le_of_not_lt hlt)
  · exact fun _ _ => hvisible
  · rw [hstmt]
    split_ifs <;> simp

/-- What a statement can do. -/
inductive Txn.Executes (others : ι → Option Txn) (txn : Txn)
    (tables : Tables) : Tables → Txn → Prop where
  | found (row : StreamRow) (hstmt : txn.stmt = .selectVersion)
      (hstream : tables.mtStreams txn.call.stream = some row) :
      Executes others txn tables tables
        { txn with eventVersion := row.version }.loop
  | missing (hstmt : txn.stmt = .selectVersion)
      (hstream : tables.mtStreams txn.call.stream = none) :
      Executes others txn tables tables { txn with stmt := .insertStream }
  | insertStream (hstmt : txn.stmt = .insertStream) :
      Executes others txn tables tables { txn with created := true }.loop
  | nextval (hstmt : txn.stmt = .nextval) :
      Executes others txn tables
        { tables with mtEventsSequence := tables.mtEventsSequence + 1 }
        { txn with stmt := .insertEvent tables.mtEventsSequence }
  | insertEvent (seq : ℕ) (row : EventRow) (hstmt : txn.stmt = .insertEvent seq)
      (hrow : txn.call.row txn.index seq (txn.eventVersion + 1) txn.now =
        some row)
      (hvisible : txn.created ∨ (tables.mtStreams txn.call.stream).isSome)
      (hcommitted : ∀ r ∈ tables.mtEvents, r.Compatible row)
      (hinserted : ∀ r ∈ txn.inserted, r.Compatible row)
      (hothers : ∀ j, ∀ other ∈ others j, ∀ r ∈ other.inserted,
        r.Compatible row) :
      Executes others txn tables tables (txn.insert row).loop
  | updateStream (hstmt : txn.stmt = .updateStream) :
      Executes others txn tables tables
        { txn with updated := true, stmt := .commit }

theorem Txn.executes_of_execute {others : ι → Option Txn} {txn txn' : Txn}
    {tables tables' : Tables}
    (hexecute : txn.execute others tables = some (tables', txn')) :
    txn.Executes others tables tables' txn' := by
  unfold Txn.execute at hexecute
  cases hstmt : txn.stmt with
  | selectVersion =>
      rw [hstmt] at hexecute
      cases hstream : tables.mtStreams txn.call.stream with
      | some row =>
          simp only [hstream, Option.some.injEq, Prod.mk.injEq] at hexecute
          obtain ⟨rfl, rfl⟩ := hexecute
          exact .found row hstmt hstream
      | none =>
          simp only [hstream, Option.some.injEq, Prod.mk.injEq] at hexecute
          obtain ⟨rfl, rfl⟩ := hexecute
          exact .missing hstmt hstream
  | insertStream =>
      simp only [hstmt] at hexecute
      split_ifs at hexecute
      simp only [Option.some.injEq, Prod.mk.injEq] at hexecute
      obtain ⟨rfl, rfl⟩ := hexecute
      exact .insertStream hstmt
  | nextval =>
      simp only [hstmt, Option.some.injEq, Prod.mk.injEq] at hexecute
      obtain ⟨rfl, rfl⟩ := hexecute
      exact .nextval hstmt
  | insertEvent seq =>
      simp only [hstmt, Option.bind_eq_bind,
        Option.bind_eq_some_iff] at hexecute
      obtain ⟨row, hrow, hexecute⟩ := hexecute
      split_ifs at hexecute with hguard
      simp only [Option.some.injEq, Prod.mk.injEq] at hexecute
      obtain ⟨rfl, rfl⟩ := hexecute
      obtain ⟨hvisible, hcommitted, hinserted, hothers⟩ := hguard
      exact .insertEvent seq row hstmt hrow hvisible hcommitted hinserted
        hothers
  | updateStream =>
      simp only [hstmt] at hexecute
      split_ifs at hexecute
      simp only [Option.some.injEq, Prod.mk.injEq] at hexecute
      obtain ⟨rfl, rfl⟩ := hexecute
      exact .updateStream hstmt
  | commit => simp [hstmt] at hexecute

/-- The row for the next event continues the inserted rows. -/
theorem Txn.Sound.insert_rows {txn : Txn} {tables : Tables} {key : Str}
    {events : List IEvent} {base seq : ℕ} {row : EventRow}
    (hsound : txn.Sound tables key events)
    (hversion : txn.eventVersion = base + txn.index)
    (hrows : RowsOf txn.call.stream base (events.take txn.index) txn.inserted)
    (hrow : txn.call.row txn.index seq (txn.eventVersion + 1) txn.now =
      some row) :
    RowsOf txn.call.stream base (events.take (txn.index + 1))
      (txn.inserted ++ [row]) := by
  obtain ⟨_, hpayload, _, hrowStream, hrowVersion⟩ :=
    AppendCall.row_eq_some hrow
  rw [hsound.payloads, List.getElem?_map] at hpayload
  obtain ⟨event, hevent, heq⟩ := Option.map_eq_some_iff.mp hpayload
  have htake : events.take (txn.index + 1) =
      events.take txn.index ++ [event] := by
    rw [List.take_add_one, hevent]
    rfl
  have hlength : txn.inserted.length = txn.index := by
    rw [hrows.length, List.length_take, Nat.min_eq_left hsound.index_le]
  rw [htake]
  exact hrows.concat hrowStream (by omega) heq.symm

/-- The loop after a version has been read. -/
theorem Txn.Sound.found {txn : Txn} {tables : Tables} {key : Str}
    {events : List IEvent} {row : StreamRow}
    (hsound : txn.Sound tables key events) (hstmt : txn.stmt = .selectVersion)
    (hstream : tables.mtStreams txn.call.stream = some row) :
    Txn.Sound { txn with eventVersion := row.version }.loop tables key
      events := by
  obtain ⟨base, _, _, hrows⟩ := hsound.base
  obtain ⟨hindex, _⟩ := hsound.unread (Or.inl hstmt)
  have hinserted : txn.inserted = [] := by
    rw [hindex, List.take_zero] at hrows
    exact hrows.eq_nil
  refine Txn.loop_sound hsound.call hsound.nonempty
    ⟨row.version, ?_, ?_, ?_⟩ hsound.index_le ?_ hsound.apart
    hsound.distinct hsound.numbered
  · simp [hindex]
  · simp [Tables.version, hstream]
  · simp only [hindex, hinserted]
    exact rowsOf_nil _ _
  · simp [hstream]

/-- The loop after a row has been inserted. -/
theorem Txn.Sound.inserted {txn : Txn} {tables : Tables} {key : Str}
    {events : List IEvent} {seq : ℕ} {row : EventRow}
    (hsound : txn.Sound tables key events) (hstmt : txn.stmt = .insertEvent seq)
    (hrow : txn.call.row txn.index seq (txn.eventVersion + 1) txn.now =
      some row)
    (hvisible : txn.created ∨ (tables.mtStreams txn.call.stream).isSome)
    (hcommitted : ∀ r ∈ tables.mtEvents, r.Compatible row)
    (hinserted : ∀ r ∈ txn.inserted, r.Compatible row) :
    (txn.insert row).loop.Sound tables key events := by
  obtain ⟨base, hversion, hbase, hrows⟩ := hsound.base
  have hlt := hsound.reading (Or.inr ⟨seq, hstmt⟩)
  have hrowSeq := (AppendCall.row_eq_some hrow).2.2.1
  refine Txn.loop_sound hsound.call hsound.nonempty
    ⟨base, ?_, hbase, hsound.insert_rows hversion hrows hrow⟩
    hlt hvisible ?_ ?_ ?_
  · simp only [Txn.insert, hversion]
    omega
  · intro r hr r' hr'
    rcases List.mem_append.mp hr' with hr' | hr'
    · exact hsound.apart r hr r' hr'
    · rw [List.mem_singleton.mp hr']
      exact hcommitted r hr
  · refine List.pairwise_append.mpr ⟨hsound.distinct, by simp, ?_⟩
    intro r hr r' hr'
    rw [List.mem_singleton.mp hr']
    exact hinserted r hr
  · intro r hr
    rcases List.mem_append.mp hr with hr | hr
    · exact hsound.numbered r hr
    · rw [List.mem_singleton.mp hr, hrowSeq]
      exact hsound.next seq hstmt

theorem Txn.execute_sound {others : ι → Option Txn} {txn txn' : Txn}
    {tables tables' : Tables} {key : Str} {events : List IEvent}
    (hsound : txn.Sound tables key events)
    (hsequence : 0 < tables.mtEventsSequence)
    (hexecute : txn.execute others tables = some (tables', txn')) :
    txn'.Sound tables' key events := by
  cases Txn.executes_of_execute hexecute with
  | found row hstmt hstream => exact hsound.found hstmt hstream
  | missing hstmt hstream =>
      exact {
        hsound with
        unread := fun _ => hsound.unread (Or.inl hstmt)
        reading := by simp
        complete := by simp
        visible := by simp
        next := by simp }
  | insertStream hstmt =>
      exact Txn.loop_sound hsound.call hsound.nonempty hsound.base
        hsound.index_le (Or.inl rfl) hsound.apart hsound.distinct
        hsound.numbered
  | nextval hstmt =>
      have hreading := hsound.reading (Or.inl hstmt)
      have hvisible := hsound.visible (by simp [hstmt]) (by simp [hstmt])
      exact {
        hsound with
        unread := by simp
        reading := fun _ => hreading
        complete := by simp
        visible := fun _ _ => hvisible
        next := by simpa using hsequence }
  | insertEvent seq row hstmt hrow hvisible hcommitted hinserted _ =>
      exact hsound.inserted hstmt hrow hvisible hcommitted hinserted
  | updateStream hstmt =>
      have hcomplete := hsound.complete (Or.inl hstmt)
      have hvisible := hsound.visible (by simp [hstmt]) (by simp [hstmt])
      exact {
        hsound with
        unread := by simp
        reading := by simp
        complete := fun _ => hcomplete
        visible := fun _ _ => hvisible
        next := by simp }

/-- A statement changes no row of the tables, and what it inserts is
compatible with what the other transactions have inserted. -/
theorem Txn.execute_frame {others : ι → Option Txn} {txn txn' : Txn}
    {tables tables' : Tables}
    (hexecute : txn.execute others tables = some (tables', txn')) :
    tables'.mtStreams = tables.mtStreams ∧
      tables'.mtEvents = tables.mtEvents ∧
      tables.mtEventsSequence ≤ tables'.mtEventsSequence ∧
      ∀ r ∈ txn'.inserted, r ∈ txn.inserted ∨
        ∀ j, ∀ other ∈ others j, ∀ r' ∈ other.inserted, r'.Compatible r := by
  cases Txn.executes_of_execute hexecute with
  | found | missing | insertStream | updateStream =>
      exact ⟨rfl, rfl, le_refl _, fun r hr => Or.inl hr⟩
  | nextval => exact ⟨rfl, rfl, Nat.le_succ _, fun r hr => Or.inl hr⟩
  | insertEvent seq row hstmt hrow hvisible hcommitted hinserted hothers =>
      refine ⟨rfl, rfl, le_refl _, fun r hr => ?_⟩
      rcases List.mem_append.mp hr with hr | hr
      · exact Or.inl hr
      · rw [List.mem_singleton.mp hr]
        exact Or.inr hothers

theorem Tables.Sound.execute {others : ι → Option Txn} {txn txn' : Txn}
    {tables tables' : Tables} (htables : tables.Sound)
    (hexecute : txn.execute others tables = some (tables', txn')) :
    tables'.Sound := by
  obtain ⟨hstreams, hevents, hsequence, _⟩ := Txn.execute_frame hexecute
  refine ⟨?_, by have := htables.sequence; omega, ?_, ?_⟩
  · intro stream
    have hversion := htables.versioned stream
    rw [Tables.version] at hversion ⊢
    rwa [hstreams, hevents]
  · rw [hevents]
    exact htables.distinct
  · rw [hevents]
    exact htables.numbered

/-! ## Commits -/

theorem versionsOf_append (rows rows' : List EventRow) (stream : Uuid) :
    versionsOf (rows ++ rows') stream =
      versionsOf rows stream ++ versionsOf rows' stream := by
  simp [versionsOf]

theorem RowsOf.versionsOf_self {stream : Uuid} {base : ℕ}
    {events : List IEvent} {rows : List EventRow}
    (hrows : RowsOf stream base events rows) :
    versionsOf rows stream = List.range' (base + 1) rows.length := by
  have hfilter : rows.filter (fun row => row.streamId = stream) = rows := by
    rw [List.filter_eq_self]
    intro row hrow
    simpa using hrows.streams row hrow
  rw [versionsOf, hfilter, hrows.versions]

theorem RowsOf.versionsOf_other {stream other : Uuid} {base : ℕ}
    {events : List IEvent} {rows : List EventRow}
    (hrows : RowsOf stream base events rows) (hne : other ≠ stream) :
    versionsOf rows other = [] := by
  have hfilter : rows.filter (fun row => row.streamId = other) = [] := by
    rw [List.filter_eq_nil_iff]
    intro row hrow
    have hstream := hrows.streams row hrow
    simpa [hstream] using hne.symm
  rw [versionsOf, hfilter]
  rfl

/-- When a transaction is about to commit, the version it has read is still
the committed one: a later committed row would have the version of the
transaction's first row. -/
theorem Txn.Sound.base_eq {txn : Txn} {tables : Tables} {key : Str}
    {events : List IEvent} (hsound : txn.Sound tables key events)
    (hversioned : tables.Versioned) (hstmt : txn.stmt = .commit) :
    txn.eventVersion = tables.version txn.call.stream + events.length ∧
      RowsOf txn.call.stream (tables.version txn.call.stream) events
        txn.inserted := by
  obtain ⟨base, hversion, hbase, hrows⟩ := hsound.base
  have hindex := hsound.complete (Or.inr hstmt)
  rw [hindex, List.take_length] at hrows
  have hpos := List.length_pos_iff.mpr hsound.nonempty
  have hlength := hrows.length
  have heq : base = tables.version txn.call.stream := by
    by_contra hne
    have hmem : base + 1 ∈ versionsOf tables.mtEvents txn.call.stream := by
      rw [(hversioned txn.call.stream).mem_iff, List.mem_range'_1]
      omega
    obtain ⟨row, hrow, hrowVersion⟩ := List.mem_map.mp hmem
    obtain ⟨hcommitted, hrowStream⟩ := List.mem_filter.mp hrow
    have hown : base + 1 ∈ txn.inserted.map EventRow.version := by
      rw [hrows.versions, List.mem_range'_1]
      omega
    obtain ⟨row', hrow', hrowVersion'⟩ := List.mem_map.mp hown
    have hcompatible := hsound.apart row hcommitted row' hrow'
    have hstream := hrows.streams row' hrow'
    apply hcompatible.2.2
    rw [hstream, hrowVersion, hrowVersion']
    simpa using hrowStream
  rw [← heq]
  exact ⟨by omega, hrows⟩

theorem Txn.commit_mtStreams_self (txn : Txn) (tables : Tables) :
    (txn.commit tables).mtStreams txn.call.stream = txn.streamRow tables :=
  Function.update_self ..

theorem Txn.commit_mtStreams_of_ne {txn : Txn} {stream : Uuid}
    (hne : stream ≠ txn.call.stream) (tables : Tables) :
    (txn.commit tables).mtStreams stream = tables.mtStreams stream :=
  Function.update_of_ne hne ..

theorem Txn.Sound.streamRow_version {txn : Txn} {tables : Tables}
    {key : Str} {events : List IEvent}
    (hsound : txn.Sound tables key events) (hstmt : txn.stmt = .commit) :
    (txn.streamRow tables).map StreamRow.version =
      some txn.eventVersion := by
  unfold Txn.streamRow
  split_ifs with hcreated
  · rfl
  · have hvisible := hsound.visible (by simp [hstmt]) (by simp [hstmt])
    obtain ⟨row, hrow⟩ := Option.isSome_iff_exists.mp
      (hvisible.resolve_left hcreated)
    simp [hrow]

theorem Txn.commit_version {txn : Txn} {tables : Tables} {key : Str}
    {events : List IEvent} (hsound : txn.Sound tables key events)
    (hversioned : tables.Versioned) (hstmt : txn.stmt = .commit)
    (stream : Uuid) :
    (txn.commit tables).version stream =
      if stream = txn.call.stream then tables.version stream + events.length
      else tables.version stream := by
  by_cases heq : stream = txn.call.stream
  · rw [if_pos heq, heq]
    rw [Tables.version, Txn.commit_mtStreams_self,
      hsound.streamRow_version hstmt]
    exact (hsound.base_eq hversioned hstmt).1
  · rw [if_neg heq, Tables.version, Txn.commit_mtStreams_of_ne heq]
    rfl

/-- A commit keeps the versions of every stream gapless. -/
theorem Txn.commit_versioned {txn : Txn} {tables : Tables} {key : Str}
    {events : List IEvent} (hsound : txn.Sound tables key events)
    (hversioned : tables.Versioned) (hstmt : txn.stmt = .commit) :
    (txn.commit tables).Versioned := by
  intro stream
  have hrows := (hsound.base_eq hversioned hstmt).2
  rw [Txn.commit_version hsound hversioned hstmt]
  have hevents : (txn.commit tables).mtEvents =
      tables.mtEvents ++ txn.inserted := rfl
  rw [hevents, versionsOf_append]
  split_ifs with heq
  · subst heq
    rw [hrows.versionsOf_self, hrows.length, ← List.range'_append_1,
      Nat.add_comm 1]
    exact (hversioned _).append_right _
  · rw [hrows.versionsOf_other heq, List.append_nil]
    exact hversioned stream

theorem Tables.Sound.commit {txn : Txn} {tables : Tables} {key : Str}
    {events : List IEvent} (htables : tables.Sound)
    (hsound : txn.Sound tables key events) (hstmt : txn.stmt = .commit) :
    (txn.commit tables).Sound where
  versioned := Txn.commit_versioned hsound htables.versioned hstmt
  sequence := htables.sequence
  distinct := List.pairwise_append.mpr
    ⟨htables.distinct, hsound.distinct, hsound.apart⟩
  numbered := fun row hrow =>
    (List.mem_append.mp hrow).elim (htables.numbered row) (hsound.numbered row)

theorem Txn.Sound.commit_other {txn other : Txn} {tables : Tables}
    {key otherKey : Str} {events otherEvents : List IEvent}
    (hother : other.Sound tables otherKey otherEvents)
    (hsound : txn.Sound tables key events) (hversioned : tables.Versioned)
    (hstmt : txn.stmt = .commit)
    (hapart : ∀ r ∈ txn.inserted, ∀ r' ∈ other.inserted, r.Compatible r') :
    other.Sound (txn.commit tables) otherKey otherEvents := by
  obtain ⟨base, hversion, hbase, hrows⟩ := hother.base
  refine {
    hother with
    base := ⟨base, hversion, le_trans hbase ?_, hrows⟩
    visible := ?_
    apart := ?_ }
  · rw [Txn.commit_version hsound hversioned hstmt]
    split_ifs <;> omega
  · intro hselect hinsert
    rcases hother.visible hselect hinsert with hcreated | hsome
    · exact Or.inl hcreated
    · right
      by_cases heq : other.call.stream = txn.call.stream
      · have hrow := congrArg Option.isSome (hsound.streamRow_version hstmt)
        rw [heq, Txn.commit_mtStreams_self]
        simpa using hrow
      · rw [Txn.commit_mtStreams_of_ne heq]
        exact hsome
  · intro r hr r' hr'
    rcases List.mem_append.mp hr with hr | hr
    · exact hother.apart r hr r' hr'
    · exact hapart r hr r' hr'

/-! ## A transaction by itself -/

theorem Txn.execute_insertEvent {others : ι → Option Txn} {txn : Txn}
    {tables : Tables} {seq : ℕ} {row : EventRow}
    (hstmt : txn.stmt = .insertEvent seq)
    (hrow : txn.call.row txn.index seq (txn.eventVersion + 1) txn.now =
      some row)
    (hvisible : txn.created ∨ (tables.mtStreams txn.call.stream).isSome)
    (hcommitted : ∀ r ∈ tables.mtEvents, r.Compatible row)
    (hinserted : ∀ r ∈ txn.inserted, r.Compatible row)
    (hothers : ∀ j, ∀ other ∈ others j, ∀ r ∈ other.inserted,
      r.Compatible row) :
    txn.execute others tables = some (tables, (txn.insert row).loop) := by
  unfold Txn.execute
  rw [hstmt]
  simp only [hrow, Option.bind_eq_bind, Option.bind_some]
  exact if_pos ⟨hvisible, hcommitted, hinserted, hothers⟩

/-- One statement of a transaction beside which no other one is open. -/
def AloneStep (before after : Tables × Txn) : Prop :=
  before.2.execute (fun _ : Empty => none) before.1 = some after

/-- The tables of `mt_append_event` in its loop are those of the transaction
with its own writes. -/
structure Txn.Shows (txn : Txn) (tables shown : Tables) : Prop where
  events : shown.mtEvents = tables.mtEvents ++ txn.inserted
  sequence : shown.mtEventsSequence = tables.mtEventsSequence
  streams : shown.mtStreams =
    if txn.created then Function.update tables.mtStreams txn.call.stream (some {
      type := txn.call.streamType, version := 0, timestamp := txn.now })
    else tables.mtStreams
  visible : txn.created ∨ (tables.mtStreams txn.call.stream).isSome

theorem Txn.Shows.commit {txn : Txn} {tables shown : Tables}
    (hshows : txn.Shows tables shown) :
    txn.commit tables = { shown with
      mtStreams := Function.update shown.mtStreams txn.call.stream
        ((shown.mtStreams txn.call.stream).map fun row =>
          { row with version := txn.eventVersion, timestamp := txn.now }) } := by
  rw [Txn.commit, hshows.events, hshows.sequence, hshows.streams,
    Txn.streamRow]
  split_ifs with hcreated
  · rw [Function.update_self, Function.update_idem]
    rfl
  · rfl

/-- One turn of the loop: the sequence is drawn from and the row inserted. -/
theorem Txn.Shows.insertsRow {txn : Txn} {tables shown : Tables}
    {row : EventRow} (hshows : txn.Shows tables shown)
    (hmore : txn.index < txn.call.eventIds.length)
    (hrow : txn.call.row txn.index shown.mtEventsSequence
      (txn.eventVersion + 1) txn.now = some row)
    (hunique : ∀ r ∈ shown.mtEvents, r.Compatible row) :
    ∃ drawn txn', Relation.ReflTransGen AloneStep (tables, txn.loop)
        (drawn, Txn.loop txn') ∧
      txn'.call = txn.call ∧ txn'.now = txn.now ∧
      txn'.index = txn.index + 1 ∧
      txn'.eventVersion = txn.eventVersion + 1 ∧
      txn'.Shows drawn { shown with
        mtEvents := shown.mtEvents ++ [row]
        mtEventsSequence := shown.mtEventsSequence + 1 } := by
  rw [hshows.sequence] at hrow
  rw [hshows.events] at hunique
  let drawn : Tables :=
    { tables with mtEventsSequence := tables.mtEventsSequence + 1 }
  let inserting : Txn :=
    { txn.loop with stmt := .insertEvent tables.mtEventsSequence }
  have hnextval : AloneStep (tables, txn.loop) (drawn, inserting) := by
    simp [AloneStep, Txn.execute, Txn.loop, hmore, drawn, inserting]
  have hcommitted : ∀ r ∈ tables.mtEvents, r.Compatible row :=
    fun r hr => hunique r (List.mem_append_left _ hr)
  have hinserted : ∀ r ∈ txn.inserted, r.Compatible row :=
    fun r hr => hunique r (List.mem_append_right _ hr)
  have hinsert : AloneStep (drawn, inserting)
      (drawn, (inserting.insert row).loop) := by
    exact Txn.execute_insertEvent rfl hrow hshows.visible hcommitted
      hinserted fun j => j.elim
  refine ⟨drawn, inserting.insert row, ?_, rfl, rfl, rfl, rfl, ?_, ?_,
    hshows.streams, hshows.visible⟩
  · exact Relation.ReflTransGen.head hnextval
      (Relation.ReflTransGen.single hinsert)
  · rw [hshows.events, List.append_assoc]
    rfl
  · rw [hshows.sequence]

theorem appendLoop_alone {call : AppendCall} {now : Int64}
    {remaining index version : ℕ} {shown next tables : Tables} {txn : Txn}
    (hcall : txn.call = call) (hnow : txn.now = now)
    (hindex : txn.index = index) (hversion : txn.eventVersion = version)
    (hremaining : index + remaining = call.eventIds.length)
    (hshows : txn.Shows tables shown)
    (hloop : appendLoop call now remaining index version shown = some next) :
    ∃ tables' txn', Relation.ReflTransGen AloneStep (tables, txn.loop)
      (tables', txn') ∧ txn'.stmt = .commit ∧ txn'.commit tables' = next := by
  subst hcall hnow hindex hversion
  induction remaining generalizing txn shown tables with
  | zero =>
      have hdone : ¬ txn.index < txn.call.eventIds.length := by omega
      refine ⟨tables, { txn with updated := true, stmt := .commit },
        Relation.ReflTransGen.single ?_, rfl, ?_⟩
      · simp [AloneStep, Txn.execute, Txn.loop, hdone]
      · simp only [appendLoop, Option.some.injEq] at hloop
        rw [← hloop, ← hshows.commit]
        rfl
  | succ remaining ih =>
      have hmore : txn.index < txn.call.eventIds.length := by omega
      simp only [appendLoop, Option.bind_eq_bind,
        Option.bind_eq_some_iff] at hloop
      obtain ⟨row, hrow, hloop⟩ := hloop
      split_ifs at hloop with hunique
      obtain ⟨drawn, inserted, hruns, hcall, hnow, hindex, hversion,
        hinserted⟩ := hshows.insertsRow hmore hrow hunique
      have hleft : inserted.index + remaining =
          inserted.call.eventIds.length := by
        rw [hindex, hcall]
        omega
      rw [← hcall, ← hnow, ← hindex, ← hversion] at hloop
      obtain ⟨tables', txn', hrest, hstmt, hcommit⟩ :=
        ih hinserted hleft hloop
      exact ⟨tables', txn', hruns.trans hrest, hstmt, hcommit⟩

/-- What `mt_append_event` does by itself is a run of its statements with no
other transaction open, and the commit. -/
theorem mtAppendEvent_alone {call : AppendCall} {now : Int64}
    {tables next : Tables}
    (happend : mtAppendEvent call now tables = some next) :
    ∃ tables' txn', Relation.ReflTransGen AloneStep
      (tables, Txn.start call now) (tables', txn') ∧
        txn'.stmt = .commit ∧ txn'.commit tables' = next := by
  unfold mtAppendEvent at happend
  cases hstream : tables.mtStreams call.stream with
  | some row =>
      rw [hstream] at happend
      let found : Txn := { Txn.start call now with eventVersion := row.version }
      have hselect : AloneStep (tables, Txn.start call now)
          (tables, found.loop) := by
        simp [AloneStep, Txn.execute, Txn.start, found, hstream]
      have hshows : found.Shows tables tables :=
        ⟨(List.append_nil _).symm, rfl, rfl, Or.inr (by simp [found,
          Txn.start, hstream])⟩
      obtain ⟨tables', txn', hruns, hstmt, hcommit⟩ :=
        appendLoop_alone rfl rfl rfl rfl (Nat.zero_add _) hshows happend
      exact ⟨tables', txn', hruns.head hselect, hstmt, hcommit⟩
  | none =>
      rw [hstream] at happend
      let created : Txn := { Txn.start call now with created := true }
      have hselect : AloneStep (tables, Txn.start call now)
          (tables, { Txn.start call now with stmt := .insertStream }) := by
        simp [AloneStep, Txn.execute, Txn.start, hstream]
      have hinsert : AloneStep
          (tables, { Txn.start call now with stmt := .insertStream })
          (tables, created.loop) := by
        simp [AloneStep, Txn.execute, Txn.start, created, hstream]
        rfl
      have hshows : created.Shows tables { tables with
          mtStreams := Function.update tables.mtStreams call.stream (some {
            type := call.streamType, version := 0, timestamp := now }) } :=
        ⟨(List.append_nil _).symm, rfl, rfl, Or.inl rfl⟩
      obtain ⟨tables', txn', hruns, hstmt, hcommit⟩ :=
        appendLoop_alone rfl rfl rfl rfl (Nat.zero_add _) hshows happend
      exact ⟨tables', txn', (hruns.head hinsert).head hselect, hstmt, hcommit⟩

end StoreCpp
