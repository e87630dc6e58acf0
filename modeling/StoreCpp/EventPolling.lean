import StoreCpp.EventSearch

/-!
# Polling the events of a type

The `select` of a search has a limit and no order, so the server may answer it
with any selection of the matching rows that is as large as the limit allows,
in any order.  A client polls by moving its cursor to the largest sequence
number of each batch until a batch is empty.
-/

namespace StoreCpp

/-- The rows of `mt_events`: their sequence numbers are a primary key and fit
in a `bigint`. -/
structure EventsTable where
  rows : List EventRow
  primaryKey : (rows.map EventRow.seqId).Nodup
  bigint : ∀ row ∈ rows, row.seqId < 2 ^ 63

def hexDigits : List Char := "0123456789abcdef".toList

def uuidOut (u : Uuid) : Str :=
  (List.range 32).flatMap fun i =>
    (if i ∈ [8, 12, 16, 20] then ['-'] else []) ++
      [hexDigits.getD (u.toNat / 16 ^ (31 - i) % 16) '0']

def EventRow.toIEvent (row : EventRow) : IEvent where
  seqId := Int64.ofNat row.seqId
  id := uuidOut row.id
  streamId := uuidOut row.streamId
  type := row.type
  version := Int64.ofNat row.version
  data := row.data
  timestamp := row.timestamp

/-- The `where` clause of the search with its default arguments. -/
def matching (type : Str) (fromSeqId : ℤ) (rows : List EventRow) :
    List EventRow :=
  rows.filter fun row => row.type = type ∧ fromSeqId < row.seqId

/-- What `Search` may return. -/
def SearchReturns (table : EventsTable) (type : LiteralText) (fromSeqId : Int64)
    (limit : Int32) (batch : List IEvent) : Prop :=
  ∃ selected : List EventRow, batch = selected.map EventRow.toIEvent ∧
    selected.Subperm (matching type.text fromSeqId.toInt table.rows) ∧
    (selected.length : ℤ) =
      min limit.toInt (matching type.text fromSeqId.toInt table.rows).length

def largestSeqId (cursor : Int64) (batch : List IEvent) : Int64 :=
  batch.foldl (fun largest e => if largest < e.seqId then e.seqId else largest)
    cursor

inductive PollReturns (table : EventsTable) (type : LiteralText) (limit : Int32) :
    Int64 → List IEvent → Prop where
  | done (cursor : Int64)
      (hsearch : SearchReturns table type cursor limit []) :
      PollReturns table type limit cursor []
  | more (cursor : Int64) (batch rest : List IEvent)
      (hsearch : SearchReturns table type cursor limit batch)
      (hbatch : batch ≠ [])
      (hrest : PollReturns table type limit (largestSeqId cursor batch) rest) :
      PollReturns table type limit cursor (batch ++ rest)

/-- Polling can come to an end, and however it does, each matching event has
been received exactly once. -/
def PollsExactlyOnce (table : EventsTable) (type : LiteralText) (limit : Int32)
    (cursor : Int64) : Prop :=
  (∃ received, PollReturns table type limit cursor received) ∧
    ∀ received, PollReturns table type limit cursor received →
      received.Perm ((matching type.text cursor.toInt table.rows).map EventRow.toIEvent)

theorem largestSeqId_cons (cursor : Int64) (e : IEvent) (batch : List IEvent) :
    largestSeqId cursor (e :: batch) =
      largestSeqId (if cursor < e.seqId then e.seqId else cursor) batch := rfl

theorem largestSeqId_spec (cursor : Int64) (batch : List IEvent) :
    cursor.toInt ≤ (largestSeqId cursor batch).toInt ∧
      ∀ e ∈ batch, e.seqId.toInt ≤ (largestSeqId cursor batch).toInt := by
  induction batch generalizing cursor with
  | nil => exact ⟨le_refl _, by simp⟩
  | cons e batch ih =>
      rw [largestSeqId_cons]
      split_ifs with hlt
      · have hle := Int64.lt_iff_toInt_lt.mp hlt
        obtain ⟨hfirst, hrest⟩ := ih e.seqId
        refine ⟨by omega, List.forall_mem_cons.mpr ⟨hfirst, hrest⟩⟩
      · have hle := mt Int64.lt_iff_toInt_lt.mpr hlt
        obtain ⟨hfirst, hrest⟩ := ih cursor
        refine ⟨hfirst, List.forall_mem_cons.mpr ⟨by omega, hrest⟩⟩

theorem EventsTable.toInt_seqId {table : EventsTable} {row : EventRow}
    (hrow : row ∈ table.rows) : row.toIEvent.seqId.toInt = row.seqId := by
  have hbigint := table.bigint row hrow
  exact Int64.toInt_ofNat_of_lt hbigint

theorem mem_matching {type : Str} {fromSeqId : ℤ} {rows : List EventRow}
    {row : EventRow} :
    row ∈ matching type fromSeqId rows ↔
      row ∈ rows ∧ row.type = type ∧ fromSeqId < row.seqId := by
  simp [matching]

theorem matching_largestSeqId {table : EventsTable} {type : LiteralText}
    {cursor : Int64} {selected : List EventRow} {row : EventRow}
    (hsubset : ∀ r ∈ selected, r ∈ matching type.text cursor.toInt table.rows)
    (hrow : row ∈ selected)
    (hmax : ∀ r ∈ matching type.text cursor.toInt table.rows, r.seqId ≤ row.seqId) :
    matching type.text
      (largestSeqId cursor (selected.map EventRow.toIEvent)).toInt
      table.rows = [] := by
  obtain ⟨hcursor, hlargest⟩ :=
    largestSeqId_spec cursor (selected.map EventRow.toIEvent)
  have hle := hlargest _ (List.mem_map.mpr ⟨row, hrow, rfl⟩)
  rw [EventsTable.toInt_seqId (mem_matching.mp (hsubset row hrow)).1] at hle
  apply List.eq_nil_iff_forall_not_mem.mpr
  intro r hr
  obtain ⟨hmem, htype, hlt⟩ := mem_matching.mp hr
  have hmatch : r ∈ matching type.text cursor.toInt table.rows :=
    mem_matching.mpr ⟨hmem, htype, by omega⟩
  have hmaxr := hmax r hmatch
  omega

theorem SearchReturns.eq_nil {table : EventsTable} {type : LiteralText}
    {cursor : Int64} {limit : Int32} {batch : List IEvent}
    (hsearch : SearchReturns table type cursor limit batch)
    (hnone : matching type.text cursor.toInt table.rows = []) : batch = [] := by
  obtain ⟨selected, rfl, hsubperm, _⟩ := hsearch
  rw [hnone] at hsubperm
  simpa using List.eq_nil_of_length_eq_zero
    (Nat.le_zero.mp hsubperm.length_le)

theorem searchReturns_nil {table : EventsTable} {type : LiteralText}
    {cursor : Int64} {limit : Int32} (hlimit : 1 ≤ limit.toInt)
    (hnone : matching type.text cursor.toInt table.rows = []) :
    SearchReturns table type cursor limit [] := by
  refine ⟨[], rfl, List.nil_subperm, ?_⟩
  simp [hnone]
  omega

theorem pollReturns_of_none {table : EventsTable} {type : LiteralText}
    {cursor : Int64} {limit : Int32} {received : List IEvent}
    (hnone : matching type.text cursor.toInt table.rows = [])
    (hpoll : PollReturns table type limit cursor received) :
    received = [] := by
  cases hpoll with
  | done => rfl
  | more _ batch rest hsearch hbatch _ =>
      exact absurd (hsearch.eq_nil hnone) hbatch

theorem exists_maximal {rows : List EventRow} (hrows : rows ≠ []) :
    ∃ row ∈ rows, ∀ r ∈ rows, r.seqId ≤ row.seqId := by
  induction rows with
  | nil => exact absurd rfl hrows
  | cons first rows ih =>
      by_cases hnil : rows = []
      · exact ⟨first, List.mem_cons_self, by simp [hnil]⟩
      · obtain ⟨row, hrow, hmax⟩ := ih hnil
        by_cases hle : row.seqId ≤ first.seqId
        · refine ⟨first, List.mem_cons_self, List.forall_mem_cons.mpr
            ⟨le_refl _, fun r hr => ?_⟩⟩
          exact le_trans (hmax r hr) hle
        · exact ⟨row, List.mem_cons_of_mem _ hrow, List.forall_mem_cons.mpr
            ⟨by omega, hmax⟩⟩

/-- Polling is exact when the first batch has room for all matching rows. -/
theorem pollsExactlyOnce_of_le {table : EventsTable} {type : LiteralText}
    {limit : Int32} {cursor : Int64} (hlimit : 1 ≤ limit.toInt)
    (hle : ((matching type.text cursor.toInt table.rows).length : ℤ) ≤ limit.toInt) :
    PollsExactlyOnce table type limit cursor := by
  by_cases hnone : matching type.text cursor.toInt table.rows = []
  · refine ⟨⟨[], .done cursor (searchReturns_nil hlimit hnone)⟩, ?_⟩
    intro received hpoll
    rw [pollReturns_of_none hnone hpoll, hnone]
    exact List.Perm.refl _
  · obtain ⟨row, hrow, hmax⟩ := exists_maximal hnone
    have hall : SearchReturns table type cursor limit
        ((matching type.text cursor.toInt table.rows).map EventRow.toIEvent) :=
      ⟨_, rfl, List.Subperm.refl _, by omega⟩
    have hafter := matching_largestSeqId (fun r hr => hr) hrow hmax
    constructor
    · refine ⟨_, .more cursor _ [] hall (by simpa using hnone) (.done _ ?_)⟩
      exact searchReturns_nil hlimit hafter
    · intro received hpoll
      cases hpoll with
      | done _ hsearch =>
          obtain ⟨selected, hbatch, _, hlength⟩ := hsearch
          have hempty : selected = [] := by simpa using hbatch.symm
          have hpos := List.length_pos_iff.mpr hnone
          rw [hempty, List.length_nil] at hlength
          omega
      | more _ batch rest hsearch hbatch hrest =>
          obtain ⟨selected, rfl, hsubperm, hlength⟩ := hsearch
          have hperm : selected.Perm (matching type.text cursor.toInt table.rows) :=
            hsubperm.perm_of_length_le (by omega)
          have hnothing := matching_largestSeqId
            (fun r hr => hperm.subset hr) (hperm.symm.subset hrow) hmax
          rw [pollReturns_of_none hnothing hrest, List.append_nil]
          exact hperm.map _

/-- With more matching rows than the limit, the server may answer with the
largest number first, and the rest is never received. -/
theorem not_pollsExactlyOnce_of_lt {table : EventsTable} {type : LiteralText}
    {limit : Int32} {cursor : Int64} (hlimit : 1 ≤ limit.toInt)
    (hlt : limit.toInt < (matching type.text cursor.toInt table.rows).length) :
    ¬ PollsExactlyOnce table type limit cursor := by
  rintro ⟨_, hexact⟩
  have hnone : matching type.text cursor.toInt table.rows ≠ [] := by
    intro hnil
    rw [hnil, List.length_nil] at hlt
    omega
  obtain ⟨row, hrow, hmax⟩ := exists_maximal hnone
  obtain ⟨before, after, hsplit⟩ := List.append_of_mem hrow
  have hlength : (matching type.text cursor.toInt table.rows).length =
      (before ++ after).length + 1 := by
    rw [hsplit]
    simp
    omega
  let selected := row :: (before ++ after).take (limit.toInt.toNat - 1)
  have hsubperm : selected.Subperm (matching type.text cursor.toInt table.rows) := by
    rw [hsplit]
    have hmiddle : (row :: (before ++ after)).Perm (before ++ row :: after) :=
      List.perm_middle.symm
    exact (List.Sublist.cons_cons row
      (List.take_sublist _ _)).subperm.trans hmiddle.subperm
  have hselected : (selected.length : ℤ) = limit.toInt := by
    simp only [selected, List.length_cons, List.length_take]
    omega
  have hsearch : SearchReturns table type cursor limit
      (selected.map EventRow.toIEvent) :=
    ⟨selected, rfl, hsubperm, by omega⟩
  have hafter := matching_largestSeqId (fun r hr => hsubperm.subset hr)
    List.mem_cons_self hmax
  have hpoll : PollReturns table type limit cursor
      (selected.map EventRow.toIEvent ++ []) :=
    .more cursor _ [] hsearch (by simp [selected])
      (.done _ (searchReturns_nil hlimit hafter))
  have hperm := (hexact _ hpoll).length_eq
  rw [List.append_nil, List.length_map, List.length_map] at hperm
  omega

/-- Polling is exact under every answer of the server exactly when the limit
is not smaller than the number of matching rows. -/
theorem pollsExactlyOnce_iff {table : EventsTable} {type : LiteralText}
    {limit : Int32} {cursor : Int64} (hlimit : 1 ≤ limit.toInt) :
    PollsExactlyOnce table type limit cursor ↔
      ((matching type.text cursor.toInt table.rows).length : ℤ) ≤ limit.toInt := by
  constructor
  · intro hexact
    by_contra hlt
    exact not_pollsExactlyOnce_of_lt hlimit (by omega) hexact
  · exact pollsExactlyOnce_of_le hlimit

def orderRow (seqId : ℕ) : EventRow where
  seqId := seqId
  id := BitVec.ofNat 128 seqId
  streamId := 0
  version := seqId
  data := .null
  type := "OrderPlaced".toList
  timestamp := 0

def twoOrders : EventsTable where
  rows := [orderRow 1, orderRow 2]
  primaryKey := by decide
  bigint := by decide

def orderPlacedType : LiteralText where
  text := "OrderPlaced".toList
  noQuote := by decide
  noNul := by decide

theorem twoOrders_polledExactlyOnce :
    PollsExactlyOnce twoOrders orderPlacedType 10 (-1) :=
  (pollsExactlyOnce_iff (by decide)).mpr (by decide)

/-- With a limit of 1 the server may return row 2 before row 1. -/
theorem twoOrders_notPolledExactlyOnce :
    ¬ ∀ (table : EventsTable) (type : LiteralText) (limit : Int32)
      (cursor : Int64), 1 ≤ limit.toInt →
        PollsExactlyOnce table type limit cursor := by
  intro hclaim
  have hexact := hclaim twoOrders orderPlacedType 1 0 (by decide)
  exact not_pollsExactlyOnce_of_lt (by decide) (by decide) hexact

end StoreCpp
