import StoreCpp.AppendTransaction
import StoreCpp.StepMachine

/-!
# Concurrent saves

Any number of clients append events to their stores and save them over one
set of tables.  A client sends one `mt_append_event` transaction for each
group of its pending events, in key order; the statements of the transactions
of all clients interleave, and a transaction or a whole `save` may fail at any
point.  The transactions here are those that the statements mean;
`ConcurrentStatements` puts the texts of the statements above them.
-/

namespace StoreCpp

open StepMachine

/-- What a `save` has done so far: the pending events that it started with,
and for each stream id it has committed a statement for, the inserted rows. -/
structure SaveRecord where
  batch : List IEvent
  committed : List (Str × List EventRow)

structure Saving where
  record : SaveRecord
  remaining : List (Str × List IEvent)
  txn : Option Txn

structure Client where
  pending : List IEvent
  saving : Option Saving
  history : List SaveRecord

structure Cluster (ι : Type) where
  tables : Tables
  clients : ι → Client

inductive ClientOp where
  | append (event : IEvent)
  | beginSave
  | send (generateUuid : ℕ → Uuid) (now : Int64)
  | execute
  | commit
  | fail
  | finish

def SaveRecord.groups (record : SaveRecord) : List (Str × List IEvent) :=
  groupBy IEvent.streamId record.batch

def Client.beginSave (client : Client) : Client :=
  let record : SaveRecord := { batch := client.pending, committed := [] }
  { client with
    saving := some { record, remaining := record.groups, txn := none } }

/-- Start the transaction that the next statement means; the server rejects a
stream id that is no uuid. -/
def Saving.send (saving : Saving) (generateUuid : ℕ → Uuid) (now : Int64) :
    Option Saving :=
  match saving.txn, saving.remaining with
  | none, (key, events) :: _ =>
      (uuidIn key).map fun stream =>
        let eventIds := (List.range events.length).map generateUuid
        { saving with
          txn := some (Txn.start (groupCall stream events eventIds) now) }
  | _, _ => none

def Saving.committed (saving : Saving) (txn : Txn) : Option Saving :=
  match saving.remaining with
  | (key, _) :: rest => some {
      record := { saving.record with
        committed := saving.record.committed ++ [(key, txn.inserted)] }
      remaining := rest
      txn := none }
  | [] => none

def Client.leave (client : Client) (record : SaveRecord)
    (pending : List IEvent) : Client where
  pending := pending
  saving := none
  history := client.history ++ [record]

namespace Cluster

variable {ι : Type} [DecidableEq ι] [Fintype ι]

def txn (cluster : Cluster ι) (i : ι) : Option Txn :=
  (cluster.clients i).saving.bind Saving.txn

def others (cluster : Cluster ι) (i : ι) : ι → Option Txn :=
  Function.update cluster.txn i none

def set (cluster : Cluster ι) (i : ι) (client : Client) : Cluster ι :=
  { cluster with clients := Function.update cluster.clients i client }

def perform (cluster : Cluster ι) (i : ι) (op : ClientOp) :
    Option (Cluster ι) :=
  let client := cluster.clients i
  match op, client.saving with
  | .append event, none =>
      some (cluster.set i { client with pending := client.pending ++ [event] })
  | .beginSave, none =>
      if client.pending.isEmpty then none
      else some (cluster.set i client.beginSave)
  | .send generateUuid now, some saving =>
      (saving.send generateUuid now).map fun next =>
        cluster.set i { client with saving := some next }
  | .execute, some saving => do
      let txn ← saving.txn
      let (tables, next) ← txn.execute (cluster.others i) cluster.tables
      return { cluster with tables }.set i
        { client with saving := some { saving with txn := some next } }
  | .commit, some saving => do
      let txn ← saving.txn
      let next ← saving.committed txn
      if txn.stmt = .commit then
        return { cluster with tables := txn.commit cluster.tables }.set i
          { client with saving := some next }
      else none
  | .fail, some saving =>
      some (cluster.set i (client.leave saving.record client.pending))
  | .finish, some saving =>
      if saving.remaining.isEmpty then
        some (cluster.set i (client.leave saving.record []))
      else none
  | _, _ => none

end Cluster

/-- The clients start idle, and the tables without events. -/
def concurrentSaves (ι : Type) [DecidableEq ι] [Fintype ι] :
    Machine (Cluster ι) (ι × ClientOp) where
  init cluster :=
    cluster.tables.mtEvents = [] ∧ cluster.tables.mtEventsSequence = 1 ∧
      (∀ stream row, cluster.tables.mtStreams stream = some row →
        row.version = 0) ∧
      ∀ i, cluster.clients i = { pending := [], saving := none, history := [] }
  step cluster action := cluster.perform action.1 action.2

/-! ## Invariants -/

/-- The rows of each committed statement are in the tables, and they hold the
events of the batch with its stream id, in order and without a gap. -/
structure SaveRecord.Sound (record : SaveRecord) (tables : Tables) : Prop where
  rows : ∀ part ∈ record.committed, ∃ stream base,
    uuidIn part.1 = some stream ∧
      RowsOf stream base
        (record.batch.filter fun event => event.streamId = part.1) part.2
  stored : ∀ part ∈ record.committed, ∀ row ∈ part.2, row ∈ tables.mtEvents
  keys : (record.committed.map Prod.fst).Sublist (record.groups.map Prod.fst)

structure Saving.Sound (saving : Saving) (tables : Tables) : Prop where
  record : saving.record.Sound tables
  keys : saving.record.committed.map Prod.fst ++
    saving.remaining.map Prod.fst = saving.record.groups.map Prod.fst
  remaining : ∀ group ∈ saving.remaining, group ∈ saving.record.groups
  txn : ∀ txn ∈ saving.txn, ∃ key events rest,
    saving.remaining = (key, events) :: rest ∧ txn.Sound tables key events

structure Client.Sound (client : Client) (tables : Tables) : Prop where
  history : ∀ record ∈ client.history, record.Sound tables
  saving : ∀ saving ∈ client.saving, saving.Sound tables

def Txn.Apart (txn other : Txn) : Prop :=
  ∀ r ∈ txn.inserted, ∀ r' ∈ other.inserted, r.Compatible r'

theorem Txn.Apart.symm {txn other : Txn} (hapart : txn.Apart other) :
    other.Apart txn :=
  fun r hr r' hr' => (hapart r' hr' r hr).symm

structure Cluster.Consistent {ι : Type} (cluster : Cluster ι) : Prop where
  tables : cluster.tables.Sound
  clients : ∀ i, (cluster.clients i).Sound cluster.tables
  apart : ∀ i j, i ≠ j → ∀ txn ∈ cluster.txn i, ∀ other ∈ cluster.txn j,
    txn.Apart other

theorem SaveRecord.Sound.of_subset {record : SaveRecord}
    {tables tables' : Tables} (hsound : record.Sound tables)
    (hsubset : tables.mtEvents ⊆ tables'.mtEvents) :
    record.Sound tables' where
  rows := hsound.rows
  stored := fun part hpart row hrow => hsubset (hsound.stored part hpart row hrow)
  keys := hsound.keys

theorem Client.Sound.of_subset {client : Client} {tables tables' : Tables}
    (hsound : client.Sound tables)
    (hsubset : tables.mtEvents ⊆ tables'.mtEvents)
    (htxn : ∀ key events, ∀ txn ∈ client.saving.bind Saving.txn,
      txn.Sound tables key events → txn.Sound tables' key events) :
    client.Sound tables' := by
  constructor
  · intro record hrecord
    exact (hsound.history record hrecord).of_subset hsubset
  · intro saving hsaving
    have hold := hsound.saving saving hsaving
    refine ⟨hold.record.of_subset hsubset, hold.keys, hold.remaining, ?_⟩
    intro txn hmem
    obtain ⟨key, events, rest, hremaining, htxnSound⟩ := hold.txn txn hmem
    refine ⟨key, events, rest, hremaining, htxn key events txn ?_ htxnSound⟩
    exact Option.mem_bind_iff.mpr ⟨saving, hsaving, hmem⟩

theorem Saving.Sound.key_filter {saving : Saving} {tables : Tables}
    (hsound : saving.Sound tables) {key : Str} {events : List IEvent}
    (hmem : (key, events) ∈ saving.remaining) :
    events = saving.record.batch.filter (fun event => event.streamId = key) ∧
      events ≠ [] := by
  have hgroup := hsound.remaining _ hmem
  refine ⟨?_, ne_nil_of_mem_groupBy hgroup⟩
  convert eq_filter_of_mem_groupBy hgroup

theorem Client.beginSave_sound {client : Client} {tables : Tables}
    (hsound : client.Sound tables) : client.beginSave.Sound tables := by
  refine ⟨hsound.history, ?_⟩
  intro saving hsaving
  cases hsaving
  refine ⟨⟨by simp, by simp, by simp⟩, by simp, fun group hgroup => hgroup, ?_⟩
  simp

theorem Client.leave_sound {client : Client} {saving : Saving}
    {tables : Tables} (hsound : client.Sound tables)
    (hsaving : saving ∈ client.saving) (pending : List IEvent) :
    (client.leave saving.record pending).Sound tables := by
  refine ⟨?_, by simp [Client.leave]⟩
  intro record hrecord
  rcases List.mem_append.mp hrecord with hold | hnew
  · exact hsound.history record hold
  · rw [List.mem_singleton.mp hnew]
    exact (hsound.saving saving hsaving).record

theorem Saving.send_sound {saving next : Saving} {tables : Tables}
    {generateUuid : ℕ → Uuid} {now : Int64} (hsound : saving.Sound tables)
    (hsend : saving.send generateUuid now = some next) :
    next.Sound tables ∧ ∀ txn ∈ next.txn, txn.inserted = [] := by
  unfold Saving.send at hsend
  split at hsend
  · rename_i key events rest hnone hremaining
    obtain ⟨stream, hstream, rfl⟩ := Option.map_eq_some_iff.mp hsend
    have hmem : (key, events) ∈ saving.remaining := by simp [hremaining]
    refine ⟨⟨hsound.record, hsound.keys, hsound.remaining, ?_⟩, ?_⟩
    · intro txn htxn
      cases htxn
      exact ⟨key, events, rest, hremaining, Txn.start_sound now hstream
        (by simp) (hsound.key_filter hmem).2⟩
    · intro txn htxn
      cases htxn
      rfl
  · cases hsend

theorem Saving.committed_sound {saving next : Saving} {tables : Tables}
    {txn : Txn} (hsound : saving.Sound tables)
    (hversioned : tables.Versioned) (htxn : txn ∈ saving.txn)
    (hnext : saving.committed txn = some next)
    (hstmt : txn.stmt = .commit) :
    next.Sound (txn.commit tables) ∧ next.txn = none := by
  obtain ⟨key, events, rest, hremaining, htxnSound⟩ := hsound.txn txn htxn
  have hcommitted : tables.mtEvents ⊆ (txn.commit tables).mtEvents :=
    List.subset_append_left _ _
  have hmem : (key, events) ∈ saving.remaining := by simp [hremaining]
  obtain ⟨hfilter, _⟩ := hsound.key_filter hmem
  obtain ⟨stream, eventIds, hstream, _, hcall⟩ := htxnSound.call
  have hrows := (htxnSound.base_eq hversioned hstmt).2
  have hcallStream : txn.call.stream = stream := by
    rw [hcall]
    rfl
  rw [hcallStream, hfilter] at hrows
  simp only [Saving.committed, hremaining, Option.some.injEq] at hnext
  subst next
  have hkeys : (saving.record.committed ++ [(key, txn.inserted)]).map Prod.fst ++
      rest.map Prod.fst = saving.record.groups.map Prod.fst := by
    rw [← hsound.keys, hremaining]
    simp
  refine ⟨⟨⟨?_, ?_, ?_⟩, hkeys, ?_, by simp⟩, rfl⟩
  · intro part hpart
    rcases List.mem_append.mp hpart with hold | hnew
    · exact hsound.record.rows part hold
    · rw [List.mem_singleton.mp hnew]
      exact ⟨stream, _, hstream, hrows⟩
  · intro part hpart row hrow
    rcases List.mem_append.mp hpart with hold | hnew
    · exact hcommitted (hsound.record.stored part hold row hrow)
    · rw [List.mem_singleton.mp hnew] at hrow
      exact List.mem_append_right _ hrow
  · have hgroups : SaveRecord.groups
        { saving.record with
          committed := saving.record.committed ++ [(key, txn.inserted)] } =
        saving.record.groups := rfl
    rw [hgroups, ← hkeys]
    exact List.sublist_append_left _ _
  · intro group hgroup
    exact hsound.remaining group (by simp [hremaining, hgroup])

/-! ## One step of a client -/

namespace Cluster

variable {ι : Type} [DecidableEq ι] {cluster next : Cluster ι} {i : ι}

theorem txn_set_self (client : Client) :
    (cluster.set i client).txn i = client.saving.bind Saving.txn := by
  simp [txn, set]

theorem txn_set_of_ne {j : ι} (hne : j ≠ i) (client : Client) :
    (cluster.set i client).txn j = cluster.txn j := by
  simp [txn, set, hne]

theorem Consistent.replace {tables : Tables} {client : Client}
    (hconsistent : cluster.Consistent) (htables : tables.Sound)
    (hclient : client.Sound tables)
    (hothers : ∀ j, j ≠ i → (cluster.clients j).Sound tables)
    (hapart : ∀ j, j ≠ i → ∀ txn ∈ client.saving.bind Saving.txn,
      ∀ other ∈ cluster.txn j, txn.Apart other) :
    (set { cluster with tables } i client).Consistent where
  tables := htables
  clients := by
    intro j
    by_cases heq : j = i
    · subst heq
      simpa [set] using hclient
    · simpa [set, heq] using hothers j heq
  apart := by
    intro j k hne txn htxn other hother
    by_cases hj : j = i
    · subst hj
      rw [txn_set_self] at htxn
      rw [txn_set_of_ne hne.symm] at hother
      exact hapart k hne.symm txn htxn other hother
    · rw [txn_set_of_ne hj] at htxn
      by_cases hk : k = i
      · subst hk
        rw [txn_set_self] at hother
        exact (hapart j hj other hother txn htxn).symm
      · rw [txn_set_of_ne hk] at hother
        exact hconsistent.apart j k hne txn htxn other hother

theorem Consistent.set_fresh {client : Client}
    (hconsistent : cluster.Consistent)
    (hclient : client.Sound cluster.tables)
    (hfresh : ∀ txn ∈ client.saving.bind Saving.txn, txn.inserted = []) :
    (cluster.set i client).Consistent := by
  refine hconsistent.replace hconsistent.tables hclient
    (fun j _ => hconsistent.clients j) ?_
  intro j _ txn htxn other _ r hr
  rw [hfresh txn htxn] at hr
  cases hr

theorem Consistent.commit {saving saving' : Saving} {txn : Txn}
    (hconsistent : cluster.Consistent)
    (hsaving : (cluster.clients i).saving = some saving)
    (htxn : saving.txn = some txn)
    (hcommitted : saving.committed txn = some saving')
    (hstmt : txn.stmt = .commit) :
    (set { cluster with tables := txn.commit cluster.tables } i
      { cluster.clients i with saving := some saving' }).Consistent := by
  have hclient := hconsistent.clients i
  have hsound := hclient.saving saving hsaving
  have hversioned := hconsistent.tables.versioned
  obtain ⟨key, events, rest, hremaining, htxnSound⟩ := hsound.txn txn htxn
  obtain ⟨hsound', hidle⟩ :=
    Saving.committed_sound hsound hversioned htxn hcommitted hstmt
  have hsubset :
      cluster.tables.mtEvents ⊆ (txn.commit cluster.tables).mtEvents :=
    List.subset_append_left _ _
  refine hconsistent.replace (hconsistent.tables.commit htxnSound hstmt)
    ⟨?_, ?_⟩ ?_ ?_
  · intro record hrecord
    exact (hclient.history record hrecord).of_subset hsubset
  · intro saving'' hsaving''
    cases hsaving''
    exact hsound'
  · intro j hne
    refine (hconsistent.clients j).of_subset hsubset ?_
    intro otherKey otherEvents other hother hotherSound
    refine hotherSound.commit_other htxnSound hversioned hstmt ?_
    refine hconsistent.apart i j hne.symm txn ?_ other hother
    simp [Cluster.txn, hsaving, htxn]
  · intro j _ other hother
    simp [hidle] at hother

variable [Fintype ι]

theorem Consistent.execute {saving : Saving} {txn txn' : Txn}
    {tables : Tables} (hconsistent : cluster.Consistent)
    (hsaving : (cluster.clients i).saving = some saving)
    (htxn : saving.txn = some txn)
    (hexecute : txn.execute (cluster.others i) cluster.tables =
      some (tables, txn')) :
    (set { cluster with tables } i
      { cluster.clients i with
        saving := some { saving with txn := some txn' } }).Consistent := by
  obtain ⟨hstreams, hevents, _, hinserted⟩ := Txn.execute_frame hexecute
  have hsubset : cluster.tables.mtEvents ⊆ tables.mtEvents :=
    hevents ▸ List.Subset.refl _
  have hclient := hconsistent.clients i
  have hsound := hclient.saving saving hsaving
  refine hconsistent.replace (hconsistent.tables.execute hexecute)
    ⟨?_, ?_⟩ ?_ ?_
  · intro record hrecord
    exact (hclient.history record hrecord).of_subset hsubset
  · intro saving' hsaving'
    cases hsaving'
    obtain ⟨key, events, rest, hremaining, htxnSound⟩ :=
      hsound.txn txn htxn
    refine ⟨hsound.record.of_subset hsubset, hsound.keys, hsound.remaining, ?_⟩
    intro other hother
    cases hother
    exact ⟨key, events, rest, hremaining,
      Txn.execute_sound htxnSound hconsistent.tables.sequence hexecute⟩
  · intro j _
    refine (hconsistent.clients j).of_subset hsubset ?_
    intro key events other _ hother
    exact hother.of_rows_eq hstreams hevents
  · intro j hne txn'' htxn'' other hother r hr r' hr'
    cases htxn''
    rcases hinserted r hr with hold | hnew
    · refine hconsistent.apart i j hne.symm txn ?_ other hother r hold r' hr'
      simp [Cluster.txn, hsaving, htxn]
    · refine (hnew j other ?_ r' hr').symm
      simpa [others, hne] using hother

/-- What a step of a client can do. -/
inductive Performs (cluster : Cluster ι) (i : ι) :
    ClientOp → Cluster ι → Prop where
  | append (event : IEvent) (hidle : (cluster.clients i).saving = none) :
      Performs cluster i (.append event) (cluster.set i {
        cluster.clients i with
        pending := (cluster.clients i).pending ++ [event]
        saving := none })
  | beginSave (hidle : (cluster.clients i).saving = none) :
      Performs cluster i .beginSave
        (cluster.set i (cluster.clients i).beginSave)
  | send (generateUuid : ℕ → Uuid) (now : Int64) (saving saving' : Saving)
      (hsaving : (cluster.clients i).saving = some saving)
      (hsend : saving.send generateUuid now = some saving') :
      Performs cluster i (.send generateUuid now)
        (cluster.set i { cluster.clients i with saving := some saving' })
  | execute (saving : Saving) (txn txn' : Txn) (tables : Tables)
      (hsaving : (cluster.clients i).saving = some saving)
      (htxn : saving.txn = some txn)
      (hexecute : txn.execute (cluster.others i) cluster.tables =
        some (tables, txn')) :
      Performs cluster i .execute (set { cluster with tables } i
        { cluster.clients i with
          saving := some { saving with txn := some txn' } })
  | commit (saving saving' : Saving) (txn : Txn)
      (hsaving : (cluster.clients i).saving = some saving)
      (htxn : saving.txn = some txn)
      (hcommitted : saving.committed txn = some saving')
      (hstmt : txn.stmt = .commit) :
      Performs cluster i .commit
        (set { cluster with tables := txn.commit cluster.tables } i
          { cluster.clients i with saving := some saving' })
  | fail (saving : Saving)
      (hsaving : (cluster.clients i).saving = some saving) :
      Performs cluster i .fail (cluster.set i
        ((cluster.clients i).leave saving.record (cluster.clients i).pending))
  | finish (saving : Saving)
      (hsaving : (cluster.clients i).saving = some saving) :
      Performs cluster i .finish
        (cluster.set i ((cluster.clients i).leave saving.record []))

theorem performs_of_perform {op : ClientOp}
    (hperform : cluster.perform i op = some next) :
    Performs cluster i op next := by
  unfold Cluster.perform at hperform
  cases hsaving : (cluster.clients i).saving with
  | none =>
      cases op <;> simp only [hsaving, reduceCtorEq] at hperform
      case append event =>
        cases hperform
        exact .append event hsaving
      case beginSave =>
        split_ifs at hperform
        cases hperform
        exact .beginSave hsaving
  | some saving =>
      cases op <;> simp only [hsaving, reduceCtorEq] at hperform
      case send generateUuid now =>
        obtain ⟨saving', hsend, rfl⟩ := Option.map_eq_some_iff.mp hperform
        exact .send generateUuid now saving saving' hsaving hsend
      case execute =>
        simp only [Option.bind_eq_bind, Option.bind_eq_some_iff,
          Option.pure_def, Option.some.injEq] at hperform
        obtain ⟨txn, htxn, ⟨tables, txn'⟩, hexecute, rfl⟩ := hperform
        exact .execute saving txn txn' tables hsaving htxn hexecute
      case commit =>
        simp only [Option.bind_eq_bind, Option.bind_eq_some_iff] at hperform
        obtain ⟨txn, htxn, saving', hcommitted, hperform⟩ := hperform
        split_ifs at hperform with hstmt
        cases hperform
        exact .commit saving saving' txn hsaving htxn hcommitted hstmt
      case fail =>
        cases hperform
        exact .fail saving hsaving
      case finish =>
        split_ifs at hperform
        cases hperform
        exact .finish saving hsaving

theorem Consistent.perform {op : ClientOp} (hconsistent : cluster.Consistent)
    (hperform : cluster.perform i op = some next) : next.Consistent := by
  have hclient := hconsistent.clients i
  cases performs_of_perform hperform with
  | append event hidle =>
      refine hconsistent.set_fresh ⟨hclient.history, ?_⟩ ?_
      · simp
      · simp
  | beginSave hidle =>
      exact hconsistent.set_fresh (Client.beginSave_sound hclient)
        (by simp [Client.beginSave])
  | send generateUuid now saving saving' hsaving hsend =>
      obtain ⟨hsound, hfresh⟩ :=
        Saving.send_sound (hclient.saving saving hsaving) hsend
      refine hconsistent.set_fresh ⟨hclient.history, ?_⟩ hfresh
      intro saving'' hsaving''
      cases hsaving''
      exact hsound
  | execute saving txn txn' tables hsaving htxn hexecute =>
      exact hconsistent.execute hsaving htxn hexecute
  | commit saving saving' txn hsaving htxn hcommitted hstmt =>
      exact hconsistent.commit hsaving htxn hcommitted hstmt
  | fail saving hsaving =>
      exact hconsistent.set_fresh (Client.leave_sound hclient hsaving _)
        (by simp [Client.leave])
  | finish saving hsaving =>
      exact hconsistent.set_fresh (Client.leave_sound hclient hsaving _)
        (by simp [Client.leave])

/-- Only a commit changes the committed events, and it appends the rows of its
transaction. -/
theorem perform_mtEvents {op : ClientOp}
    (hperform : cluster.perform i op = some next) :
    next.tables.mtEvents = cluster.tables.mtEvents ∨
      op = .commit ∧ ∃ txn ∈ cluster.txn i,
        next.tables.mtEvents = cluster.tables.mtEvents ++ txn.inserted := by
  cases performs_of_perform hperform with
  | append | beginSave | send | fail | finish => exact Or.inl rfl
  | execute saving txn txn' tables hsaving htxn hexecute =>
      exact Or.inl (Txn.execute_frame hexecute).2.1
  | commit saving saving' txn hsaving htxn hcommitted hstmt =>
      refine Or.inr ⟨rfl, txn, ?_, rfl⟩
      simp [Cluster.txn, hsaving, htxn]

theorem Consistent.of_reachable
    (hreach : (concurrentSaves ι).Reachable cluster) :
    cluster.Consistent := by
  refine hreach.invariant ?_ ?_
  · rintro start ⟨hevents, hsequence, hstreams, hclients⟩
    constructor
    · refine ⟨fun stream => ?_, by omega, ?_, ?_⟩
      · have hversion : start.tables.version stream = 0 := by
          cases hrow : start.tables.mtStreams stream with
          | none => simp [Tables.version, hrow]
          | some row => simp [Tables.version, hrow, hstreams stream row hrow]
        rw [hversion, hevents]
        exact List.Perm.refl _
      · rw [hevents]
        exact List.Pairwise.nil
      · simp [hevents]
    · intro j
      rw [hclients j]
      constructor <;> simp
    · intro j k _ txn htxn
      simp [Cluster.txn, hclients j] at htxn
  · intro current action after hcurrent hstep
    exact hcurrent.perform hstep

end Cluster

/-! ## Versions of the saved events -/

def Client.records (client : Client) : List SaveRecord :=
  client.history ++ (client.saving.map Saving.record).toList

def SaveRecord.rowsFor (record : SaveRecord) (stream : Uuid) :
    List EventRow :=
  (record.committed.filter fun part => uuidIn part.1 = some stream).flatMap
    Prod.snd

def SaveRecord.sentFor (record : SaveRecord) (stream : Uuid) :
    List IEvent :=
  record.batch.filter fun event =>
    uuidIn event.streamId = some stream ∧
      event.streamId ∈ record.committed.map Prod.fst

/-- The rows of the stream, put in the order of their versions, hold the
events sent for it without a gap and in the order of the batch. -/
def SaveRecord.OrderKept (record : SaveRecord) (stream : Uuid) : Prop :=
  ∃ base rows, rows.Perm (record.rowsFor stream) ∧
    RowsOf stream base (record.sentFor stream) rows

theorem Client.Sound.records {client : Client} {tables : Tables}
    (hsound : client.Sound tables) {record : SaveRecord}
    (hrecord : record ∈ client.records) : record.Sound tables := by
  rcases List.mem_append.mp hrecord with hpast | hcurrent
  · exact hsound.history record hpast
  · obtain ⟨saving, hsaving, rfl⟩ :=
      Option.map_eq_some_iff.mp (Option.mem_toList.mp hcurrent)
    exact (hsound.saving saving hsaving).record

theorem RowsOf.types {stream : Uuid} {base : ℕ} {events : List IEvent}
    {rows : List EventRow} (hrows : RowsOf stream base events rows) :
    rows.map EventRow.type = events.map IEvent.type := by
  have htypes := congrArg (List.map Prod.fst) hrows.payloads
  rw [List.map_map, List.map_map] at htypes
  exact htypes

theorem SaveRecord.Sound.nodup {record : SaveRecord} {tables : Tables}
    (hsound : record.Sound tables) :
    (record.committed.map Prod.fst).Nodup := by
  have hsorted := (wellGrouped_groupBy IEvent.streamId record.batch).sorted
  have hkeys : (record.groups.map Prod.fst).Nodup :=
    (hsorted.map Prod.fst fun _ _ hlt => hlt).imp ne_of_lt
  exact hsound.keys.nodup hkeys

/-- The rows of every stream have the versions from 1 to its version, each
once, and the events that a `save` has committed under one text of a stream id
are stored in order under consecutive versions. -/
theorem callVersions_of_reachable {ι : Type} [DecidableEq ι] [Fintype ι]
    {cluster : Cluster ι} (hreach : (concurrentSaves ι).Reachable cluster) :
    cluster.tables.Versioned ∧
      ∀ i, ∀ record ∈ (cluster.clients i).records,
        (record.committed.map Prod.fst).Nodup ∧
        ∀ part ∈ record.committed,
          (∀ row ∈ part.2, row ∈ cluster.tables.mtEvents) ∧
          ∃ stream base, uuidIn part.1 = some stream ∧
            RowsOf stream base
              (record.batch.filter fun event => event.streamId = part.1)
              part.2 := by
  have hconsistent := Cluster.Consistent.of_reachable hreach
  refine ⟨hconsistent.tables.versioned, ?_⟩
  intro i record hrecord
  have hsound := (hconsistent.clients i).records hrecord
  refine ⟨hsound.nodup, fun part hpart => ⟨?_, ?_⟩⟩
  · exact hsound.stored part hpart
  · exact hsound.rows part hpart

def appendOne (reads firstUuid : ℕ) : List ClientOp :=
  .send (fun k => BitVec.ofNat 128 (firstUuid + k)) 0 ::
    List.replicate (reads + 3) .execute

end StoreCpp
