import StoreCpp.ConcurrentAppend
import StoreCpp.EventPolling

/-!
# A subscriber beside concurrent saves

A subscriber repeats `Search` from its cursor and `LastExecution` with the
largest sequence number that it has received, while other clients save.  The
server answers a search with the first matching rows in the order of their
sequence numbers.  The numbers are drawn from the sequence before a
transaction commits, so they become visible in another order.
-/

namespace StoreCpp

open StepMachine

inductive ExecutionStmt where
  | createTable
  | selectSeqId
  | insertDefault
  | setNextSeqId

def setNextSeqId (fails : ExecutionStmt → Bool) (stored seqId newSeqId : ℤ) :
    Option ℤ × ℤ :=
  if -1 < newSeqId ∧ ¬ fails .setNextSeqId then (some newSeqId, newSeqId)
  else (some stored, seqId)

/-- `LastExecution` on the `seq_id` of the subscriber's row, when there is one;
a failing statement ends it. -/
def lastExecution (fails : ExecutionStmt → Bool) (stored : Option ℤ)
    (newSeqId : ℤ) : Option ℤ × ℤ :=
  if fails .createTable ∨ fails .selectSeqId then (stored, 0)
  else
    match stored with
    | some seqId => setNextSeqId fails seqId seqId newSeqId
    | none =>
        if fails .insertDefault then (none, 0)
        else setNextSeqId fails (-1) 0 newSeqId

def seqIdLe (r r' : EventRow) : Prop := r.seqId ≤ r'.seqId

instance : DecidableRel seqIdLe := fun r r' => Nat.decLe r.seqId r'.seqId

instance : Std.Total seqIdLe := ⟨fun r r' => Nat.le_total r.seqId r'.seqId⟩

instance : IsTrans EventRow seqIdLe :=
  ⟨fun _ _ _ hle hle' => Nat.le_trans hle hle'⟩

/-- The answer to a search by a server that orders the matching rows. -/
def searchInOrder (type : Str) (cursor : ℤ) (limit : Int32)
    (rows : List EventRow) : List EventRow :=
  ((matching type cursor rows).insertionSort seqIdLe).take limit.toInt.toNat

def largest (cursor : ℤ) (batch : List EventRow) : ℤ :=
  batch.foldl (fun n row => max n row.seqId) cursor

/-- The clients that save, and the subscriber: its stored cursor, the cursor
of its next search, the batch it has yet to acknowledge, and the rows of all
events that it has received. -/
structure Subscription (ι : Type) where
  cluster : Cluster ι
  stored : Option ℤ
  cursor : ℤ
  fetched : Option (List EventRow)
  received : List EventRow

inductive SubscriptionOp (ι : Type) where
  | save (i : ι) (op : ClientOp)
  | search (limit : Int32)
  | lastExecution (fails : ExecutionStmt → Bool)

section Machine

variable {ι : Type} [DecidableEq ι] [Fintype ι]

def Subscription.perform (type : LiteralText) (s : Subscription ι) :
    SubscriptionOp ι → Option (Subscription ι)
  | .save i op =>
      (s.cluster.perform i op).map fun cluster => { s with cluster }
  | .search limit =>
      match s.fetched with
      | none =>
          let batch := searchInOrder type.text s.cursor limit
            s.cluster.tables.mtEvents
          some { s with
            fetched := some batch
            received := s.received ++ batch }
      | some _ => none
  | .lastExecution fails =>
      s.fetched.map fun batch =>
        let result := lastExecution fails s.stored (largest s.cursor batch)
        { s with stored := result.1, cursor := result.2, fetched := none }

def subscriptions (ι : Type) [DecidableEq ι] [Fintype ι]
    (type : LiteralText) : Machine (Subscription ι) (SubscriptionOp ι) where
  init s :=
    (concurrentSaves ι).init s.cluster ∧ s.stored = none ∧ s.cursor = 0 ∧
      s.fetched = none ∧ s.received = []
  step := Subscription.perform type

/-- A committed event of the type is behind the stored cursor and has not been
received. -/
structure Subscription.LeftBehind (type : LiteralText) (s : Subscription ι)
    (row : EventRow) : Prop where
  committed : row ∈ s.cluster.tables.mtEvents
  type : row.type = type.text
  behind : ∃ n ∈ s.stored, (row.seqId : ℤ) ≤ n
  missed : row ∉ s.received

/-- No statement of the subscriber fails. -/
def SubscriberSucceeds (_ : Subscription ι) : SubscriptionOp ι → Prop
  | .lastExecution fails => ∀ stmt, ¬ fails stmt
  | _ => True

def Subscription.LeftBehindForever (type : LiteralText) (s : Subscription ι)
    (row : EventRow) : Prop :=
  ∀ ops later,
    (subscriptions ι type).Guarded SubscriberSucceeds s ops →
    (subscriptions ι type).run s ops = some later →
    later.LeftBehind type row

/-- A commit adds only events of the type whose numbers are above all numbers
that the subscriber has received. -/
def CommitsAhead (type : LiteralText) (s : Subscription ι) :
    SubscriptionOp ι → Prop
  | .save i .commit =>
      ∀ txn ∈ s.cluster.txn i, ∀ row ∈ txn.inserted, row.type = type.text →
        ∀ r ∈ s.received, r.seqId < row.seqId
  | _ => True

end Machine

/-! ## Searches -/

theorem mem_searchInOrder {type : Str} {cursor : ℤ} {limit : Int32}
    {rows : List EventRow} {row : EventRow}
    (hrow : row ∈ searchInOrder type cursor limit rows) :
    row ∈ rows ∧ row.type = type ∧ cursor < row.seqId := by
  have hmem := List.mem_of_mem_take hrow
  rw [List.mem_insertionSort] at hmem
  exact mem_matching.mp hmem

theorem searchInOrder_returns {table : EventsTable} {type : LiteralText}
    {cursor : Int64} {limit : Int32} (hlimit : 1 ≤ limit.toInt) :
    SearchReturns table type cursor limit
      ((searchInOrder type.text cursor.toInt limit table.rows).map
        EventRow.toIEvent) := by
  have hperm := List.perm_insertionSort seqIdLe
    (matching type.text cursor.toInt table.rows)
  refine ⟨_, rfl, ?_, ?_⟩
  · exact (List.take_sublist _ _).subperm.trans hperm.subperm
  · rw [searchInOrder, List.length_take, hperm.length_eq]
    omega

theorem mem_searchInOrder_of_le {type : Str} {cursor : ℤ} {limit : Int32}
    {rows : List EventRow} (hdistinct : rows.Pairwise EventRow.Compatible)
    {row r : EventRow} (hrow : row ∈ matching type cursor rows)
    (hr : r ∈ searchInOrder type cursor limit rows)
    (hle : row.seqId ≤ r.seqId) :
    row ∈ searchInOrder type cursor limit rows := by
  have hperm := List.perm_insertionSort seqIdLe (matching type cursor rows)
  have hsorted := List.pairwise_insertionSort seqIdLe
    (matching type cursor rows)
  have hmatching : (matching type cursor rows).Pairwise EventRow.Compatible :=
    hdistinct.filter _
  have hdiffer := hmatching.perm hperm.symm EventRow.Compatible.symm
  have hmem := hperm.mem_iff.mpr hrow
  unfold searchInOrder at hr ⊢
  rw [← List.take_append_drop limit.toInt.toNat
    ((matching type cursor rows).insertionSort seqIdLe)] at hmem hsorted hdiffer
  rcases List.mem_append.mp hmem with htake | hdrop
  · exact htake
  · have hseqId : r.seqId ≤ row.seqId :=
      (List.pairwise_append.mp hsorted).2.2 r hr row hdrop
    have hne := (List.pairwise_append.mp hdiffer).2.2 r hr row hdrop
    exact absurd (le_antisymm hseqId hle) hne.1

theorem largest_cons (cursor : ℤ) (row : EventRow) (batch : List EventRow) :
    largest cursor (row :: batch) = largest (max cursor row.seqId) batch := rfl

theorem le_largest (cursor : ℤ) (batch : List EventRow) :
    cursor ≤ largest cursor batch := by
  induction batch generalizing cursor with
  | nil => exact le_refl _
  | cons row batch ih =>
      rw [largest_cons]
      exact le_trans (le_max_left _ _) (ih _)

theorem largest_cases (cursor : ℤ) (batch : List EventRow) :
    largest cursor batch = cursor ∨
      ∃ row ∈ batch, largest cursor batch = row.seqId := by
  induction batch generalizing cursor with
  | nil => exact Or.inl rfl
  | cons row batch ih =>
      rw [largest_cons]
      rcases ih (max cursor row.seqId) with hmax | ⟨r, hr, heq⟩
      · rcases max_choice cursor (row.seqId : ℤ) with hcursor | hrow
        · exact Or.inl (hmax.trans hcursor)
        · exact Or.inr ⟨row, List.mem_cons_self, hmax.trans hrow⟩
      · exact Or.inr ⟨r, List.mem_cons_of_mem _ hr, heq⟩

/-! ## Nothing is missed while commits come ahead -/

variable {ι : Type}

def Subscription.Reached (s : Subscription ι) (n : ℤ) : Prop :=
  n ≤ 0 ∨ ∃ r ∈ s.received, n ≤ r.seqId

structure Subscription.CaughtUp (type : LiteralText) (s : Subscription ι) :
    Prop where
  consistent : s.cluster.Consistent
  complete : ∀ row ∈ s.cluster.tables.mtEvents, row.type = type.text →
    ∀ r ∈ s.received, row.seqId ≤ r.seqId → row ∈ s.received
  stored : ∀ n ∈ s.stored, s.Reached n
  cursor : s.Reached s.cursor
  fetched : ∀ batch ∈ s.fetched, ∀ r ∈ batch, r ∈ s.received

theorem Subscription.CaughtUp.not_leftBehind {type : LiteralText}
    {s : Subscription ι} (hcaught : s.CaughtUp type) (row : EventRow) :
    ¬ s.LeftBehind type row := by
  rintro ⟨hcommitted, htype, ⟨n, hn, hle⟩, hmissed⟩
  have hpos := hcaught.consistent.tables.numbered row hcommitted
  rcases hcaught.stored n hn with hzero | ⟨r, hr, hreached⟩
  · omega
  · exact hmissed
      (hcaught.complete row hcommitted htype r hr (by omega))

theorem Subscription.CaughtUp.search {type : LiteralText}
    {s : Subscription ι} (hcaught : s.CaughtUp type) (limit : Int32) :
    Subscription.CaughtUp type { s with
      fetched := some (searchInOrder type.text s.cursor limit
        s.cluster.tables.mtEvents)
      received := s.received ++ searchInOrder type.text s.cursor limit
        s.cluster.tables.mtEvents } := by
  have hreached : ∀ n, s.Reached n → n ≤ 0 ∨ ∃ r ∈ s.received ++
      searchInOrder type.text s.cursor limit s.cluster.tables.mtEvents,
        n ≤ r.seqId := by
    rintro n (hzero | ⟨r, hr, hle⟩)
    · exact Or.inl hzero
    · exact Or.inr ⟨r, List.mem_append_left _ hr, hle⟩
  refine {
    consistent := hcaught.consistent
    complete := ?_
    stored := fun n hn => hreached n (hcaught.stored n hn)
    cursor := hreached _ hcaught.cursor
    fetched := ?_ }
  · intro row hrow htype r hr hle
    have hpos := hcaught.consistent.tables.numbered row hrow
    rcases List.mem_append.mp hr with hold | hnew
    · exact List.mem_append_left _
        (hcaught.complete row hrow htype r hold hle)
    · by_cases hcursor : s.cursor < row.seqId
      · refine List.mem_append_right _ (mem_searchInOrder_of_le
          hcaught.consistent.tables.distinct ?_ hnew hle)
        exact mem_matching.mpr ⟨hrow, htype, hcursor⟩
      · rcases hcaught.cursor with hzero | ⟨r', hr', hle'⟩
        · omega
        · exact List.mem_append_left _
            (hcaught.complete row hrow htype r' hr' (by omega))
  · intro batch hbatch r hr
    cases hbatch
    exact List.mem_append_right _ hr

theorem lastExecution_forall {P : ℤ → Prop} {fails : ExecutionStmt → Bool}
    {stored : Option ℤ} {newSeqId : ℤ} (hstored : ∀ n ∈ stored, P n)
    (hnew : P newSeqId) (hdefault : P (-1)) (hzero : P 0) :
    (∀ n ∈ (lastExecution fails stored newSeqId).1, P n) ∧
      P (lastExecution fails stored newSeqId).2 := by
  have hset : ∀ row seqId, P row → P seqId →
      (∀ n ∈ (setNextSeqId fails row seqId newSeqId).1, P n) ∧
        P (setNextSeqId fails row seqId newSeqId).2 := by
    intro row seqId hrow hseqId
    unfold setNextSeqId
    split_ifs
    · simpa using hnew
    · simpa using ⟨hrow, hseqId⟩
  unfold lastExecution
  by_cases hfirst : fails .createTable ∨ fails .selectSeqId
  · rw [if_pos hfirst]
    exact ⟨hstored, hzero⟩
  · rw [if_neg hfirst]
    cases stored with
    | some seqId =>
        have hseqId := hstored seqId rfl
        exact hset seqId seqId hseqId hseqId
    | none =>
        by_cases hinsert : fails .insertDefault
        · simpa [hinsert] using hzero
        · simpa [hinsert] using hset (-1) 0 hdefault hzero

theorem Subscription.CaughtUp.lastExecution {type : LiteralText}
    {s : Subscription ι} {batch : List EventRow} (hcaught : s.CaughtUp type)
    (hbatch : s.fetched = some batch) (fails : ExecutionStmt → Bool) :
    Subscription.CaughtUp type { s with
      stored := (StoreCpp.lastExecution fails s.stored
        (largest s.cursor batch)).1
      cursor := (StoreCpp.lastExecution fails s.stored
        (largest s.cursor batch)).2
      fetched := none } := by
  have hlargest : s.Reached (largest s.cursor batch) := by
    rcases largest_cases s.cursor batch with heq | ⟨r, hr, heq⟩
    · rw [heq]
      exact hcaught.cursor
    · exact Or.inr ⟨r, hcaught.fetched batch hbatch r hr, heq.le⟩
  obtain ⟨hstored, hcursor⟩ := lastExecution_forall hcaught.stored hlargest
    (Or.inl (by omega)) (Or.inl (le_refl 0))
  exact {
    consistent := hcaught.consistent
    complete := hcaught.complete
    stored := hstored
    cursor := hcursor
    fetched := by simp }

variable [DecidableEq ι] [Fintype ι]

theorem Subscription.CaughtUp.save {type : LiteralText}
    {s : Subscription ι} {i : ι} {op : ClientOp} {cluster : Cluster ι}
    (hcaught : s.CaughtUp type) (hguard : CommitsAhead type s (.save i op))
    (hperform : s.cluster.perform i op = some cluster) :
    Subscription.CaughtUp type { s with cluster } := by
  refine { hcaught with
    consistent := hcaught.consistent.perform hperform
    complete := ?_ }
  intro row hrow htype r hr hle
  rcases Cluster.perform_mtEvents hperform with
    hsame | ⟨rfl, txn, htxn, hevents⟩
  · rw [hsame] at hrow
    exact hcaught.complete row hrow htype r hr hle
  · rw [hevents] at hrow
    rcases List.mem_append.mp hrow with hold | hnew
    · exact hcaught.complete row hold htype r hr hle
    · have hahead := hguard txn htxn row hnew htype r hr
      omega

theorem Subscription.caughtUp_of_init {type : LiteralText}
    {s : Subscription ι} (hinit : (subscriptions ι type).init s) :
    s.CaughtUp type := by
  obtain ⟨hcluster, hstored, hcursor, hfetched, hreceived⟩ := hinit
  have hreach : (concurrentSaves ι).Reachable s.cluster :=
    ⟨s.cluster, [], hcluster, rfl⟩
  refine ⟨Cluster.Consistent.of_reachable hreach, ?_, ?_, ?_, ?_⟩
  · simp [hreceived]
  · simp [hstored]
  · exact Or.inl hcursor.le
  · simp [hfetched]

theorem Subscription.CaughtUp.perform {type : LiteralText}
    {s next : Subscription ι} {op : SubscriptionOp ι}
    (hcaught : s.CaughtUp type) (hguard : CommitsAhead type s op)
    (hperform : s.perform type op = some next) : next.CaughtUp type := by
  cases op with
  | save i op =>
      obtain ⟨cluster, hcluster, rfl⟩ := Option.map_eq_some_iff.mp hperform
      exact hcaught.save hguard hcluster
  | search limit =>
      cases hfetched : s.fetched with
      | none =>
          simp only [Subscription.perform, hfetched,
            Option.some.injEq] at hperform
          subst next
          exact hcaught.search limit
      | some batch => simp [Subscription.perform, hfetched] at hperform
  | lastExecution fails =>
      obtain ⟨batch, hbatch, rfl⟩ := Option.map_eq_some_iff.mp hperform
      exact hcaught.lastExecution hbatch fails

/-- No event is left behind in a run whose commits all come ahead of what the
subscriber has received. -/
theorem not_leftBehind_of_commitsAhead {type : LiteralText}
    {s : Subscription ι}
    (hreach : (subscriptions ι type).ReachableUnder (CommitsAhead type) s)
    (row : EventRow) : ¬ s.LeftBehind type row := by
  have hcaught : s.CaughtUp type := by
    refine hreach.invariant ?_ ?_
    · exact fun start hinit => Subscription.caughtUp_of_init hinit
    · intro current op next hcurrent hguard hstep
      exact hcurrent.perform hguard hstep
  exact hcaught.not_leftBehind row

/-! ## What is behind stays behind -/

structure Subscription.Lost (type : LiteralText) (row : EventRow)
    (s : Subscription ι) : Prop where
  leftBehind : s.LeftBehind type row
  positive : 0 < row.seqId
  passed : (row.seqId : ℤ) ≤ s.cursor

theorem lastExecution_of_succeeds {fails : ExecutionStmt → Bool}
    {stored : Option ℤ} {newSeqId : ℤ} (hsucceeds : ∀ stmt, ¬ fails stmt)
    (hnew : -1 < newSeqId) :
    lastExecution fails stored newSeqId = (some newSeqId, newSeqId) := by
  cases stored <;>
    simp [lastExecution, setNextSeqId, hnew, hsucceeds]

theorem Subscription.Lost.perform {type : LiteralText}
    {s next : Subscription ι} {op : SubscriptionOp ι} {row : EventRow}
    (hlost : s.Lost type row) (hguard : SubscriberSucceeds s op)
    (hperform : s.perform type op = some next) : next.Lost type row := by
  obtain ⟨⟨hcommitted, htype, hbehind, hmissed⟩, hpos, hpassed⟩ := hlost
  cases op with
  | save i op =>
      obtain ⟨cluster, hcluster, rfl⟩ := Option.map_eq_some_iff.mp hperform
      refine ⟨⟨?_, htype, hbehind, hmissed⟩, hpos, hpassed⟩
      rcases Cluster.perform_mtEvents hcluster with
        hsame | ⟨_, txn, _, hevents⟩
      · exact hsame ▸ hcommitted
      · exact hevents ▸ List.mem_append_left _ hcommitted
  | search limit =>
      cases hfetched : s.fetched with
      | none =>
          simp only [Subscription.perform, hfetched,
            Option.some.injEq] at hperform
          subst next
          refine ⟨⟨hcommitted, htype, hbehind, ?_⟩, hpos, hpassed⟩
          intro hmem
          rcases List.mem_append.mp hmem with hold | hnew
          · exact hmissed hold
          · have habove := (mem_searchInOrder hnew).2.2
            omega
      | some batch => simp [Subscription.perform, hfetched] at hperform
  | lastExecution fails =>
      obtain ⟨batch, _, rfl⟩ := Option.map_eq_some_iff.mp hperform
      have hle := le_largest s.cursor batch
      have heq : lastExecution fails s.stored (largest s.cursor batch) =
          (some (largest s.cursor batch), largest s.cursor batch) :=
        lastExecution_of_succeeds hguard (by omega)
      refine ⟨⟨hcommitted, htype, ⟨largest s.cursor batch, ?_, by omega⟩,
        hmissed⟩, hpos, ?_⟩
      · simp [heq]
      · simp only [heq]
        omega

theorem Subscription.Lost.forever {type : LiteralText}
    {s : Subscription ι} {row : EventRow} (hlost : s.Lost type row) :
    s.LeftBehindForever type row := by
  intro ops later hguard hrun
  have hlater : later.Lost type row := by
    refine Machine.run_invariant_of_guarded ?_ hguard hrun hlost
    intro current op next hcurrent hsucceeds hstep
    exact hcurrent.perform hsucceeds hstep
  exact hlater.leftBehind

instance {ι : Type} (type : LiteralText) (s : Subscription ι)
    (op : SubscriptionOp ι) : Decidable (CommitsAhead type s op) := by
  unfold CommitsAhead
  split <;> infer_instance

def firstOrder : IEvent where
  seqId := 0
  id := []
  streamId := "00000000-0000-0000-0000-0000000000a1".toList
  type := orderPlacedType.text
  version := 0
  data := .null
  timestamp := 0

def secondOrder : IEvent := {
  firstOrder with
  streamId := "00000000-0000-0000-0000-0000000000b2".toList }

/-- `createStreamId` has made the stream of the type, the name-based UUID of
`OrderPlaced`, which the row of the subscriber refers to. -/
def orderPlacedTables : Tables := {
  emptyTables with
  mtStreams := fun stream =>
    if stream = 0x2a4cc8081f6e37b081294014bf31e11d then
      some ⟨orderPlacedType.text, 0, 0⟩
    else none }

def idleSubscription : Subscription Bool where
  cluster := {
    tables := orderPlacedTables
    clients _ := { pending := [], saving := none, history := [] } }
  stored := none
  cursor := 0
  fetched := none
  received := []

def saveOrder (client : Bool) (event : IEvent) (uuid : ℕ) :
    List (SubscriptionOp Bool) :=
  (ClientOp.append event :: .beginSave :: appendOne 2 uuid).map fun op =>
    .save client op

def poll : List (SubscriptionOp Bool) :=
  [.search 10, .lastExecution fun _ => false]

def ordersCommittedFirst : List (SubscriptionOp Bool) :=
  saveOrder false firstOrder 1 ++ saveOrder true secondOrder 2 ++
    [.save true .commit, .save false .commit] ++ poll

/-- The first order is committed after the subscriber has read the second. -/
def firstOrderCommittedLate : List (SubscriptionOp Bool) :=
  saveOrder false firstOrder 1 ++ saveOrder true secondOrder 2 ++
    [.save true .commit] ++ poll ++ [.save false .commit]

def orders (ops : List (SubscriptionOp Bool)) : Option (Subscription Bool) :=
  (subscriptions Bool orderPlacedType).run idleSubscription ops

def Subscription.view {ι : Type} (s : Subscription ι) :
    List ℕ × Option ℤ × ℤ × List ℕ :=
  (s.cluster.tables.mtEvents.map EventRow.seqId, s.stored, s.cursor,
    s.received.map EventRow.seqId)

theorem ordersCommittedFirst_view :
    (orders ordersCommittedFirst).map Subscription.view =
      some ([2, 1], some 2, 2, [1, 2]) := by
  decide +kernel

theorem idleSubscription_init :
    (subscriptions Bool orderPlacedType).init idleSubscription := by
  refine ⟨⟨rfl, rfl, ?_, fun _ => rfl⟩, rfl, rfl, rfl, rfl⟩
  intro stream row hrow
  obtain ⟨_, hrow⟩ := Option.ite_none_right_eq_some.mp hrow
  cases hrow
  rfl

theorem ordersCommittedFirst_notLeftBehind : ∃ s,
    orders ordersCommittedFirst = some s ∧
      s.view = ([2, 1], some 2, 2, [1, 2]) ∧
      ∀ row, ¬ s.LeftBehind orderPlacedType row := by
  obtain ⟨s, hrun, hview⟩ :=
    Option.map_eq_some_iff.mp ordersCommittedFirst_view
  have hguard : (subscriptions Bool orderPlacedType).Guarded
      (CommitsAhead orderPlacedType) idleSubscription
      ordersCommittedFirst := by
    decide +kernel
  exact ⟨s, hrun, hview, not_leftBehind_of_commitsAhead
    ⟨idleSubscription, _, idleSubscription_init, hguard, hrun⟩⟩

theorem firstOrderCommittedLate_view :
    (orders firstOrderCommittedLate).map Subscription.view =
      some ([2, 1], some 2, 2, [2]) := by
  decide +kernel

theorem firstOrderCommittedLate_types :
    (orders firstOrderCommittedLate).map (fun s =>
      s.cluster.tables.mtEvents.map EventRow.type) =
      some [orderPlacedType.text, orderPlacedType.text] := by
  decide +kernel

/-- The first order's number is behind the stored cursor when it is
committed. -/
theorem firstOrderCommittedLate_leftBehind :
    ¬ ∀ s, (subscriptions Bool orderPlacedType).Reachable s →
      ∀ row, ¬ s.LeftBehindForever orderPlacedType row := by
  intro hclaim
  obtain ⟨s, hrun, hview⟩ :=
    Option.map_eq_some_iff.mp firstOrderCommittedLate_view
  have htypes := firstOrderCommittedLate_types
  rw [hrun, Option.map_some, Option.some.injEq] at htypes
  simp only [Subscription.view, Prod.mk.injEq] at hview
  obtain ⟨hseqIds, hstored, hcursor, hreceived⟩ := hview
  obtain ⟨row, hrow, hseqId⟩ : ∃ row ∈ s.cluster.tables.mtEvents,
      row.seqId = 1 := by
    rw [← List.mem_map, hseqIds]
    decide
  have htype : row.type = orderPlacedType.text := by
    have hmem := List.mem_map_of_mem (f := EventRow.type) hrow
    rw [htypes] at hmem
    simpa using hmem
  have hmissed : row ∉ s.received := by
    intro hmem
    have hmap := List.mem_map_of_mem (f := EventRow.seqId) hmem
    rw [hreceived, hseqId] at hmap
    exact absurd hmap (by decide)
  have hlost : s.Lost orderPlacedType row :=
    ⟨⟨hrow, htype, ⟨2, hstored, by omega⟩, hmissed⟩, by omega, by omega⟩
  exact hclaim s ⟨idleSubscription, _, idleSubscription_init, hrun⟩ row
    hlost.forever

end StoreCpp
