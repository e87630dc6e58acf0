import StoreCpp.CaResourceManager
import StoreCpp.CassandraStatement

/-!
# The batch of a result set

`rowToCaResourceModifiedTapFunc` groups the rows of a result set by id, sorts
each group by descending time, hands its head to the handler and executes one
batch with an insert for each row that the handler has returned.  The order
that the sort leaves among rows of one time is not determined.
-/

namespace StoreCpp

open Printf

abbrev ModifiedRow := CaResourceModified Str

/-- `std::sort` by descending time. -/
structure DescendingSort where
  sort : List ModifiedRow → List ModifiedRow
  perm : ∀ rows, (sort rows).Perm rows
  descending : ∀ rows,
    (sort rows).Pairwise fun lhs rhs => rhs.startTime ≤ lhs.startTime

/-- The sort that keeps the order of rows of one time. -/
def DescendingSort.stable : DescendingSort where
  sort rows := rows.mergeSort fun lhs rhs => rhs.startTime ≤ lhs.startTime
  perm rows := List.mergeSort_perm rows _
  descending rows := by
    have htrans : ∀ a b c : ModifiedRow,
        decide (b.startTime ≤ a.startTime) = true →
          decide (c.startTime ≤ b.startTime) = true →
            decide (c.startTime ≤ a.startTime) = true := by
      intro a b c hab hbc
      exact decide_eq_true
        (Int64.le_trans (of_decide_eq_true hbc) (of_decide_eq_true hab))
    have htotal : ∀ a b : ModifiedRow,
        (decide (b.startTime ≤ a.startTime) ||
          decide (a.startTime ≤ b.startTime)) = true := by
      intro a b
      rw [Bool.or_eq_true, decide_eq_true_iff, decide_eq_true_iff]
      exact Int64.le_total b.startTime a.startTime
    exact (List.pairwise_mergeSort htrans htotal rows).imp of_decide_eq_true

/-- What the function leaves to its surroundings: the sort, what the handler
returns for its k-th row, the text form of a uuid, and what a key holds that
has not been read. -/
structure TapSurroundings where
  sort : DescendingSort
  handler : ℕ → ModifiedRow → ModifiedRow
  uuidFromString : Str → Option CassUuid
  uninitialised : ℕ → CassUuid

/-- The rows that the handler is called with, in turn. -/
def DescendingSort.latest (sort : DescendingSort)
    (unprocessed : List ModifiedRow) : List ModifiedRow :=
  (groupBy CaResourceModified.id unprocessed).filterMap fun c =>
    (sort.sort c.2).head?

def caResourceProcessed : Str := "ca_resource_processed".toList

def processedFields : List Str := [
  "environment".toList,
  "store".toList,
  "type".toList,
  "purpose".toList,
  "uid".toList,
  "current".toList,
  "id".toList,
  "oid".toList,
  "start_time".toList]

/-- `fmt::format("{}.{}", keyspace, caResourceProcessedTable)`. -/
def processedTable (keyspace : Str) : Str :=
  keyspace ++ ".".toList ++ caResourceProcessed

def startTimeParam (startTime : Int64) : CassParam :=
  .integer .long startTime.toInt (Int64.le_toInt startTime)
    (Int.le_sub_one_of_lt (Int64.toInt_lt startTime))

def processedParams (settings : ManagerSettings) (key : CassUuid)
    (c1 : ModifiedRow) : List CassParam := [
  .string c1.environment,
  .string c1.store,
  .string c1.type,
  .string settings.purpose.text,
  .uuid key,
  .string c1.current,
  .string c1.id,
  .string c1.oid,
  startTimeParam c1.startTime]

namespace TapSurroundings

variable (around : TapSurroundings)

/-- The key of the k-th result.  Whether `cass_uuid_from_string` succeeds is
not looked at. -/
def key (k : ℕ) (c1 : ModifiedRow) : CassUuid :=
  (around.uuidFromString (cstr c1.uid)).getD (around.uninitialised k)

def insertStatement (settings : ManagerSettings) (k : ℕ)
    (c1 : ModifiedRow) : Option CassStatement :=
  CassandraBaseClient.getInsertStatement (processedTable settings.keyspace)
    processedFields (processedParams settings (around.key k c1) c1)

/-- What the handler has returned for the rows. -/
def processed (unprocessed : List ModifiedRow) : List ModifiedRow :=
  (around.sort.latest unprocessed).mapIdx around.handler

/-- The statements that `insertSync` executes as one batch. -/
def batch (settings : ManagerSettings) (unprocessed : List ModifiedRow) :
    Option (List CassStatement) :=
  (around.processed unprocessed).zipIdx.mapM fun c1 =>
    around.insertStatement settings c1.2 c1.1

/-- The uuid of a text, if it is one. -/
def uuidOf (uid : Str) : Option CassUuid :=
  if uid.contains '\x00' then none else around.uuidFromString uid

/-- The statement inserts the row. -/
def Inserts (keyspace : Str) (row : CaResourceProcessed Str)
    (statement : CassStatement) : Prop :=
  ∃ query key,
    CassandraBaseClient.insertQuery (processedTable keyspace)
      processedFields = some query ∧
    around.uuidOf row.uid = some key ∧
    statement = ⟨cstr query, [
      some (.string row.environment),
      some (.string row.store),
      some (.string row.type),
      some (.string row.purpose),
      some (.uuid key),
      some (.string row.current),
      some (.string row.id),
      some (.string row.oid),
      some (.int64 row.startTime.toInt)]⟩

/-- The handler is called with the latest row of every id, and the batch has
one insert for each row that it has returned. -/
structure LogsLatest (settings : ManagerSettings)
    (unprocessed : List ModifiedRow) : Prop where
  once : ((around.sort.latest unprocessed).map
    CaResourceModified.id).Nodup
  ids : ∀ id, id ∈ (around.sort.latest unprocessed).map
    CaResourceModified.id ↔ id ∈ unprocessed.map CaResourceModified.id
  latest : ∀ c1 ∈ around.sort.latest unprocessed,
    c1 ∈ unprocessed ∧ ∀ other ∈ unprocessed, other.id = c1.id →
      other.startTime ≤ c1.startTime
  batch : ∃ statements, around.batch settings unprocessed = some statements ∧
    List.Forall₂ (fun c1 statement =>
        around.Inserts settings.keyspace (c1.processedFor settings) statement)
      (around.processed unprocessed) statements

/-- No text of the row has a NUL inside, and its uid is one. -/
structure Insertable (c1 : ModifiedRow) : Prop where
  environment : '\x00' ∉ c1.environment
  store : '\x00' ∉ c1.store
  type : '\x00' ∉ c1.type
  current : '\x00' ∉ c1.current
  id : '\x00' ∉ c1.id
  oid : '\x00' ∉ c1.oid
  uid : (around.uuidOf c1.uid).isSome

end TapSurroundings

/-! ## The latest row of every id -/

/-- The head of a sorted group. -/
theorem DescendingSort.head_spec (sort : DescendingSort)
    {unprocessed group : List ModifiedRow} {id : Str}
    (hgroup : (id, group) ∈
      groupBy CaResourceModified.id unprocessed) :
    ∃ c1, (sort.sort group).head? = some c1 ∧ c1.id = id ∧
      c1 ∈ unprocessed ∧ ∀ other ∈ unprocessed, other.id = id →
        other.startTime ≤ c1.startTime := by
  obtain ⟨hwith, hne⟩ := mem_groupBy_iff.mp hgroup
  have hperm := sort.perm group
  have hdescending := sort.descending group
  cases hsorted : sort.sort group with
  | nil =>
      rw [hsorted] at hperm
      exact absurd hperm.nil_eq.symm hne
  | cons c1 rest =>
      rw [hsorted] at hperm hdescending
      have hc1 : c1 ∈ withKey CaResourceModified.id id unprocessed :=
        hwith ▸ hperm.mem_iff.mp List.mem_cons_self
      obtain ⟨hmem, hid⟩ := mem_withKey.mp hc1
      refine ⟨c1, rfl, hid, hmem, ?_⟩
      intro other hother hsame
      have hin : other ∈ c1 :: rest := by
        rw [hperm.mem_iff, hwith]
        exact mem_withKey.mpr ⟨hother, hsame⟩
      cases List.mem_cons.mp hin with
      | inl heq =>
          rw [heq]
          exact Int64.le_refl c1.startTime
      | inr hrest => exact List.rel_of_pairwise_cons hdescending hrest

theorem filterMap_keys {κ ν α : Type} {f : κ × ν → Option α}
    {keyOf : α → κ} {groups : List (κ × ν)}
    (hf : ∀ group ∈ groups, ∃ a, f group = some a ∧ keyOf a = group.1) :
    (groups.filterMap f).map keyOf = groups.map Prod.fst := by
  induction groups with
  | nil => rfl
  | cons group groups ih =>
      obtain ⟨a, ha, hkey⟩ := hf group List.mem_cons_self
      have hrest := ih fun other hother =>
        hf other (List.mem_cons_of_mem _ hother)
      rw [List.filterMap_cons_some ha, List.map_cons, List.map_cons, hrest,
        hkey]

theorem DescendingSort.latest_ids (sort : DescendingSort)
    (unprocessed : List ModifiedRow) :
    (sort.latest unprocessed).map CaResourceModified.id =
      (groupBy CaResourceModified.id unprocessed).map Prod.fst := by
  apply filterMap_keys
  intro group hgroup
  obtain ⟨c1, hhead, hid, _⟩ := sort.head_spec hgroup
  exact ⟨c1, hhead, hid⟩

theorem DescendingSort.latest_once (sort : DescendingSort)
    (unprocessed : List ModifiedRow) :
    ((sort.latest unprocessed).map CaResourceModified.id).Nodup := by
  rw [sort.latest_ids, List.nodup_iff_pairwise_ne, List.pairwise_map]
  have hgrouped := wellGrouped_groupBy CaResourceModified.id unprocessed
  exact hgrouped.sorted.imp fun hlt => ne_of_lt hlt

theorem DescendingSort.mem_latest_ids (sort : DescendingSort)
    (unprocessed : List ModifiedRow) (id : Str) :
    id ∈ (sort.latest unprocessed).map CaResourceModified.id ↔
      id ∈ unprocessed.map CaResourceModified.id := by
  rw [sort.latest_ids, List.mem_map, List.mem_map]
  constructor
  · rintro ⟨group, hgroup, rfl⟩
    obtain ⟨c1, _, hid, hmem, _⟩ := sort.head_spec hgroup
    exact ⟨c1, hmem, hid⟩
  · rintro ⟨row, hrow, rfl⟩
    have hwith : row ∈ withKey CaResourceModified.id row.id unprocessed :=
      mem_withKey.mpr ⟨hrow, rfl⟩
    exact ⟨(row.id, withKey CaResourceModified.id row.id unprocessed),
      mem_groupBy_iff.mpr ⟨rfl, List.ne_nil_of_mem hwith⟩, rfl⟩

theorem DescendingSort.latest_latest (sort : DescendingSort)
    {unprocessed : List ModifiedRow} {c1 : ModifiedRow}
    (hc1 : c1 ∈ sort.latest unprocessed) :
    c1 ∈ unprocessed ∧ ∀ other ∈ unprocessed, other.id = c1.id →
      other.startTime ≤ c1.startTime := by
  obtain ⟨group, hgroup, hhead⟩ := List.mem_filterMap.mp hc1
  obtain ⟨head, hhead', hid, hmem, hlatest⟩ := sort.head_spec hgroup
  cases Option.some.inj (hhead.symm.trans hhead')
  rw [hid]
  exact ⟨hmem, hlatest⟩

/-! ## The statements of the batch -/

namespace TapSurroundings

variable (around : TapSurroundings)

/-- The insert of the k-th result, whose query is the given one. -/
def statementFor (settings : ManagerSettings) (query : Str) (k : ℕ)
    (c1 : ModifiedRow) : CassStatement :=
  ⟨cstr query,
    (processedParams settings (around.key k c1) c1).map bindCassParameter⟩

theorem insertQuery_processed (keyspace : Str) :
    ∃ query,
      CassandraBaseClient.insertQuery (processedTable keyspace)
        processedFields = some query := by
  have hfields : processedFields ≠ [] := List.cons_ne_nil _ _
  unfold CassandraBaseClient.insertQuery
  rw [writeFields_eq hfields]
  exact ⟨_, rfl⟩

theorem insertStatement_eq {settings : ManagerSettings} {query : Str}
    (hquery : CassandraBaseClient.insertQuery
      (processedTable settings.keyspace) processedFields = some query)
    (k : ℕ) (c1 : ModifiedRow) :
    around.insertStatement settings k c1 =
      some (around.statementFor settings query k c1) :=
  getInsertStatement_eq rfl hquery

theorem batch_eq {settings : ManagerSettings} {query : Str}
    (hquery : CassandraBaseClient.insertQuery
      (processedTable settings.keyspace) processedFields = some query)
    (unprocessed : List ModifiedRow) :
    around.batch settings unprocessed =
      some ((around.processed unprocessed).zipIdx.map fun c1 =>
        around.statementFor settings query c1.2 c1.1) := by
  unfold batch
  have hstatement : (fun c1 : ModifiedRow × ℕ =>
      around.insertStatement settings c1.2 c1.1) =
        fun c1 => some (around.statementFor settings query c1.2 c1.1) :=
    funext fun c1 => around.insertStatement_eq hquery c1.2 c1.1
  rw [hstatement]
  exact List.mapM_pure

theorem uuidOf_eq_some {uid : Str} {key : CassUuid} :
    around.uuidOf uid = some key ↔
      '\x00' ∉ uid ∧ around.uuidFromString uid = some key := by
  unfold uuidOf
  by_cases hnul : '\x00' ∈ uid
  · simp [hnul]
  · simp [hnul]

theorem key_eq_of_uuidOf {k : ℕ} {c1 : ModifiedRow} {key : CassUuid}
    (hkey : around.uuidOf c1.uid = some key) : around.key k c1 = key := by
  obtain ⟨hnul, hread⟩ := around.uuidOf_eq_some.mp hkey
  unfold TapSurroundings.key
  rw [cstr_eq_self hnul, hread]
  rfl

theorem inserts_iff {settings : ManagerSettings} {query : Str}
    (hquery : CassandraBaseClient.insertQuery
      (processedTable settings.keyspace) processedFields = some query)
    (k : ℕ) (c1 : ModifiedRow) :
    around.Inserts settings.keyspace (c1.processedFor settings)
        (around.statementFor settings query k c1) ↔
      around.Insertable c1 := by
  have hpurpose : cstr settings.purpose.text = settings.purpose.text :=
    cstr_eq_self settings.purpose.noNul
  constructor
  · rintro ⟨other, key, _, hkey, hstatement⟩
    have hvalues := congrArg CassStatement.values hstatement
    simp only [statementFor, processedParams, startTimeParam,
      CaResourceModified.processedFor, bindCassParameter, List.map_cons,
      List.map_nil, List.cons.injEq, Option.some.injEq,
      CassValue.string.injEq, cstr_eq_self_iff] at hvalues
    obtain ⟨henvironment, hstore, htype, _, _, hcurrent, hid, hoid, _⟩ :=
      hvalues
    exact ⟨henvironment, hstore, htype, hcurrent, hid, hoid,
      Option.isSome_of_eq_some hkey⟩
  · intro hinsertable
    obtain ⟨key, hkey⟩ := Option.isSome_iff_exists.mp hinsertable.uid
    refine ⟨query, key, hquery, hkey, ?_⟩
    unfold statementFor
    rw [around.key_eq_of_uuidOf hkey]
    simp only [processedParams, startTimeParam,
      CaResourceModified.processedFor, bindCassParameter, List.map_cons,
      List.map_nil, hpurpose, cstr_eq_self hinsertable.environment,
      cstr_eq_self hinsertable.store, cstr_eq_self hinsertable.type,
      cstr_eq_self hinsertable.current, cstr_eq_self hinsertable.id,
      cstr_eq_self hinsertable.oid]

theorem batch_inserts_iff (settings : ManagerSettings)
    (unprocessed : List ModifiedRow) :
    (∃ statements, around.batch settings unprocessed = some statements ∧
      List.Forall₂ (fun c1 statement =>
          around.Inserts settings.keyspace (c1.processedFor settings)
            statement)
        (around.processed unprocessed) statements) ↔
      ∀ c1 ∈ around.processed unprocessed, around.Insertable c1 := by
  obtain ⟨query, hquery⟩ := insertQuery_processed settings.keyspace
  have hbatch := around.batch_eq hquery unprocessed
  have hforall : List.Forall₂ (fun c1 statement =>
        around.Inserts settings.keyspace (c1.processedFor settings)
          statement)
      (around.processed unprocessed)
      ((around.processed unprocessed).zipIdx.map fun c1 =>
        around.statementFor settings query c1.2 c1.1) ↔
      ∀ c1 ∈ (around.processed unprocessed).zipIdx,
        around.Insertable c1.1 := by
    have hfst : around.processed unprocessed =
        (around.processed unprocessed).zipIdx.map Prod.fst :=
      (List.zipIdx_map_fst 0 _).symm
    rw [List.forall₂_map_right_iff]
    conv_lhs =>
      arg 2
      rw [hfst]
    rw [List.forall₂_map_left_iff, List.forall₂_same]
    exact forall₂_congr fun c1 _ => around.inserts_iff hquery c1.2 c1.1
  constructor
  · rintro ⟨statements, hstatements, hinserts⟩ c1 hc1
    cases Option.some.inj (hbatch.symm.trans hstatements)
    obtain ⟨k, hk⟩ := List.mem_iff_getElem?.mp hc1
    exact hforall.mp hinserts (c1, k) (List.mk_mem_zipIdx_iff_getElem?.mpr hk)
  · intro hinsertable
    refine ⟨_, hbatch, hforall.mpr ?_⟩
    intro c1 hc1
    exact hinsertable c1.1 (List.fst_mem_of_mem_zipIdx hc1)

/-- The handler always gets the latest row of every id, and the batch inserts
what it has returned exactly when all of that can be inserted. -/
theorem logsLatest_iff (settings : ManagerSettings)
    (unprocessed : List ModifiedRow) :
    around.LogsLatest settings unprocessed ↔
      ∀ c1 ∈ around.processed unprocessed, around.Insertable c1 := by
  rw [← around.batch_inserts_iff settings unprocessed]
  constructor
  · intro hlogs
    exact hlogs.batch
  · intro hbatch
    exact ⟨around.sort.latest_once unprocessed,
      around.sort.mem_latest_ids unprocessed,
      fun c1 hc1 => around.sort.latest_latest hc1, hbatch⟩

end TapSurroundings

def saleRow : ModifiedRow where
  environment := "development".toList
  store := "IKEA".toList
  type := "Sales".toList
  startTime := 1
  id := "sale".toList
  oid := "sale".toList
  uid := "2ddb3f00-47de-11e9-8f5c-8f4f3cd5b6d0".toList
  current := []

/-- A handler that returns its row without the uid. -/
def forgetsUid : TapSurroundings where
  sort := DescendingSort.stable
  handler _ c1 := { c1 with uid := [] }
  uuidFromString _ := none
  uninitialised _ := ⟨0, 0⟩

theorem forgetsUid_not_logsLatest :
    ¬ ∀ (around : TapSurroundings) (settings : ManagerSettings)
      (unprocessed : List ModifiedRow),
      around.LogsLatest settings unprocessed := by
  intro hclaim
  obtain ⟨statements, hbatch, hinserts⟩ :=
    (hclaim forgetsUid (salesManager forecast) [saleRow]).batch
  have hinsertable := (forgetsUid.batch_inserts_iff (salesManager forecast)
    [saleRow]).mp ⟨statements, hbatch, hinserts⟩
  have hprocessed : forgetsUid.processed [saleRow] =
      [{ saleRow with uid := [] }] := by
    simp [TapSurroundings.processed, DescendingSort.latest, groupBy,
      pushGroup, forgetsUid, DescendingSort.stable]
  rw [hprocessed] at hinsertable
  have huid := (hinsertable _ List.mem_cons_self).uid
  exact Bool.noConfusion huid

end StoreCpp
