import StoreCpp.KeyedTable
import StoreCpp.SubscriberCursor

/-!
# The stored sequence number of a subscriber

`PgEventStore::LastExecution` creates its table, reads the row of a type and a
subscriber, inserts a default when there is none and updates it, in separate
statements.  Any statement may fail, before or after it took effect, and a
failure of any of them leaves the call through one of its handlers.
-/

namespace StoreCpp

open KeyedTable Printf

structure ExecutionRow where
  stream : Str
  subscriber : Str
  seqId : Option Int64

def ExecutionRow.key (row : ExecutionRow) : Str × Str :=
  (row.stream, row.subscriber)

def ExecutionRow.withSeqId (newSeqId : Int64) (row : ExecutionRow) :
    ExecutionRow :=
  { row with seqId := some newSeqId }

theorem ExecutionRow.key_withSeqId (newSeqId : Int64) (row : ExecutionRow) :
    (row.withSeqId newSeqId).key = row.key := rfl

/-- `values ('%s', '%s', -1)`. -/
def ExecutionRow.default (key : Str × Str) : ExecutionRow where
  stream := key.1
  subscriber := key.2
  seqId := some (-1)

theorem ExecutionRow.key_default (key : Str × Str) :
    (ExecutionRow.default key).key = key := rfl

abbrev ExecutionTable := Table ExecutionRow.key

/-- The tables of the schema, as far as they exist: the ids of the streams and
the rows of `mt_last_execution`. -/
structure ExecutionDb where
  mtStreams : Option (List Str)
  mtLastExecution : Option ExecutionTable

/-- What happens to a statement that the server accepts. -/
inductive Fault where
  | none
  | notApplied
  | answerLost
  deriving DecidableEq

structure ExecutionFaults where
  borrow : Bool
  statement : ExecutionStmt → Fault

namespace ExecutionDb

def row (db : ExecutionDb) (key : Str × Str) : Option ExecutionRow :=
  db.mtLastExecution.bind fun table => table.find key

/-- The `seq_id` of the row with the key; the row may hold null. -/
def stored (db : ExecutionDb) (key : Str × Str) : Option (Option Int64) :=
  (db.row key).map ExecutionRow.seqId

/-- The foreign key needs the table of the streams. -/
def createTable (db : ExecutionDb) : Option ExecutionDb :=
  match db.mtLastExecution with
  | some _ => some db
  | none => db.mtStreams.map fun _ =>
      { db with mtLastExecution := some Table.empty }

/-- The stream must exist and the subscriber fit its column; a row with the
key stays as it is. -/
def insertDefault (db : ExecutionDb) (key : Str × Str) : Option ExecutionDb :=
  match db.mtLastExecution, db.mtStreams with
  | some table, some streams =>
      if streams.contains key.1 ∧ key.2.length ≤ 250 then
        let row := ExecutionRow.default key
        if hnew : table.find row.key = none then
          some { db with mtLastExecution := some (table.insert row hnew) }
        else some db
      else none
  | _, _ => none

def setNextSeqId (db : ExecutionDb) (key : Str × Str) (newSeqId : Int64) :
    ExecutionDb :=
  { db with
    mtLastExecution := db.mtLastExecution.map fun table =>
      table.modify key (ExecutionRow.withSeqId newSeqId)
        (ExecutionRow.key_withSeqId newSeqId) }

/-- The tables after a statement, and whether it returns to the client. -/
def execute (db : ExecutionDb) (fault : Fault)
    (accepted : Option ExecutionDb) : Bool × ExecutionDb :=
  match accepted, fault with
  | none, _ => (false, db)
  | some _, .notApplied => (false, db)
  | some next, .answerLost => (false, next)
  | some next, .none => (true, next)

end ExecutionDb

/-- The last statement, which is sent for a new number only. -/
def updateSeqId (faults : ExecutionFaults) (key : Str × Str)
    (newSeqId seqId : Int64) (db : ExecutionDb) : Int64 × ExecutionDb :=
  if -1 < newSeqId then
    let result := db.execute (faults.statement .setNextSeqId)
      (some (db.setNextSeqId key newSeqId))
    (if result.1 then newSeqId else seqId, result.2)
  else (seqId, db)

/-- The branch of a missing row. -/
def insertSeqId (faults : ExecutionFaults) (key : Str × Str)
    (newSeqId : Int64) (db : ExecutionDb) : Int64 × ExecutionDb :=
  let inserted := db.execute (faults.statement .insertDefault)
    (db.insertDefault key)
  if ¬ inserted.1 then (0, inserted.2)
  else updateSeqId faults key newSeqId 0 inserted.2

/-- The value that `LastExecution` returns and the tables when it ends; the
driver reads `ofNull` from a null, or throws. -/
def PgEventStore.LastExecution (faults : ExecutionFaults)
    (ofNull : Option Int64) (key : Str × Str) (newSeqId : Int64)
    (db : ExecutionDb) : Int64 × ExecutionDb :=
  if faults.borrow then (0, db)
  else
    let created := db.execute (faults.statement .createTable) db.createTable
    if ¬ created.1 then (0, created.2)
    else if faults.statement .selectSeqId ≠ .none then (0, created.2)
    else
      match created.2.stored key with
      | some stored =>
          match stored.or ofNull with
          | some seqId => updateSeqId faults key newSeqId seqId created.2
          | none => (0, created.2)
      | none => insertSeqId faults key newSeqId created.2

/-- The key of a type and a subscriber; the stream is the name-based UUID of
the type. -/
def executionKey (uuidV3 : Str → Str) (type : Str)
    (subscriber : LiteralText) : Str × Str :=
  (uuidV3 (cstr type), subscriber.text)

/-- The returned value is the number that is stored when the call ends. -/
def ReturnsStored (key : Str × Str) (result : Int64 × ExecutionDb) : Prop :=
  result.2.stored key = some (some result.1)

/-- Every call up to the reading of the row returns. -/
def ExecutionFaults.Reads (faults : ExecutionFaults) (db : ExecutionDb) :
    Prop :=
  faults.borrow = false ∧ faults.statement .createTable = .none ∧
    db.createTable.isSome ∧ faults.statement .selectSeqId = .none

/-- The update is sent and applied, and either its answer arrives or the value
read before it is the new one anyway. -/
def ExecutionFaults.Updates (faults : ExecutionFaults)
    (newSeqId seqId : Int64) : Prop :=
  -1 < newSeqId ∧
    (faults.statement .setNextSeqId = .none ∨
      faults.statement .setNextSeqId = .answerLost ∧ newSeqId = seqId)

/-- The update is not sent or not applied. -/
def ExecutionFaults.Keeps (faults : ExecutionFaults) (newSeqId : Int64) :
    Prop :=
  ¬ -1 < newSeqId ∨ faults.statement .setNextSeqId = .notApplied

/-- A stored number is read and kept, or was 0 where it is not read, or is
replaced; a missing row is inserted and replaced. -/
def StoredIsReturned (faults : ExecutionFaults) (ofNull : Option Int64)
    (key : Str × Str) (newSeqId : Int64) (db : ExecutionDb) : Prop :=
  match db.stored key with
  | some (some stored) =>
      faults.Reads db ∧
          (faults.Keeps newSeqId ∨ faults.Updates newSeqId stored) ∨
        ¬ faults.Reads db ∧ stored = 0
  | some none =>
      faults.Reads db ∧ ∃ seqId ∈ ofNull, faults.Updates newSeqId seqId
  | none =>
      faults.Reads db ∧ faults.statement .insertDefault = .none ∧
        (∃ next ∈ db.createTable, (next.insertDefault key).isSome) ∧
        faults.Updates newSeqId 0

/-! ## Statements -/

namespace ExecutionDb

theorem stored_setNextSeqId (db : ExecutionDb) (key : Str × Str)
    (newSeqId : Int64) :
    (db.setNextSeqId key newSeqId).stored key =
      (db.stored key).map fun _ => some newSeqId := by
  unfold stored row setNextSeqId
  cases db.mtLastExecution with
  | none => rfl
  | some table =>
      simp only [Option.map_some, Option.bind_some, Table.find_modify, if_true]
      cases table.find key <;> rfl

theorem stored_createTable {db next : ExecutionDb}
    (hcreate : db.createTable = some next) (key : Str × Str) :
    next.stored key = db.stored key := by
  unfold createTable at hcreate
  cases htable : db.mtLastExecution with
  | some table =>
      rw [htable] at hcreate
      cases hcreate
      rfl
  | none =>
      rw [htable] at hcreate
      obtain ⟨streams, _, hnext⟩ := Option.map_eq_some_iff.mp hcreate
      rw [← hnext]
      simp [stored, row, htable, Table.empty, Table.find]

theorem stored_insertDefault {db next : ExecutionDb} {key : Str × Str}
    (hinsert : db.insertDefault key = some next)
    (hmissing : db.stored key = none) :
    next.stored key = some (some (-1)) := by
  unfold insertDefault at hinsert
  split at hinsert
  · rename_i table streams htable hstreams
    dsimp only at hinsert
    split_ifs at hinsert with haccepted hnew
    · cases hinsert
      simp only [stored, row, Option.bind_some, Table.find_insert,
        ExecutionRow.key_default, if_true, Option.map_some]
      rfl
    · have hrow : db.row key = none := Option.map_eq_none_iff.mp hmissing
      rw [row, htable] at hrow
      exact absurd hrow hnew
  · cases hinsert

theorem stored_execute_createTable (db : ExecutionDb) (fault : Fault)
    (key : Str × Str) :
    (db.execute fault db.createTable).2.stored key = db.stored key := by
  cases hcreate : db.createTable with
  | none => rfl
  | some next =>
      cases fault with
      | none => exact stored_createTable hcreate key
      | notApplied => rfl
      | answerLost => exact stored_createTable hcreate key

theorem execute_eq_true {db : ExecutionDb} {fault : Fault}
    {accepted : Option ExecutionDb} :
    (db.execute fault accepted).1 = true ↔
      fault = .none ∧ ∃ next, accepted = some next ∧
        (db.execute fault accepted).2 = next := by
  cases accepted with
  | none => simp [execute]
  | some next => cases fault <;> simp [execute]

end ExecutionDb

section Call

variable {faults : ExecutionFaults} {ofNull : Option Int64}
  {key : Str × Str} {newSeqId : Int64} {db : ExecutionDb}

theorem returnsStored_updateSeqId {stored : Option Int64} {seqId : Int64}
    (hstored : db.stored key = some stored) :
    ReturnsStored key (updateSeqId faults key newSeqId seqId db) ↔
      faults.Keeps newSeqId ∧ stored = some seqId ∨
        faults.Updates newSeqId seqId := by
  unfold ReturnsStored updateSeqId ExecutionFaults.Keeps
    ExecutionFaults.Updates
  by_cases hnew : -1 < newSeqId
  · cases hfault : faults.statement .setNextSeqId with
    | none =>
        simp [hnew, ExecutionDb.execute, ExecutionDb.stored_setNextSeqId,
          hstored]
    | notApplied => simp [hnew, ExecutionDb.execute, hstored]
    | answerLost =>
        simp [hnew, ExecutionDb.execute, ExecutionDb.stored_setNextSeqId,
          hstored]
  · simp [hnew, hstored]

theorem lastExecution_of_not_reads (hreads : ¬ faults.Reads db) :
    (PgEventStore.LastExecution faults ofNull key newSeqId db).1 = 0 ∧
      (PgEventStore.LastExecution faults ofNull key newSeqId db).2.stored key =
        db.stored key := by
  have hcreated := db.stored_execute_createTable
    (faults.statement .createTable) key
  unfold PgEventStore.LastExecution
  by_cases hborrow : faults.borrow = true
  · rw [if_pos hborrow]
    exact ⟨rfl, rfl⟩
  · rw [if_neg hborrow]
    dsimp only
    by_cases hcreate :
        (db.execute (faults.statement .createTable) db.createTable).1 = true
    · obtain ⟨hfault, next, hnext, _⟩ :=
        ExecutionDb.execute_eq_true.mp hcreate
      have hselect : faults.statement .selectSeqId ≠ .none := by
        intro hselect
        apply hreads
        exact ⟨by simpa using hborrow, hfault, by simp [hnext], hselect⟩
      rw [if_neg (not_not.mpr hcreate), if_pos hselect]
      exact ⟨rfl, hcreated⟩
    · rw [if_pos hcreate]
      exact ⟨rfl, hcreated⟩

theorem lastExecution_of_reads (hreads : faults.Reads db) :
    ∃ next, db.createTable = some next ∧
      next.stored key = db.stored key ∧
      PgEventStore.LastExecution faults ofNull key newSeqId db =
        match db.stored key with
        | some stored =>
            match stored.or ofNull with
            | some seqId => updateSeqId faults key newSeqId seqId next
            | none => (0, next)
        | none => insertSeqId faults key newSeqId next := by
  obtain ⟨hborrow, hfault, haccepted, hselect⟩ := hreads
  obtain ⟨next, hnext⟩ := Option.isSome_iff_exists.mp haccepted
  have hstored := ExecutionDb.stored_createTable hnext key
  refine ⟨next, hnext, hstored, ?_⟩
  rw [PgEventStore.LastExecution, hborrow, hnext, hfault, hselect, ← hstored]
  rfl

theorem returnsStored_insertSeqId {next : ExecutionDb}
    (hmissing : next.stored key = none) :
    ReturnsStored key (insertSeqId faults key newSeqId next) ↔
      faults.statement .insertDefault = .none ∧
        (next.insertDefault key).isSome ∧ faults.Updates newSeqId 0 := by
  unfold insertSeqId
  cases hinsert : next.insertDefault key with
  | none => simp [ExecutionDb.execute, ReturnsStored, hmissing]
  | some after =>
      have hafter := ExecutionDb.stored_insertDefault hinsert hmissing
      cases hfault : faults.statement .insertDefault with
      | none =>
          have hupdate := @returnsStored_updateSeqId faults key newSeqId after
            _ 0 hafter
          simpa [ExecutionDb.execute] using hupdate
      | notApplied => simp [ExecutionDb.execute, ReturnsStored, hmissing]
      | answerLost => simp [ExecutionDb.execute, ReturnsStored, hafter]

/-- The returned value is the stored one exactly when the number of an
existing row was read or was 0, and a missing row got a new number. -/
theorem lastExecution_returnsStored_iff (faults : ExecutionFaults)
    (ofNull : Option Int64) (uuidV3 : Str → Str) (type : Str)
    (subscriber : LiteralText) (newSeqId : Int64) (db : ExecutionDb) :
    ReturnsStored (executionKey uuidV3 type subscriber)
        (PgEventStore.LastExecution faults ofNull
          (executionKey uuidV3 type subscriber) newSeqId db) ↔
      StoredIsReturned faults ofNull (executionKey uuidV3 type subscriber)
        newSeqId db := by
  generalize executionKey uuidV3 type subscriber = key
  unfold StoredIsReturned
  by_cases hreads : faults.Reads db
  · obtain ⟨next, hnext, hstored, hresult⟩ :=
      @lastExecution_of_reads faults ofNull key newSeqId db hreads
    rw [hresult]
    cases hdb : db.stored key with
    | none =>
        rw [hdb] at hstored
        dsimp only
        rw [returnsStored_insertSeqId hstored]
        simp [hreads, hnext]
    | some stored =>
        rw [hdb] at hstored
        cases stored with
        | some seqId =>
            have hupdate := @returnsStored_updateSeqId faults key newSeqId next
              _ seqId hstored
            simpa [hreads] using hupdate
        | none =>
            cases ofNull with
            | none => simp [ReturnsStored, hstored]
            | some seqId =>
                have hupdate := @returnsStored_updateSeqId faults key newSeqId
                  next _ seqId hstored
                simpa [hreads] using hupdate
  · obtain ⟨hvalue, hstored⟩ :=
      @lastExecution_of_not_reads faults ofNull key newSeqId db hreads
    unfold ReturnsStored
    rw [hvalue, hstored]
    cases db.stored key with
    | none => simp [hreads]
    | some stored =>
        cases stored with
        | none => simp [hreads]
        | some seqId => simp [hreads]

end Call

/-- The tables before the first call for a subscriber. -/
def firstExecutionDb : ExecutionDb where
  mtStreams := some ["6ba7b811".toList]
  mtLastExecution := none

def noExecutionFaults : ExecutionFaults where
  borrow := false
  statement _ := .none

/-- The first call returns 0 and stores -1. -/
theorem firstExecution_not_returnsStored :
    ¬ ∀ (faults : ExecutionFaults) (ofNull : Option Int64)
        (uuidV3 : Str → Str) (type : Str) (subscriber : LiteralText)
        (newSeqId : Int64) (db : ExecutionDb),
      ReturnsStored (executionKey uuidV3 type subscriber)
        (PgEventStore.LastExecution faults ofNull
          (executionKey uuidV3 type subscriber) newSeqId db) := by
  intro hclaim
  have hreturns := hclaim noExecutionFaults none
    (fun _ => "6ba7b811".toList) "DROID".toList
    ⟨"billing".toList, by decide, by decide⟩ (-1) firstExecutionDb
  cases hreturns

/-! ## The cursor of a subscription -/

section Cursor

variable {faults : ExecutionFaults} {ofNull : Option Int64}
  {key : Str × Str} {newSeqId : Int64} {db : ExecutionDb}

def ExecutionDb.cursor (db : ExecutionDb) (key : Str × Str) : Option ℤ :=
  (db.stored key).join.map Int64.toInt

def ExecutionFaults.fails (faults : ExecutionFaults) (stmt : ExecutionStmt) :
    Bool :=
  faults.statement stmt ≠ .none

theorem fails_eq_false {stmt : ExecutionStmt}
    (hnone : faults.statement stmt = .none) : faults.fails stmt = false := by
  simp [ExecutionFaults.fails, hnone]

theorem fails_eq_true {stmt : ExecutionStmt}
    (hfault : faults.statement stmt ≠ .none) : faults.fails stmt = true := by
  simp [ExecutionFaults.fails, hfault]

theorem updateSeqId_cursor {stored seqId : Int64}
    (hanswers : ∀ stmt, faults.statement stmt ≠ .answerLost)
    (hstored : db.stored key = some (some stored)) :
    setNextSeqId faults.fails stored.toInt seqId.toInt newSeqId.toInt =
      ((updateSeqId faults key newSeqId seqId db).2.cursor key,
        (updateSeqId faults key newSeqId seqId db).1.toInt) := by
  have hlt : -1 < newSeqId.toInt ↔ -1 < newSeqId := by
    rw [Int64.lt_iff_toInt_lt]
    rfl
  unfold setNextSeqId updateSeqId ExecutionDb.cursor
  by_cases hnew : -1 < newSeqId
  · cases hfault : faults.statement .setNextSeqId with
    | none =>
        simp [hlt, hnew, fails_eq_false hfault, ExecutionDb.execute,
          ExecutionDb.stored_setNextSeqId, hstored]
    | notApplied =>
        have hfails : faults.fails .setNextSeqId = true :=
          fails_eq_true (by simp [hfault])
        simp [hnew, hfails, ExecutionDb.execute, hstored]
    | answerLost => exact absurd hfault (hanswers _)
  · simp [hlt, hnew, hstored]

/-- The branch of a missing row, with the statements before it answered. -/
theorem insertSeqId_cursor
    (hanswers : ∀ stmt, faults.statement stmt ≠ .answerLost)
    (haccepts : (db.insertDefault key).isSome)
    (hcreated : faults.fails .createTable = false)
    (hselected : faults.fails .selectSeqId = false)
    (hmissing : db.stored key = none) :
    lastExecution faults.fails none newSeqId.toInt =
      ((insertSeqId faults key newSeqId db).2.cursor key,
        (insertSeqId faults key newSeqId db).1.toInt) := by
  obtain ⟨after, hafter⟩ := Option.isSome_iff_exists.mp haccepts
  have hstored := ExecutionDb.stored_insertDefault hafter hmissing
  simp only [lastExecution, hcreated, hselected, Bool.false_eq_true, or_self,
    if_false, insertSeqId, hafter]
  cases hinsert : faults.statement .insertDefault with
  | none =>
      simp only [fails_eq_false hinsert, ExecutionDb.execute,
        Bool.false_eq_true, if_false, not_true]
      exact @updateSeqId_cursor faults key newSeqId after (-1) 0 hanswers
        hstored
  | notApplied =>
      have hfails : faults.fails .insertDefault = true :=
        fails_eq_true (by simp [hinsert])
      simp [hfails, ExecutionDb.execute, ExecutionDb.cursor, hmissing]
  | answerLost => exact absurd hinsert (hanswers _)

/-- Where the tables exist and take the row, and every failing statement has
no effect, a call moves the cursor of the subscription as described there. -/
theorem lastExecution_cursor (hborrow : faults.borrow = false)
    (hanswers : ∀ stmt, faults.statement stmt ≠ .answerLost)
    (htable : db.mtLastExecution.isSome)
    (haccepts : (db.insertDefault key).isSome)
    (hnumber : db.stored key ≠ some none) :
    lastExecution faults.fails (db.cursor key) newSeqId.toInt =
      ((PgEventStore.LastExecution faults ofNull key newSeqId db).2.cursor key,
        (PgEventStore.LastExecution faults ofNull key newSeqId db).1.toInt) := by
  have hcreate : db.createTable = some db := by
    obtain ⟨table, htable⟩ := Option.isSome_iff_exists.mp htable
    rw [ExecutionDb.createTable, htable]
  by_cases hreads : faults.Reads db
  · obtain ⟨next, hnext, _, hresult⟩ :=
      @lastExecution_of_reads faults ofNull key newSeqId db hreads
    obtain rfl : db = next := Option.some.inj (hcreate.symm.trans hnext)
    obtain ⟨_, hcreated, _, hselected⟩ := hreads
    have hcreateFails := fails_eq_false hcreated
    have hselectFails := fails_eq_false hselected
    rw [hresult]
    cases hdb : db.stored key with
    | some stored =>
        cases stored with
        | none => exact absurd hdb hnumber
        | some seqId =>
            have hcursor : db.cursor key = some seqId.toInt := by
              simp [ExecutionDb.cursor, hdb]
            simp only [lastExecution, hcursor, hcreateFails, hselectFails,
              Bool.false_eq_true, or_self, if_false, Option.some_or]
            exact updateSeqId_cursor hanswers hdb
    | none =>
        have hcursor : db.cursor key = none := by
          simp [ExecutionDb.cursor, hdb]
        rw [hcursor]
        exact insertSeqId_cursor hanswers haccepts hcreateFails hselectFails
          hdb
  · obtain ⟨hvalue, hstored⟩ :=
      @lastExecution_of_not_reads faults ofNull key newSeqId db hreads
    have hfails : faults.fails .createTable = true ∨
        faults.fails .selectSeqId = true := by
      by_contra hnone
      apply hreads
      simp only [ExecutionFaults.fails, not_or] at hnone
      exact ⟨hborrow, by simpa using hnone.1, by simp [hcreate],
        by simpa using hnone.2⟩
    rw [hvalue, ExecutionDb.cursor, ExecutionDb.cursor, hstored]
    simp [lastExecution, hfails]

end Cursor

end StoreCpp
