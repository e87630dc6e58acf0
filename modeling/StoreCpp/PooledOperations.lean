import StoreCpp.EventSearch
import StoreCpp.EventStoreSave
import StoreCpp.QueryFormatting
import StoreCpp.ResourcePool
import StoreCpp.SubscriberCursor

/-!
# The operations of a client on its pool

Every operation of `pgsql::Client` and its event store borrows a connection
in a `try` block, catches three kinds of exceptions and returns the connection
after the handlers.  `count` returns it before its own `return`, and a handler
of `Save` returns from the call.
-/

namespace StoreCpp

open Printf ResourcePool StepMachine

/-- An exception, as the three handlers tell it apart; the last copies a
`std::exception`, which keeps no text. -/
inductive Thrown where
  | connectionException (what : Str)
  | executionException (what : Str)
  | otherException
  deriving DecidableEq

def Thrown.error : Thrown → ErrorType × Str
  | .connectionException what => (.connection, what)
  | .executionException what => executionError what
  | .otherException => (.unknown, "std::exception".toList)

/-- What the driver and the JSON parser do during one operation. -/
structure Driver (κ ρ π : Type) where
  execute : κ → Str → List π → Except Thrown (List ρ)
  asInt64 : ρ → ℕ → Except Thrown Int64
  asString : ρ → ℕ → Except Thrown Str
  asTimestamp : ρ → ℕ → Except Thrown Int64
  parse : Str → Except Thrown Json

def stripSoh : Str → Str
  | '\x01' :: rest => rest
  | str => str

/-- The conversions of the rows before the first that throws. -/
def convertRows {ρ υ : Type} (convert : ρ → Except Thrown υ) :
    List ρ → List υ × Option Thrown
  | [] => ([], none)
  | row :: rows =>
      match convert row with
      | .ok value =>
          let rest := convertRows convert rows
          (value :: rest.1, rest.2)
      | .error thrown => ([], some thrown)

abbrev ClientPool (σ κ : Type) := Pool σ κ Thrown

section Operations

variable {σ κ ρ π υ : Type}

namespace PgClient

/-- `save(sql, errType)`. -/
def save (pool : ClientPool σ κ) (driver : Driver κ ρ π) (sql : Str)
    (errType : Option ErrorType) (state : Traced σ κ) :
    Option ((Str × Option ErrorType) × Traced σ κ) :=
  pool.borrowing ("Succeeded".toList, errType)
    (fun conn =>
      match driver.execute conn (cstr sql) [] with
      | .ok _ => some (("Succeeded".toList, errType), none)
      | .error thrown => some (("Succeeded".toList, errType), some thrown))
    (fun thrown _ => (thrown.error.2, errType.map fun _ => thrown.error.1))
    state

/-- The connection's part of `list`: executes the statement, parses every row
and then converts the documents one by one. -/
def fetch (pool : ClientPool σ κ) (driver : Driver κ ρ π)
    (fromJson : Json → Except Thrown υ) (sql : Option Str)
    (state : Traced σ κ) : Option (List υ × Traced σ κ) :=
  pool.borrowing []
    (fun conn => sql.map fun sql =>
      match driver.execute conn (cstr sql) [] with
      | .error thrown => ([], some thrown)
      | .ok rows =>
          match rows.mapM fun row => do
            driver.parse (stripSoh (← driver.asString row 0)) with
          | .error thrown => ([], some thrown)
          | .ok jsons => convertRows fromJson jsons)
    (fun _ pocos => pocos)
    state

def list (pool : ClientPool σ κ) (driver : Driver κ ρ π)
    (fromJson : Json → Except Thrown υ) (version : Str) (U : TypeName)
    (offset limit : Int32) (sortKey sortDirection query : Str)
    (state : Traced σ κ) : Option (List υ × Traced σ κ) :=
  fetch pool driver fromJson
    (Client.list version U offset limit sortKey sortDirection query) state

/-- `search`, `collect` and `one`, which all end in `list`. -/
def request (pool : ClientPool σ κ) (driver : Driver κ ρ π)
    (fromJson : Json → Except Thrown υ) (version : Str) (A : TypeName)
    (request : Request) (state : Traced σ κ) :
    Option (List υ × Traced σ κ) :=
  (request.query version A).bind fun query =>
    fetch pool driver fromJson (request.executed version A query) state

def countSql : Str :=
  "select count(1) result from %s.%s ".toList ++
  "where type = coalesce(%s, type) %s".toList

def countQuery (version : Str) (A : TypeName) (type search : Str) :
    Option Str :=
  let searchFilter :=
    if 0 < search.length then " and ".toList ++ search else []
  stringFormat countSql [
    .str version,
    .str (resolveTypeToString A),
    .str (typeFilter type),
    .str searchFilter]

def countResult (driver : Driver κ ρ π) (conn : κ) (query : Str) :
    Except Thrown Int64 := do
  let resp ← driver.execute conn (cstr query) []
  match resp with
  | [] => .error .otherException
  | row :: _ => driver.asInt64 row 0

def count (pool : ClientPool σ κ) (driver : Driver κ ρ π) (version : Str)
    (A : TypeName) (type search : Str) (state : Traced σ κ) :
    Option (Int64 × Traced σ κ) :=
  (countQuery version A type search).map fun query =>
    match pool.take state with
    | .error _ => (-1, state)
    | .ok (conn, held) =>
        match countResult driver conn query with
        | .ok r => (r, pool.give conn held)
        | .error _ => (-1, pool.give conn held)

/-- `select`; the callback gets the rows and may throw. -/
def select (pool : ClientPool σ κ) (driver : Driver κ ρ π) (query : Str)
    (params : List π) (callback : List ρ → Option Thrown)
    (state : Traced σ κ) : Option (Unit × Traced σ κ) :=
  pool.borrowing ()
    (fun conn =>
      match driver.execute conn (cstr query) params with
      | .ok resp => some ((), callback resp)
      | .error thrown => some ((), some thrown))
    (fun _ _ => ())
    state

end PgClient

namespace PgEventStore

/-- The loop of `Save`.  A handler returns from it, past the `unborrow`. -/
def sendGroups (pool : ClientPool σ κ) (attempt : SaveAttempt) :
    ℕ → List (Str × List IEvent) → Tables → Traced σ κ →
      Option (ErrorType × Str) × Tables × Traced σ κ
  | _, [], tables, state => (none, tables, state)
  | k, group :: rest, tables, state =>
      match pool.take state with
      | .error thrown => (some thrown.error, tables, state)
      | .ok (conn, held) =>
          match appendGroup attempt k group tables with
          | .ok next =>
              sendGroups pool attempt (k + 1) rest next (pool.give conn held)
          | .error error => (some error, tables, held)

def save (pool : ClientPool σ κ) (attempt : SaveAttempt) (store : EventStore)
    (tables : Tables) (state : Traced σ κ) :
    (ℕ × Str) × EventStore × Tables × Traced σ κ :=
  match sendGroups pool attempt 0 store.groups tables state with
  | (none, next) =>
      ((ErrorType.none.code, "Succeeded".toList), store.reset, next)
  | (some error, next) => ((error.1.code, error.2), store, next)

/-- `LastExecution`; each of its statements may throw, and all handlers only
write to the log. -/
def lastExecution (pool : ClientPool σ κ)
    (thrown : ExecutionStmt → Option Thrown) (stored : Option ℤ)
    (newSeqId : ℤ) (state : Traced σ κ) :
    Option ((Option ℤ × ℤ) × Traced σ κ) :=
  pool.borrowing (stored, 0)
    (fun _ =>
      some (StoreCpp.lastExecution (fun stmt => (thrown stmt).isSome) stored
        newSeqId, none))
    (fun _ locals => locals)
    state

def readEvent (driver : Driver κ ρ π) (row : ρ) : Except Thrown IEvent := do
  let data ← driver.parse (stripSoh (← driver.asString row 5))
  let seqId ← driver.asInt64 row 0
  let id ← driver.asString row 1
  let streamId ← driver.asString row 2
  let type ← driver.asString row 3
  let version ← driver.asInt64 row 4
  let timestamp ← driver.asTimestamp row 6
  return { seqId, id, streamId, type, version, data, timestamp }

def search (pool : ClientPool σ κ) (driver : Driver κ ρ π)
    (dbSchema type : Str) (fromSeqId : Int64) (limit : Int32) (exact : Bool)
    (mustExistKeys : List Str) (filters : List (Str × List Str))
    (state : Traced σ κ) : Option (List IEvent × Traced σ κ) :=
  pool.borrowing []
    (fun conn =>
      (searchStatement dbSchema type fromSeqId limit exact mustExistKeys
        filters).map fun sql =>
          match driver.execute conn (cstr sql) [] with
          | .error thrown => ([], some thrown)
          | .ok rows => convertRows (readEvent driver) rows)
    (fun _ events => events)
    state

end PgEventStore

/-! ## Runs of one client -/

structure ClientState (σ κ : Type) where
  pool : Traced σ κ
  store : EventStore
  tables : Tables

inductive ClientCall (κ ρ π : Type) : Type 1 where
  | save (driver : Driver κ ρ π) (sql : Str) (errType : Option ErrorType)
  | list {υ : Type} (driver : Driver κ ρ π)
      (fromJson : Json → Except Thrown υ) (version : Str) (U : TypeName)
      (offset limit : Int32) (sortKey sortDirection query : Str)
  | request {υ : Type} (driver : Driver κ ρ π)
      (fromJson : Json → Except Thrown υ) (version : Str) (A : TypeName)
      (request : Request)
  | count (driver : Driver κ ρ π) (version : Str) (A : TypeName)
      (type search : Str)
  | select (driver : Driver κ ρ π) (query : Str) (params : List π)
      (callback : List ρ → Option Thrown)
  | append (event : IEvent)
  | saveEvents (attempt : SaveAttempt)
  | lastExecution (thrown : ExecutionStmt → Option Thrown)
      (stored : Option ℤ) (newSeqId : ℤ)
  | searchEvents (driver : Driver κ ρ π) (dbSchema type : Str)
      (fromSeqId : Int64) (limit : Int32) (exact : Bool)
      (mustExistKeys : List Str) (filters : List (Str × List Str))

def ClientState.leave {α : Type} (state : ClientState σ κ)
    (result : Option (α × Traced σ κ)) : Option (ClientState σ κ) :=
  result.map fun left => { state with pool := left.2 }

def ClientState.perform (pool : ClientPool σ κ) (state : ClientState σ κ) :
    ClientCall κ ρ π → Option (ClientState σ κ)
  | .save driver sql errType =>
      state.leave (PgClient.save pool driver sql errType state.pool)
  | .list driver fromJson version U offset limit sortKey sortDirection query =>
      state.leave (PgClient.list pool driver fromJson version U offset limit
        sortKey sortDirection query state.pool)
  | .request driver fromJson version A request =>
      state.leave (PgClient.request pool driver fromJson version A request
        state.pool)
  | .count driver version A type search =>
      state.leave (PgClient.count pool driver version A type search
        state.pool)
  | .select driver query params callback =>
      state.leave (PgClient.select pool driver query params callback
        state.pool)
  | .append event => some { state with store := state.store.push event }
  | .saveEvents attempt =>
      let left := PgEventStore.save pool attempt state.store state.tables
        state.pool
      some ⟨left.2.2.2, left.2.1, left.2.2.1⟩
  | .lastExecution thrown stored newSeqId =>
      state.leave (PgEventStore.lastExecution pool thrown stored newSeqId
        state.pool)
  | .searchEvents driver dbSchema type fromSeqId limit exact mustExistKeys
      filters =>
      state.leave (PgEventStore.search pool driver dbSchema type fromSeqId
        limit exact mustExistKeys filters state.pool)

def clientCalls (ρ π : Type) (pool : ClientPool σ κ) :
    Machine (ClientState σ κ) (ClientCall κ ρ π) where
  init state := state.pool.calls = []
  step := ClientState.perform pool

/-- The call leaves as many connections available as it found, and has
returned every connection that it has borrowed exactly once. -/
def ReturnsConnections [DecidableEq κ] (pool : ClientPool σ κ)
    (state : ClientState σ κ) (call : ClientCall κ ρ π) : Prop :=
  ∀ next, state.perform pool call = some next →
    pool.Returned state.pool next.pool

/-- A statement of the loop throws while its connection is borrowed. -/
def StatementThrows (pool : ClientPool σ κ) (attempt : SaveAttempt) :
    ℕ → List (Str × List IEvent) → Tables → Traced σ κ → Prop
  | _, [], _, _ => False
  | k, group :: rest, tables, state =>
      ∃ conn held, pool.take state = .ok (conn, held) ∧
        match appendGroup attempt k group tables with
        | .ok next =>
            StatementThrows pool attempt (k + 1) rest next
              (pool.give conn held)
        | .error _ => True

/-- No statement of a `Save` throws while its connection is borrowed. -/
def NoSaveThrows (pool : ClientPool σ κ) (state : ClientState σ κ) :
    ClientCall κ ρ π → Prop
  | .saveEvents attempt =>
      ¬ StatementThrows pool attempt 0 state.store.groups state.tables
        state.pool
  | _ => True

/-! ## What each operation does to the pool -/

theorem take_of_available {pool : ClientPool σ κ} {state : Traced σ κ}
    (havailable : 0 < pool.available state.pool) :
    ∃ conn held, pool.take state = .ok (conn, held) := by
  obtain ⟨conn, next, hborrow⟩ := pool.borrow_of_available havailable
  refine ⟨conn, ⟨next, state.calls ++ [.borrow conn]⟩, ?_⟩
  rw [Pool.take, hborrow]

theorem save_pool (pool : ClientPool σ κ) (attempt : SaveAttempt)
    (store : EventStore) (tables : Tables) (state : Traced σ κ) :
    (PgEventStore.save pool attempt store tables state).2.2.2 =
      (PgEventStore.sendGroups pool attempt 0 store.groups tables
        state).2.2 := by
  unfold PgEventStore.save
  split
  · rename_i next hsend
    rw [hsend]
  · rename_i error next hsend
    rw [hsend]

variable [DecidableEq κ]

theorem returned_of_count {pool : ClientPool σ κ} {driver : Driver κ ρ π}
    {version : Str} {A : TypeName} {type search : Str} {n : Int64}
    {state final : Traced σ κ}
    (hcount : PgClient.count pool driver version A type search state =
      some (n, final)) : pool.Returned state final := by
  obtain ⟨query, _, hquery⟩ := Option.map_eq_some_iff.mp hcount
  cases htake : pool.take state with
  | error thrown =>
      rw [htake] at hquery
      cases hquery
      exact Pool.Returned.refl pool state
  | ok taken =>
      obtain ⟨conn, held⟩ := taken
      have hreturned := Pool.returned_give_of_take htake
      rw [htake] at hquery
      dsimp only at hquery
      cases hresult : PgClient.countResult driver conn query with
      | ok r =>
          rw [hresult] at hquery
          cases hquery
          exact hreturned
      | error thrown =>
          rw [hresult] at hquery
          cases hquery
          exact hreturned

theorem returned_of_list {pool : ClientPool σ κ} {driver : Driver κ ρ π}
    {fromJson : Json → Except Thrown υ} {version : Str} {U : TypeName}
    {offset limit : Int32} {sortKey sortDirection query : Str}
    {pocos : List υ} {state final : Traced σ κ}
    (hlist : PgClient.list pool driver fromJson version U offset limit
      sortKey sortDirection query state = some (pocos, final)) :
    pool.Returned state final := by
  unfold PgClient.list PgClient.fetch at hlist
  exact Pool.returned_of_borrowing hlist

theorem returned_of_request {pool : ClientPool σ κ} {driver : Driver κ ρ π}
    {fromJson : Json → Except Thrown υ} {version : Str} {A : TypeName}
    {request : Request} {pocos : List υ} {state final : Traced σ κ}
    (hrequest : PgClient.request pool driver fromJson version A request
      state = some (pocos, final)) : pool.Returned state final := by
  obtain ⟨query, _, hfetch⟩ := Option.bind_eq_some_iff.mp hrequest
  unfold PgClient.fetch at hfetch
  exact Pool.returned_of_borrowing hfetch

theorem returned_of_sendGroups {pool : ClientPool σ κ}
    {attempt : SaveAttempt} {k : ℕ} {groups : List (Str × List IEvent)}
    {tables : Tables} {state : Traced σ κ}
    (hnothrow : ¬ StatementThrows pool attempt k groups tables state) :
    pool.Returned state
      (PgEventStore.sendGroups pool attempt k groups tables state).2.2 := by
  induction groups generalizing k tables state with
  | nil => exact Pool.Returned.refl pool state
  | cons group rest ih =>
      rw [PgEventStore.sendGroups]
      cases htake : pool.take state with
      | error thrown => exact Pool.Returned.refl pool state
      | ok taken =>
          obtain ⟨conn, held⟩ := taken
          rw [StatementThrows] at hnothrow
          cases hsend : appendGroup attempt k group tables with
          | error error =>
              rw [hsend] at hnothrow
              exact absurd ⟨conn, held, htake, trivial⟩ hnothrow
          | ok next =>
              rw [hsend] at hnothrow
              have hrest : ¬ StatementThrows pool attempt (k + 1) rest next
                  (pool.give conn held) :=
                fun hthrows => hnothrow ⟨conn, held, htake, hthrows⟩
              exact (Pool.returned_give_of_take htake).trans (ih hrest)

theorem leaked_of_sendGroups {pool : ClientPool σ κ}
    {attempt : SaveAttempt} {k : ℕ} {groups : List (Str × List IEvent)}
    {tables : Tables} {state : Traced σ κ}
    (hthrows : StatementThrows pool attempt k groups tables state) :
    pool.Leaked state
      (PgEventStore.sendGroups pool attempt k groups tables state).2.2 := by
  induction groups generalizing k tables state with
  | nil => exact hthrows.elim
  | cons group rest ih =>
      rw [StatementThrows] at hthrows
      obtain ⟨conn, held, htake, hgroup⟩ := hthrows
      rw [PgEventStore.sendGroups, htake]
      dsimp only
      cases hsend : appendGroup attempt k group tables with
      | error error => exact Pool.leaked_of_take htake
      | ok next =>
          rw [hsend] at hgroup
          exact (Pool.returned_give_of_take htake).trans_leaked (ih hgroup)

theorem returned_of_leave {pool : ClientPool σ κ} {α : Type}
    {state next : ClientState σ κ} {result : Option (α × Traced σ κ)}
    (hresult : ∀ value final, result = some (value, final) →
      pool.Returned state.pool final)
    (hleave : state.leave result = some next) :
    pool.Returned state.pool next.pool := by
  obtain ⟨left, hleft, hnext⟩ := Option.map_eq_some_iff.mp hleave
  cases hnext
  exact hresult left.1 left.2 hleft

theorem returnsConnections_iff (pool : ClientPool σ κ)
    (state : ClientState σ κ) (call : ClientCall κ ρ π) :
    ReturnsConnections pool state call ↔ NoSaveThrows pool state call := by
  cases call with
  | saveEvents attempt =>
      constructor
      · intro hreturns hthrows
        have hreturned := hreturns _ rfl
        rw [save_pool] at hreturned
        exact (leaked_of_sendGroups hthrows).not_returned hreturned
      · intro hnothrow next hnext
        cases hnext
        rw [save_pool]
        exact returned_of_sendGroups hnothrow
  | append event =>
      refine iff_of_true ?_ trivial
      intro next hnext
      cases hnext
      exact Pool.Returned.refl pool state.pool
  | count driver version A type search =>
      refine iff_of_true ?_ trivial
      intro next hnext
      exact returned_of_leave (fun _ _ => returned_of_count) hnext
  | request driver fromJson version A request =>
      refine iff_of_true ?_ trivial
      intro next hnext
      exact returned_of_leave (fun _ _ => returned_of_request) hnext
  | save driver sql errType =>
      refine iff_of_true ?_ trivial
      intro next hnext
      exact returned_of_leave (fun _ _ => Pool.returned_of_borrowing) hnext
  | list driver fromJson version U offset limit sortKey sortDirection query =>
      refine iff_of_true ?_ trivial
      intro next hnext
      exact returned_of_leave (fun _ _ => returned_of_list) hnext
  | select driver query params callback =>
      refine iff_of_true ?_ trivial
      intro next hnext
      exact returned_of_leave (fun _ _ => Pool.returned_of_borrowing) hnext
  | lastExecution thrown stored newSeqId =>
      refine iff_of_true ?_ trivial
      intro next hnext
      exact returned_of_leave (fun _ _ => Pool.returned_of_borrowing) hnext
  | searchEvents driver dbSchema type fromSeqId limit exact mustExistKeys
      filters =>
      refine iff_of_true ?_ trivial
      intro next hnext
      exact returned_of_leave (fun _ _ => Pool.returned_of_borrowing) hnext

theorem connections_returned_iff (pool : ClientPool σ κ)
    (start : ClientState σ κ) (calls : List (ClientCall κ ρ π)) :
    (clientCalls ρ π pool).Guarded (ReturnsConnections pool) start calls ↔
      (clientCalls ρ π pool).Guarded (NoSaveThrows pool) start calls := by
  have hguard : @ReturnsConnections σ κ ρ π _ pool = NoSaveThrows pool := by
    funext state call
    exact propext (returnsConnections_iff pool state call)
  rw [hguard]

/-- After such a run the pool is as full as at its start. -/
theorem returned_of_run {pool : ClientPool σ κ}
    {start final : ClientState σ κ} {calls : List (ClientCall κ ρ π)}
    (hguard : (clientCalls ρ π pool).Guarded (NoSaveThrows pool) start calls)
    (hrun : (clientCalls ρ π pool).run start calls = some final) :
    pool.Returned start.pool final.pool := by
  apply Machine.run_invariant_of_guarded ?_ hguard hrun
    (Pool.Returned.refl pool start.pool)
  intro state call next hreturned hnothrow hstep
  exact hreturned.trans
    ((returnsConnections_iff pool state call).mpr hnothrow next hstep)

theorem sendGroups_eq_of_available {pool : ClientPool σ κ}
    {attempt : SaveAttempt} {k : ℕ} {groups : List (Str × List IEvent)}
    {tables : Tables} {state : Traced σ κ}
    (havailable : 0 < pool.available state.pool) :
    ((PgEventStore.sendGroups pool attempt k groups tables state).1,
        (PgEventStore.sendGroups pool attempt k groups tables state).2.1) =
      appendGroups attempt k groups tables := by
  induction groups generalizing k tables state with
  | nil => rfl
  | cons group rest ih =>
      obtain ⟨conn, held, htake⟩ := take_of_available havailable
      have hsame := (Pool.returned_give_of_take htake).available
      rw [PgEventStore.sendGroups, StoreCpp.appendGroups, htake]
      dsimp only
      cases hsend : appendGroup attempt k group tables with
      | error error => rfl
      | ok next => exact ih (hsame ▸ havailable)

/-- With a connection at hand, the pool does not change what `Save` does. -/
theorem save_eq_of_available {pool : ClientPool σ κ} {attempt : SaveAttempt}
    {store : EventStore} {tables : Tables} {state : Traced σ κ}
    (havailable : 0 < pool.available state.pool) :
    let left := PgEventStore.save pool attempt store tables state
    (left.1, left.2.1, left.2.2.1) = saveCalls attempt store tables := by
  have hsend := @sendGroups_eq_of_available _ _ _ pool attempt 0
    store.groups tables state havailable
  unfold PgEventStore.save saveCalls
  rw [← hsend]
  obtain ⟨error, next⟩ :=
    PgEventStore.sendGroups pool attempt 0 store.groups tables state
  cases error with
  | none => rfl
  | some error => rfl

end Operations

/-- A pool that hands out its connections in turn. -/
def queuePool : ClientPool (List ℕ) ℕ where
  available := List.length
  borrow
    | [] => .error .otherException
    | conn :: rest => .ok (conn, rest)
  unborrow conn rest := rest ++ [conn]
  available_of_borrow := by
    intro state next conn hborrow
    cases state with
    | nil => cases hborrow
    | cons head rest =>
        cases hborrow
        rfl
  borrow_of_available := by
    intro state havailable
    cases state with
    | nil => exact absurd havailable (Nat.lt_irrefl 0)
    | cons head rest => exact ⟨head, rest, rfl⟩
  available_unborrow := by simp

def oneConnection : ClientState (List ℕ) ℕ where
  pool := ⟨[7], []⟩
  store := { pending := [orderPlaced] }
  tables := emptyTables

theorem oneConnection_leaked :
    ¬ ∀ (start : ClientState (List ℕ) ℕ)
      (calls : List (ClientCall ℕ Unit Unit)),
      (clientCalls Unit Unit queuePool).Guarded
        (ReturnsConnections queuePool) start calls := by
  intro hclaim
  have hreturned := (hclaim oneConnection
    [.saveEvents (attemptFailingAt (some 0) 100)]).1 _ rfl
  have havailable := hreturned.available
  have hbefore : queuePool.available oneConnection.pool.pool = 1 := rfl
  rw [hbefore] at havailable
  exact absurd havailable (by decide)

end StoreCpp
