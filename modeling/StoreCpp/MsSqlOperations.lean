import StoreCpp.InsertedValues

/-!
# The operations of `MsSqlBaseClient` on its pool

The three operations hold the connection in a pointer that starts as null.
`execute` and `insertOne` assign it what they borrow; `runQuery` borrows
without assigning it.  A handler for `TDSPP::Exception` returns the pointer to
the pool.
-/

namespace StoreCpp

open ResourcePool StepMachine

/-- What leaves `borrow`: an exception that the operations catch, or one that
they do not. -/
inductive MsSqlThrown where
  | tdspp (message : Str)
  | connectionUnavailable
  deriving DecidableEq

/-- A pool of connection pointers.  It hands out no null as long as it has
been given none. -/
structure PointerPool (σ γ : Type) extends
    Pool σ (Option γ) MsSqlThrown where
  sound : σ → Prop
  borrow_ne_null : ∀ {state next : σ} {conn : Option γ}, sound state →
    borrow state = .ok (conn, next) → conn ≠ none
  borrow_sound : ∀ {state next : σ} {conn : Option γ}, sound state →
    borrow state = .ok (conn, next) → sound next
  unborrow_sound : ∀ {state : σ} {conn : Option γ}, sound state →
    conn ≠ none → sound (unborrow conn state)

/-- The calls of the driver; each may throw a `TDSPP::Exception` with its
message. -/
structure MsSqlDriver (γ ρ : Type) where
  sql : γ → Str → Except Str ρ
  executeQuery : ρ → Except Str ρ
  execute : γ → Str → Except Str Unit

section Operations

variable {σ γ ρ : Type}

/-- How an operation ends: with a value, or with an exception that it does not
catch.  It is undefined when it dereferences null. -/
abbrev MsSqlResult (σ γ α : Type) :=
  Option (Except MsSqlThrown α × Traced σ (Option γ))

namespace MsSqlBaseClient

/-- `unborrow` behind `if (conn)`. -/
def giveUnlessNull (pool : PointerPool σ γ) (conn : Option γ)
    (state : Traced σ (Option γ)) : Traced σ (Option γ) :=
  if conn.isSome then pool.give conn state else state

/-- `runQuery`, whose pointer is still null where it is dereferenced. -/
def runQuery (pool : PointerPool σ γ) (driver : MsSqlDriver γ ρ)
    (sqlStmt : Str) (state : Traced σ (Option γ)) :
    MsSqlResult σ γ (Option ρ) :=
  let conn : Option γ := none
  match pool.take state with
  | .error (.tdspp _) => some (.ok none, giveUnlessNull pool conn state)
  | .error thrown => some (.error thrown, state)
  | .ok (_, held) =>
      conn.map fun db =>
        match (driver.sql db sqlStmt).bind driver.executeQuery with
        | .ok q => (.ok (some q), pool.give conn held)
        | .error _ => (.ok none, giveUnlessNull pool conn held)

/-- The part of `execute` and `insertOne` that talks to the server. -/
def executing (pool : PointerPool σ γ) (driver : MsSqlDriver γ ρ)
    (sqlStmt : Str) (state : Traced σ (Option γ)) :
    MsSqlResult σ γ (ℕ × Str) :=
  match pool.take state with
  | .error (.tdspp message) =>
      some (.ok (0, message), pool.give none state)
  | .error thrown => some (.error thrown, state)
  | .ok (conn, held) =>
      conn.map fun db =>
        match driver.execute db sqlStmt with
        | .ok _ =>
            (.ok (1, "Succeeded".toList), giveUnlessNull pool conn held)
        | .error message => (.ok (0, message), pool.give conn held)

def execute (pool : PointerPool σ γ) (driver : MsSqlDriver γ ρ)
    (sqlStmt : Str) (state : Traced σ (Option γ)) :
    MsSqlResult σ γ (ℕ × Str) :=
  executing pool driver sqlStmt state

def insertOne (pool : PointerPool σ γ) (driver : MsSqlDriver γ ρ)
    (schema table_name : Str) (fields : List Str) (params : List Param)
    (state : Traced σ (Option γ)) : MsSqlResult σ γ (ℕ × Str) :=
  (insertOneStatement schema table_name fields params).bind fun ss =>
    executing pool driver ss state

end MsSqlBaseClient

/-! ## Runs of one client -/

/-- The arguments of `insertOne`, with a parameter for each field. -/
structure InsertArgs where
  schema : Str
  tableName : Str
  fields : List Str
  params : List Param
  fields_ne : fields ≠ []
  paired : fields.length ≤ params.length

inductive MsSqlCall (γ ρ : Type) where
  | runQuery (driver : MsSqlDriver γ ρ) (sqlStmt : Str)
  | execute (driver : MsSqlDriver γ ρ) (sqlStmt : Str)
  | insertOne (driver : MsSqlDriver γ ρ) (args : InsertArgs)

def MsSqlCall.perform (pool : PointerPool σ γ)
    (state : Traced σ (Option γ)) :
    MsSqlCall γ ρ → Option (Traced σ (Option γ))
  | runQuery driver sqlStmt =>
      (MsSqlBaseClient.runQuery pool driver sqlStmt state).map Prod.snd
  | execute driver sqlStmt =>
      (MsSqlBaseClient.execute pool driver sqlStmt state).map Prod.snd
  | insertOne driver args =>
      (MsSqlBaseClient.insertOne pool driver args.schema args.tableName
        args.fields args.params state).map Prod.snd

def msSqlCalls (ρ : Type) (pool : PointerPool σ γ) :
    Machine (Traced σ (Option γ)) (MsSqlCall γ ρ) where
  init state := pool.sound state.pool ∧ state.calls = []
  step := MsSqlCall.perform pool

/-- The call dereferences no null and has returned every connection that it
has borrowed exactly once. -/
def EndsWithoutLoan [DecidableEq γ] (pool : PointerPool σ γ)
    (state : Traced σ (Option γ)) (call : MsSqlCall γ ρ) : Prop :=
  ∃ next, call.perform pool state = some next ∧
    pool.Returned state next

/-- A `runQuery` gets no connection, and what the other two get from the pool
is a connection or an exception that they do not catch. -/
def KeepsPointer (pool : PointerPool σ γ) (state : Traced σ (Option γ)) :
    MsSqlCall γ ρ → Prop
  | .runQuery _ _ => ∃ thrown, pool.borrow state.pool = .error thrown
  | _ => ∀ message, pool.borrow state.pool ≠ .error (.tdspp message)

theorem take_error_iff {pool : PointerPool σ γ}
    {state : Traced σ (Option γ)} {thrown : MsSqlThrown} :
    pool.take state = .error thrown ↔
      pool.borrow state.pool = .error thrown := by
  unfold Pool.take
  cases pool.borrow state.pool with
  | error other => simp
  | ok result => simp

theorem writeValues_some {values : List Param} {size : ℕ} (hpos : 0 < size)
    (hle : size ≤ values.length) (ss : Str) :
    ∃ written, writeValues values size ss = some written := by
  have hlength : (values.take (size - 1)).length = size - 1 := by
    rw [List.length_take]
    omega
  have hfront := writeValues_front (values.take (size - 1))
    (values.drop (size - 1)) ss
  rw [hlength, List.take_append_drop] at hfront
  have hlast : size - 1 < values.length := by omega
  unfold writeValues
  rw [hfront, Option.bind_eq_bind, Option.bind_some, Tuples.apply,
    List.getElem?_eq_getElem hlast]
  exact ⟨_, rfl⟩

/-- The text of the statement is made where every field has a parameter. -/
theorem insertOneStatement_some (args : InsertArgs) :
    ∃ ss, MsSqlBaseClient.insertOneStatement args.schema args.tableName
      args.fields args.params = some ss := by
  obtain ⟨written, hwritten⟩ := writeValues_some
    (List.length_pos_iff.mpr args.fields_ne) args.paired
    ("insert into ".toList ++ args.schema ++ ".".toList ++ args.tableName ++
      " (".toList ++ List.intercalate ",".toList args.fields ++
        ") values \n(".toList)
  refine ⟨written ++ ");".toList, ?_⟩
  unfold MsSqlBaseClient.insertOneStatement insertStatement
  simp only [Option.bind_eq_bind]
  rw [writeFields_eq args.fields_ne, Option.bind_some, hwritten,
    Option.bind_some]

theorem MsSqlCall.perform_insertOne (pool : PointerPool σ γ)
    (driver : MsSqlDriver γ ρ) (args : InsertArgs)
    (state : Traced σ (Option γ)) :
    ∃ ss, (MsSqlCall.insertOne driver args).perform pool state =
      (MsSqlBaseClient.executing pool driver ss state).map Prod.snd := by
  obtain ⟨ss, hss⟩ := insertOneStatement_some args
  refine ⟨ss, ?_⟩
  rw [MsSqlCall.perform, MsSqlBaseClient.insertOne, hss]
  rfl

/-- Where the pool has no null, its pointer is always returned. -/
theorem executing_of_ok {pool : PointerPool σ γ} {driver : MsSqlDriver γ ρ}
    {sqlStmt : Str} {state held : Traced σ (Option γ)} {conn : Option γ}
    (hsound : pool.sound state.pool)
    (htake : pool.take state = .ok (conn, held)) :
    ∃ result, MsSqlBaseClient.executing pool driver sqlStmt state =
      some (result, pool.give conn held) := by
  obtain ⟨next, hborrow, _⟩ := Pool.take_eq_ok htake
  have hne := pool.borrow_ne_null hsound hborrow
  unfold MsSqlBaseClient.executing
  rw [htake]
  cases conn with
  | none => exact absurd rfl hne
  | some db =>
      dsimp only [Option.map_some]
      cases driver.execute db sqlStmt with
      | ok done => exact ⟨_, rfl⟩
      | error message => exact ⟨_, rfl⟩

theorem executing_sound {pool : PointerPool σ γ} {driver : MsSqlDriver γ ρ}
    {sqlStmt : Str} {state next : Traced σ (Option γ)}
    (hsound : pool.sound state.pool)
    (hkeeps : ∀ message, pool.borrow state.pool ≠ .error (.tdspp message))
    (hnext : (MsSqlBaseClient.executing pool driver sqlStmt state).map
      Prod.snd = some next) : pool.sound next.pool := by
  cases htake : pool.take state with
  | ok taken =>
      obtain ⟨conn, held⟩ := taken
      obtain ⟨after, hborrow, hheld⟩ := Pool.take_eq_ok htake
      obtain ⟨result, hresult⟩ :=
        @executing_of_ok σ γ ρ pool driver sqlStmt state held conn hsound
          htake
      rw [hresult] at hnext
      cases hnext
      have hafter : pool.sound held.pool := by
        rw [hheld]
        exact pool.borrow_sound hsound hborrow
      exact pool.unborrow_sound hafter (pool.borrow_ne_null hsound hborrow)
  | error thrown =>
      have hborrow := take_error_iff.mp htake
      unfold MsSqlBaseClient.executing at hnext
      rw [htake] at hnext
      cases thrown with
      | tdspp message => exact absurd hborrow (hkeeps message)
      | connectionUnavailable =>
          cases hnext
          exact hsound

theorem perform_sound {pool : PointerPool σ γ}
    {state next : Traced σ (Option γ)} {call : MsSqlCall γ ρ}
    (hsound : pool.sound state.pool) (hkeeps : KeepsPointer pool state call)
    (hnext : call.perform pool state = some next) :
    pool.sound next.pool := by
  cases call with
  | runQuery driver sqlStmt =>
      obtain ⟨thrown, hborrow⟩ := hkeeps
      unfold MsSqlCall.perform MsSqlBaseClient.runQuery at hnext
      dsimp only at hnext
      rw [take_error_iff.mpr hborrow] at hnext
      cases thrown with
      | tdspp message =>
          cases hnext
          exact hsound
      | connectionUnavailable =>
          cases hnext
          exact hsound
  | execute driver sqlStmt => exact executing_sound hsound hkeeps hnext
  | insertOne driver args =>
      obtain ⟨ss, hss⟩ := MsSqlCall.perform_insertOne pool driver args state
      rw [hss] at hnext
      exact executing_sound hsound hkeeps hnext

variable [DecidableEq γ]

theorem runQuery_ends_iff (pool : PointerPool σ γ)
    (driver : MsSqlDriver γ ρ) (sqlStmt : Str)
    (state : Traced σ (Option γ)) :
    EndsWithoutLoan pool state (.runQuery driver sqlStmt) ↔
      ∃ thrown, pool.borrow state.pool = .error thrown := by
  unfold EndsWithoutLoan MsSqlCall.perform MsSqlBaseClient.runQuery
  dsimp only
  cases htake : pool.take state with
  | error thrown =>
      have hborrow := take_error_iff.mp htake
      refine iff_of_true ?_ ⟨thrown, hborrow⟩
      cases thrown with
      | tdspp message =>
          exact ⟨state, rfl, Pool.Returned.refl pool.toPool state⟩
      | connectionUnavailable =>
          exact ⟨state, rfl, Pool.Returned.refl pool.toPool state⟩
  | ok taken =>
      constructor
      · rintro ⟨next, hnext, _⟩
        cases hnext
      · rintro ⟨thrown, hborrow⟩
        rw [take_error_iff.mpr hborrow] at htake
        cases htake

theorem not_returned_give_null (pool : PointerPool σ γ)
    (state : Traced σ (Option γ)) :
    ¬ pool.Returned state (pool.give none state) := by
  intro hreturned
  have havailable := hreturned.available
  have hmore := pool.available_unborrow none state.pool
  have hgiven : (pool.give none state).pool =
      pool.unborrow none state.pool := rfl
  rw [hgiven] at havailable
  omega

theorem executing_ends_iff {pool : PointerPool σ γ}
    {state : Traced σ (Option γ)} (hsound : pool.sound state.pool)
    (driver : MsSqlDriver γ ρ) (sqlStmt : Str) :
    (∃ next, (MsSqlBaseClient.executing pool driver sqlStmt state).map
        Prod.snd = some next ∧ pool.Returned state next) ↔
      ∀ message, pool.borrow state.pool ≠ .error (.tdspp message) := by
  cases htake : pool.take state with
  | ok taken =>
      obtain ⟨conn, held⟩ := taken
      obtain ⟨result, hresult⟩ :=
        @executing_of_ok σ γ ρ pool driver sqlStmt state held conn hsound
          htake
      refine iff_of_true ?_ ?_
      · rw [hresult]
        exact ⟨pool.give conn held, rfl, Pool.returned_give_of_take htake⟩
      · intro message hborrow
        rw [take_error_iff.mpr hborrow] at htake
        cases htake
  | error thrown =>
      have hborrow := take_error_iff.mp htake
      unfold MsSqlBaseClient.executing
      rw [htake, hborrow]
      cases thrown with
      | tdspp message =>
          refine iff_of_false ?_ (fun hnone => hnone message rfl)
          rintro ⟨next, hnext, hreturned⟩
          cases hnext
          exact not_returned_give_null pool state hreturned
      | connectionUnavailable =>
          refine iff_of_true ?_ ?_
          · exact ⟨state, rfl, Pool.Returned.refl pool.toPool state⟩
          · intro message hsame
            cases hsame

theorem endsWithoutLoan_iff {pool : PointerPool σ γ}
    {state : Traced σ (Option γ)} (hsound : pool.sound state.pool)
    (call : MsSqlCall γ ρ) :
    EndsWithoutLoan pool state call ↔ KeepsPointer pool state call := by
  cases call with
  | runQuery driver sqlStmt =>
      exact runQuery_ends_iff pool driver sqlStmt state
  | execute driver sqlStmt => exact executing_ends_iff hsound driver sqlStmt
  | insertOne driver args =>
      obtain ⟨ss, hss⟩ := MsSqlCall.perform_insertOne pool driver args state
      unfold EndsWithoutLoan
      rw [hss]
      exact executing_ends_iff hsound driver ss

/-- Every call of a run ends without a loan exactly when no `runQuery` gets a
connection and the pool throws nothing that the other calls catch. -/
theorem msSqlCalls_endWithoutLoan_iff {pool : PointerPool σ γ}
    {start : Traced σ (Option γ)} (hstart : (msSqlCalls ρ pool).init start)
    (calls : List (MsSqlCall γ ρ)) :
    (msSqlCalls ρ pool).Guarded (EndsWithoutLoan pool) start calls ↔
      (msSqlCalls ρ pool).Guarded (KeepsPointer pool) start calls :=
  @Machine.guarded_iff_of_invariant _ _ (msSqlCalls ρ pool)
    (EndsWithoutLoan pool) (KeepsPointer pool)
    (fun state => pool.sound state.pool)
    (fun _ call hsound => endsWithoutLoan_iff hsound call)
    (fun _ _ _ hsound hkeeps hnext => perform_sound hsound hkeeps hnext)
    start calls hstart.1

end Operations

/-- A pool that hands out its pointers in turn. -/
def queueOfPointers : PointerPool (List (Option ℕ)) ℕ where
  available := List.length
  borrow
    | [] => .error .connectionUnavailable
    | conn :: rest => .ok (conn, rest)
  unborrow conn rest := rest ++ [conn]
  available_of_borrow := by
    intro state next conn hborrow
    cases state with
    | nil => cases hborrow
    | cons head rest =>
        cases hborrow
        rfl
  borrow_of_available := by
    intro state havailable
    cases state with
    | nil => exact absurd havailable (Nat.lt_irrefl 0)
    | cons head rest => exact ⟨head, rest, rfl⟩
  available_unborrow := by simp
  sound state := none ∉ state
  borrow_ne_null := by
    intro state next conn hsound hborrow
    cases state with
    | nil => cases hborrow
    | cons head rest =>
        cases hborrow
        exact fun hnull => hsound (hnull ▸ List.mem_cons_self)
  borrow_sound := by
    intro state next conn hsound hborrow
    cases state with
    | nil => cases hborrow
    | cons head rest =>
        cases hborrow
        exact fun hnull => hsound (List.mem_cons_of_mem _ hnull)
  unborrow_sound := by
    intro state conn hsound hne
    rw [List.mem_append, List.mem_singleton]
    exact fun hnull => hnull.elim hsound fun hlast => hne hlast.symm

theorem queueOfPointers_throws (state : List (Option ℕ)) (message : Str) :
    queueOfPointers.borrow state ≠ .error (.tdspp message) := by
  intro hborrow
  cases state with
  | nil => cases hborrow
  | cons head rest => cases hborrow

def tdsDriver : MsSqlDriver ℕ Unit where
  sql _ _ := .ok ()
  executeQuery _ := .ok ()
  execute _ _ := .error "deadlock victim".toList

def onePointer : Traced (List (Option ℕ)) (Option ℕ) := ⟨[some 7], []⟩

theorem onePointer_init : (msSqlCalls Unit queueOfPointers).init onePointer :=
  ⟨(by decide : none ∉ [some 7]), rfl⟩

def participant : InsertArgs where
  schema := "epic".toList
  tableName := "participant".toList
  fields := ["firstname".toList]
  params := [.string "Yoda".toList, .string "Jedi".toList]
  fields_ne := by simp
  paired := by decide

/-- Statements that fail return the one connection of the pool each time. -/
def failingStatements : List (MsSqlCall ℕ Unit) := [
  .execute tdsDriver "select 1".toList, .insertOne tdsDriver participant,
  .execute tdsDriver "select 2".toList]

theorem execute_endsWithoutLoan :
    (msSqlCalls Unit queueOfPointers).init onePointer ∧
      (msSqlCalls Unit queueOfPointers).Guarded
        (EndsWithoutLoan queueOfPointers) onePointer failingStatements := by
  refine ⟨onePointer_init,
    (msSqlCalls_endWithoutLoan_iff onePointer_init _).mpr ?_⟩
  refine ⟨queueOfPointers_throws _, fun held _ => ?_⟩
  refine ⟨queueOfPointers_throws _, fun next _ => ?_⟩
  exact ⟨queueOfPointers_throws _, fun _ _ => trivial⟩

theorem runQuery_not_endsWithoutLoan :
    ¬ ∀ (start : Traced (List (Option ℕ)) (Option ℕ))
      (calls : List (MsSqlCall ℕ Unit)),
      (msSqlCalls Unit queueOfPointers).init start →
        (msSqlCalls Unit queueOfPointers).Guarded
          (EndsWithoutLoan queueOfPointers) start calls := by
  intro hclaim
  have hends := (hclaim onePointer [.runQuery tdsDriver "select 1".toList]
    onePointer_init).1
  obtain ⟨thrown, hborrow⟩ := (runQuery_ends_iff queueOfPointers tdsDriver
    "select 1".toList onePointer).mp hends
  cases hborrow

end StoreCpp
