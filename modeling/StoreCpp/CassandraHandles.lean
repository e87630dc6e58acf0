import StoreCpp.CaResourceBatch
import StoreCpp.HandleHeap

/-!
# The driver objects of a Cassandra client

Statements, futures, results, iterators and batches of the driver are
created and freed by hand, and an exception of a handler skips the calls that
free them.  What the driver and the server answer, and what the handler makes
of a row, are the surroundings of a run; the functions of the client are
programs over the handles.
-/

namespace StoreCpp

namespace CassandraHandles

open HandleHeap HandleHeap.Program

inductive Kind where
  | session
  | uuidGen
  | cluster
  | credentials
  | statement
  | future
  | result
  | iterator
  | batch
  deriving DecidableEq

/-- What a call of the handler ends in. -/
inductive HandlerResult where
  | returned (row : ModifiedRow)
  | null
  | threw

/-- `ok` is whether the error code of a future is `CASS_OK`; the rows are those
of a result.  The handler is given the future of its rows and the number of
the call. -/
structure Surroundings where
  ok : Handle Kind → Bool
  firstRow : Handle Kind → Bool
  rows : Handle Kind → List ModifiedRow
  asksCredentials : Handle Kind → Bool
  sort : DescendingSort
  handler : Handle Kind → ℕ → ModifiedRow → HandlerResult

structure Client where
  username : Str
  session : Handle Kind
  uuidGen : Handle Kind
  cluster : Option (Handle Kind)

/-- The `throw` without an exception ends the program. -/
def printError (future : Handle Kind) : Program Kind Unit := do
  use future
  terminate

def newClient (username : Str) : Program Kind Client := do
  let session ← create .session
  let uuidGen ← create .uuidGen
  pure ⟨username, session, uuidGen, none⟩

/-- `~CassandraBaseClient`; nothing is ever added to `futures`. -/
def Client.delete (client : Client) : Program Kind Unit := do
  match client.cluster with
  | some cluster => free cluster
  | none => pure ()
  free client.session
  free client.uuidGen

def createCluster : Program Kind (Handle Kind) := do
  let cluster ← create .cluster
  use cluster
  pure cluster

/-- The driver is given the address of `credentials`, whose block ends before
the connection is made. -/
def setAuthenticatorCallbacks (username : Str) (cluster : Handle Kind) :
    Program Kind (Option (Handle Kind)) :=
  if username = [] then pure none
  else do
    let credentials ← create .credentials
    use cluster
    free credentials
    pure (some credentials)

/-- `on_auth_initial` reads the credentials when the server asks for them. -/
def onAuthInitial (asks : Bool) (credentials : Option (Handle Kind)) :
    Program Kind Unit :=
  match asks, credentials with
  | true, some credentials => use credentials
  | _, _ => pure ()

section Functions

variable (around : Surroundings) (client : Client)

def tryConnect : Program Kind Client := do
  let cluster ← createCluster
  let credentials ← setAuthenticatorCallbacks client.username cluster
  use client.session
  use cluster
  let connectFuture ← create .future
  onAuthInitial (around.asksCredentials connectFuture) credentials
  use connectFuture
  if around.ok connectFuture then use cluster else printError connectFuture
  free connectFuture
  pure { client with cluster := some cluster }

/-- `print_error` does not return, so the tap is called when the query has
succeeded. -/
def executeQuery (tapFunc : Option (Handle Kind → Program Kind Unit)) :
    Program Kind Unit := do
  let statement ← create .statement
  use client.session
  use statement
  let future ← create .future
  use future
  if around.ok future then
    match tapFunc with
    | some tapFunc => tapFunc future
    | none => pure ()
  else printError future
  free future
  free statement

def executeQueryAsync : Program Kind Unit := do
  let statement ← create .statement
  use client.session
  use statement
  let future ← create .future
  use future
  free future
  free statement

def insertSync (statement : Handle Kind) : Program Kind Unit := do
  use client.session
  use statement
  let f ← create .future
  use f
  if around.ok f then do
    let result ← create .result
    use result
    free result
  else printError f
  free f
  free statement

def insertAsync (statement : Handle Kind) : Program Kind Unit := do
  use client.session
  use statement
  let insertFuture ← create .future
  use insertFuture
  free insertFuture
  free statement

/-- The first half of both batch functions: the batch keeps what it needs of
a statement. -/
def makeBatch (statements : List (Handle Kind)) :
    Program Kind (Handle Kind) := do
  let batch ← create .batch
  use batch
  forEach (fun _ statement => do
    use batch
    use statement
    free statement) () statements
  pure batch

def insertSyncBatch (statements : List (Handle Kind)) : Program Kind Unit := do
  let batch ← makeBatch statements
  use client.session
  use batch
  let batchFuture ← create .future
  free batch
  use batchFuture
  if around.ok batchFuture then pure () else printError batchFuture
  free batchFuture

def insertAsyncBatch (statements : List (Handle Kind)) : Program Kind Unit := do
  let batch ← makeBatch statements
  use client.session
  use batch
  let batchFuture ← create .future
  free batch
  use batchFuture
  free batchFuture

/-- The values are bound to the statement one by one. -/
def getInsertStatement (fields : ℕ) : Program Kind (Handle Kind) := do
  let statement ← create .statement
  forEach (fun _ _ => use statement) () (List.range fields)
  pure statement

/-- A statement for each row, of so many fields; a row may be a null
pointer. -/
def getInsertStatements (rows : List (Option ℕ)) :
    Program Kind (List (Handle Kind)) :=
  forEach (fun statements row => do
    match row with
    | none => fault
    | some fields =>
        let stmt ← getInsertStatement fields
        pure (statements ++ [stmt])) [] rows

def readRows (result : Handle Kind) : Program Kind (List ModifiedRow) := do
  let iterator ← create .iterator
  let unprocessed ← forEach (fun unprocessed row => do
    use iterator
    use result
    pure (unprocessed ++ [row])) [] (around.rows result)
  use iterator
  free iterator
  pure unprocessed

def handleRows (future : Handle Kind) (unprocessed : List ModifiedRow) :
    Program Kind (List (Option ModifiedRow)) :=
  forEach (fun processed c1 =>
    match around.handler future c1.2 c1.1 with
    | .returned c2 => pure (processed ++ [some c2])
    | .null => pure (processed ++ [none])
    | .threw => throwException) [] (around.sort.latest unprocessed).zipIdx

def rowToCaResourceModifiedTapFunc (future : Handle Kind) :
    Program Kind Unit := do
  use future
  if around.ok future then do
    let result ← create .result
    use result
    let unprocessed ← readRows around result
    free result
    let processed ← handleRows around future unprocessed
    let statements ← getInsertStatements
      (processed.map (Option.map fun _ => processedFields.length))
    insertSyncBatch around client statements
  else use future

def rowToCaResourceProcessedTapFunc (future : Handle Kind) :
    Program Kind Unit := do
  use future
  if around.ok future then do
    let result ← create .result
    use result
    if around.firstRow result then use result else use client.uuidGen
    free result
    executeQuery around client
      (some (rowToCaResourceModifiedTapFunc around client))
  else use future

def fetchNextTasks : Program Kind Unit :=
  executeQuery around client
    (some (rowToCaResourceProcessedTapFunc around client))

end Functions

/-- A call of the application; a statement is made and inserted at once, and
a tap of its own may throw. -/
inductive Call where
  | executeQuery (tapThrows : Option Bool)
  | executeQueryAsync
  | insertSync (fields : ℕ)
  | insertAsync (fields : ℕ)
  | insertSyncBatch (fields : List ℕ)
  | insertAsyncBatch (fields : List ℕ)
  | fetchNextTasks

inductive Action where
  | tryConnect
  | call (call : Call)

def Action.isConnect : Action → Bool
  | .tryConnect => true
  | .call _ => false

def Action.call? : Action → Option Call
  | .tryConnect => none
  | .call made => some made

def applicationTap (throws : Bool) (future : Handle Kind) :
    Program Kind Unit := do
  use future
  if throws then throwException else pure ()

def runCall (around : Surroundings) (client : Client) : Call → Program Kind Unit
  | .executeQuery tapThrows =>
      executeQuery around client (tapThrows.map applicationTap)
  | .executeQueryAsync => executeQueryAsync client
  | .insertSync fields => do
      let statement ← getInsertStatement fields
      insertSync around client statement
  | .insertAsync fields => do
      let statement ← getInsertStatement fields
      insertAsync client statement
  | .insertSyncBatch fields => do
      let statements ← getInsertStatements (fields.map some)
      insertSyncBatch around client statements
  | .insertAsyncBatch fields => do
      let statements ← getInsertStatements (fields.map some)
      insertAsyncBatch client statements
  | .fetchNextTasks => fetchNextTasks around client

/-- What an exception of the call leaves behind. -/
def Call.leaks : Call → List Kind
  | .executeQuery _ => [.future, .statement]
  | .fetchNextTasks => [.future, .statement, .future, .statement]
  | _ => []

/-- The client of an application that catches every exception, with the calls
that have thrown. -/
structure Life where
  client : Client
  thrown : List Call

def Life.turn (around : Surroundings) (life : Life) :
    Action → Program Kind Life
  | .tryConnect => do
      let client ← tryConnect around life.client
      pure { life with client := client }
  | .call call => do
      let returned ← (runCall around life.client call).attempt
      if returned.isSome then pure life
      else pure { life with thrown := life.thrown ++ [call] }

/-- The client from its constructor to its destructor. -/
def lifeTime (around : Surroundings) (username : Str)
    (actions : List Action) : Program Kind Life := do
  let client ← newClient username
  let life ← forEach (Life.turn around) ⟨client, []⟩ actions
  life.client.delete
  pure life

/-- What every function of the client uses is live. -/
structure Client.Live (client : Client) (live : Finset (Handle Kind)) :
    Prop where
  session : client.session ∈ live
  uuidGen : client.uuidGen ∈ live

/-- When the program returns the base alone is live, and an exception leaves
objects of these kinds beside it. -/
def restores (base : Finset (Handle Kind)) (leak : List Kind)
    (throws stops faults : Prop) : Post Kind Unit where
  returned _ next := next.live = base
  threw next := throws ∧ ∃ left, left.map Handle.kind = leak ∧
    next.Owns base left
  terminated := stops
  undefined := faults

namespace Surroundings

def Fails (around : Surroundings) : Prop :=
  ∃ future, around.ok future = false

def HandlerThrows (around : Surroundings) : Prop :=
  ∃ future k row, around.handler future k row = .threw

def HandlerNull (around : Surroundings) : Prop :=
  ∃ future k row, around.handler future k row = .null

def AsksCredentials (around : Surroundings) : Prop :=
  ∃ future, around.asksCredentials future = true

def Trusts (around : Surroundings) : Prop :=
  ∃ future, around.asksCredentials future = false

end Surroundings

def Call.Throws (around : Surroundings) : Call → Prop
  | .executeQuery tapThrows => tapThrows = some true
  | .fetchNextTasks => around.HandlerThrows
  | _ => False

section Balance

variable {around : Surroundings} {client : Client} {heap : Heap Kind}
variable {base : Finset (Handle Kind)} {statement : Handle Kind}
variable {statements : List (Handle Kind)}

theorem Surroundings.fails_of_not {future : Handle Kind}
    (hnot : ¬around.ok future = true) : around.Fails :=
  ⟨future, Bool.eq_false_iff.mpr hnot⟩

theorem Client.Live.of_owns {handles : List (Handle Kind)}
    (hclient : client.Live base) (howns : heap.Owns base handles) :
    client.Live heap.live where
  session := howns.mem_base hclient.session
  uuidGen := howns.mem_base hclient.uuidGen

theorem printError_then {post : Post Kind Unit} {future : Handle Kind}
    {rest : Unit → Program Kind Unit} (hlive : future ∈ heap.live)
    (hpost : post.terminated) :
    (printError future >>= rest).Meets post heap := by
  rw [meets_bind]
  exact use_then hlive hpost

/-- A query after which the tap, if there is one, has left what it found. -/
theorem meets_executeQuery (leak : List Kind) {throws faults : Prop}
    {tapFunc : Option (Handle Kind → Program Kind Unit)}
    (hclient : client.Live heap.live)
    (htap : ∀ tap ∈ tapFunc, ∀ future (next : Heap Kind),
      client.Live next.live → future ∈ next.live → (tap future).Meets
        (restores next.live leak throws around.Fails faults) next) :
    (executeQuery around client tapFunc).Meets
      (restores heap.live (leak ++ [.future, .statement]) throws
        around.Fails faults) heap := by
  have hstatement := heap.owns_nil.add .statement
  have hfuture := hstatement.add .future
  have hlive := hclient.of_owns hfuture
  have hfrees : ∀ next : Heap Kind,
      next.live = ((heap.add .statement).add .future).live →
      (free ((heap.add .statement).handle .future) >>= fun _ =>
        free (heap.handle .statement)).Meets
          (restores heap.live (leak ++ [.future, .statement]) throws
            around.Fails faults) next := by
    intro next hnext
    have howns := hfuture.of_live hnext
    refine free_then (howns.mem List.mem_cons_self) ?_
    refine meets_free (howns.erase.mem List.mem_cons_self) ?_
    exact howns.erase.erase.live_eq
  unfold executeQuery
  refine create_then ?_
  refine use_then (hstatement.mem_base hclient.session) ?_
  refine use_then (hstatement.mem List.mem_cons_self) ?_
  refine create_then ?_
  refine use_then (hfuture.mem List.mem_cons_self) ?_
  by_cases hok : around.ok ((heap.add .statement).handle .future) = true
  · rw [if_pos hok]
    cases htapFunc : tapFunc with
    | none => exact hfrees _ rfl
    | some tap =>
        have htapped := htap tap htapFunc
          ((heap.add .statement).handle .future) _ hlive
          (hfuture.mem List.mem_cons_self)
        refine htapped.bind ?_ ?_ id id
        · intro _ next hnext
          exact hfrees next hnext
        · rintro next ⟨hthrows, left, hkinds, hleft⟩
          refine ⟨hthrows, left ++ [(heap.add .statement).handle .future,
            heap.handle .statement], ?_, hfuture.trans hleft⟩
          rw [List.map_append, hkinds]
          rfl
  · rw [if_neg hok]
    refine printError_then (hfuture.mem List.mem_cons_self) ?_
    exact Surroundings.fails_of_not hok

theorem meets_executeQueryAsync (hclient : client.Live heap.live) :
    (executeQueryAsync client).Meets
      (restores heap.live [] False False False) heap := by
  have hstatement := heap.owns_nil.add .statement
  have hfuture := hstatement.add .future
  unfold executeQueryAsync
  refine create_then ?_
  refine use_then (hstatement.mem_base hclient.session) ?_
  refine use_then (hstatement.mem List.mem_cons_self) ?_
  refine create_then ?_
  refine use_then (hfuture.mem List.mem_cons_self) ?_
  refine free_then (hfuture.mem List.mem_cons_self) ?_
  refine meets_free (hfuture.erase.mem List.mem_cons_self) ?_
  exact hfuture.erase.erase.live_eq

theorem meets_insertSync (hclient : client.Live base)
    (howns : heap.Owns base [statement]) :
    (insertSync around client statement).Meets
      (restores base [] False around.Fails False) heap := by
  have hfuture := howns.add .future
  have hresult := hfuture.add .result
  unfold insertSync
  refine use_then (howns.mem_base hclient.session) ?_
  refine use_then (howns.mem List.mem_cons_self) ?_
  refine create_then ?_
  refine use_then (hfuture.mem List.mem_cons_self) ?_
  by_cases hok : around.ok (heap.handle .future) = true
  · rw [if_pos hok]
    refine create_then ?_
    refine use_then (hresult.mem List.mem_cons_self) ?_
    refine free_then (hresult.mem List.mem_cons_self) ?_
    refine free_then (hresult.erase.mem List.mem_cons_self) ?_
    refine meets_free (hresult.erase.erase.mem List.mem_cons_self) ?_
    exact hresult.erase.erase.erase.live_eq
  · rw [if_neg hok]
    refine printError_then (hfuture.mem List.mem_cons_self) ?_
    exact Surroundings.fails_of_not hok

theorem meets_insertAsync (hclient : client.Live base)
    (howns : heap.Owns base [statement]) :
    (insertAsync client statement).Meets
      (restores base [] False False False) heap := by
  have hfuture := howns.add .future
  unfold insertAsync
  refine use_then (howns.mem_base hclient.session) ?_
  refine use_then (howns.mem List.mem_cons_self) ?_
  refine create_then ?_
  refine use_then (hfuture.mem List.mem_cons_self) ?_
  refine free_then (hfuture.mem List.mem_cons_self) ?_
  refine meets_free (hfuture.erase.mem List.mem_cons_self) ?_
  exact hfuture.erase.erase.live_eq

/-- One batch in place of the statements. -/
theorem meets_makeBatch (howns : heap.Owns base statements) :
    (makeBatch statements).Meets
      ⟨fun batch next => next.Owns base [batch], fun _ => False, False,
        False⟩ heap := by
  have hbatch := howns.add .batch
  unfold makeBatch
  refine create_then ?_
  refine use_then (hbatch.mem List.mem_cons_self) ?_
  rw [meets_bind]
  refine meets_forEach
    (fun _ remaining next => next.Owns base (heap.handle .batch :: remaining))
    ?_ (fun _ next hnext => hnext) hbatch
  intro _ statement remaining next hnext
  have hswapped := hnext.perm
    (List.Perm.swap statement (heap.handle .batch) remaining)
  refine use_then (hnext.mem List.mem_cons_self) ?_
  refine use_then (hswapped.mem List.mem_cons_self) ?_
  exact meets_free (hswapped.mem List.mem_cons_self) hswapped.erase

theorem meets_insertSyncBatch (hclient : client.Live base)
    (howns : heap.Owns base statements) :
    (insertSyncBatch around client statements).Meets
      (restores base [] False around.Fails False) heap := by
  unfold insertSyncBatch
  refine (meets_makeBatch howns).bind ?_ (fun _ => False.elim)
    False.elim id
  intro batch next hbatch
  have hfuture := hbatch.add .future
  have hswapped := hfuture.perm (List.Perm.swap batch (next.handle .future) [])
  refine use_then (hbatch.mem_base hclient.session) ?_
  refine use_then (hbatch.mem List.mem_cons_self) ?_
  refine create_then ?_
  refine free_then (hswapped.mem List.mem_cons_self) ?_
  refine use_then (hswapped.erase.mem List.mem_cons_self) ?_
  by_cases hok : around.ok (next.handle .future) = true
  · rw [if_pos hok]
    refine meets_free (hswapped.erase.mem List.mem_cons_self) ?_
    exact hswapped.erase.erase.live_eq
  · rw [if_neg hok]
    refine printError_then (hswapped.erase.mem List.mem_cons_self) ?_
    exact Surroundings.fails_of_not hok

theorem meets_insertAsyncBatch (hclient : client.Live base)
    (howns : heap.Owns base statements) :
    (insertAsyncBatch client statements).Meets
      (restores base [] False False False) heap := by
  unfold insertAsyncBatch
  refine (meets_makeBatch howns).bind ?_ (fun _ => False.elim)
    False.elim id
  intro batch next hbatch
  have hfuture := hbatch.add .future
  have hswapped := hfuture.perm (List.Perm.swap batch (next.handle .future) [])
  refine use_then (hbatch.mem_base hclient.session) ?_
  refine use_then (hbatch.mem List.mem_cons_self) ?_
  refine create_then ?_
  refine free_then (hswapped.mem List.mem_cons_self) ?_
  refine use_then (hswapped.erase.mem List.mem_cons_self) ?_
  refine meets_free (hswapped.erase.mem List.mem_cons_self) ?_
  exact hswapped.erase.erase.live_eq

theorem meets_getInsertStatement (fields : ℕ)
    (howns : heap.Owns base statements) :
    (getInsertStatement fields).Meets
      ⟨fun statement next => next.Owns base (statement :: statements),
        fun _ => False, False, False⟩ heap := by
  have hstatement := howns.add .statement
  unfold getInsertStatement
  refine create_then ?_
  rw [meets_bind]
  refine meets_forEach
    (fun _ _ next => next.Owns base (heap.handle .statement :: statements))
    ?_ (fun _ next hnext => hnext) hstatement
  intro _ _ _ next hnext
  exact meets_use (hnext.mem List.mem_cons_self) hnext

theorem meets_getInsertStatements {rows : List (Option ℕ)}
    (howns : heap.Owns base []) :
    (getInsertStatements rows).Meets
      ⟨fun statements next => next.Owns base statements, fun _ => False,
        False, none ∈ rows⟩ heap := by
  unfold getInsertStatements
  refine meets_forEach
    (fun statements remaining next =>
      next.Owns base statements ∧ ∀ row ∈ remaining, row ∈ rows)
    ?_ (fun _ _ hnext => hnext.1) ⟨howns, fun _ hrow => hrow⟩
  rintro statements row remaining next ⟨hnext, hrows⟩
  cases row with
  | none => exact hrows none List.mem_cons_self
  | some fields =>
      refine (meets_getInsertStatement fields hnext).bind ?_
        (fun _ => id) id False.elim
      intro stmt last hlast
      refine ⟨hlast.perm ?_, fun row hrow =>
        hrows row (List.mem_cons_of_mem _ hrow)⟩
      exact (List.perm_append_singleton stmt statements).symm

theorem meets_readRows {result : Handle Kind} (hresult : result ∈ heap.live) :
    (readRows around result).Meets
      ⟨fun _ next => next.live = heap.live, fun _ => False, False, False⟩
      heap := by
  have hiterator := heap.owns_nil.add .iterator
  unfold readRows
  refine create_then ?_
  rw [meets_bind]
  refine meets_forEach
    (fun _ _ next => next.Owns heap.live [heap.handle .iterator]) ?_ ?_
    hiterator
  · intro unprocessed row _ next hnext
    refine use_then (hnext.mem List.mem_cons_self) ?_
    exact use_then (hnext.mem_base hresult) hnext
  · intro unprocessed next hnext
    refine use_then (hnext.mem List.mem_cons_self) ?_
    refine free_then (hnext.mem List.mem_cons_self) ?_
    exact hnext.erase.live_eq

theorem meets_handleRows (around : Surroundings) (future : Handle Kind)
    (unprocessed : List ModifiedRow) (heap : Heap Kind) :
    (handleRows around future unprocessed).Meets
      ⟨fun processed next => next = heap ∧
          (none ∈ processed → around.HandlerNull),
        fun next => next = heap ∧ around.HandlerThrows, False, False⟩
      heap := by
  unfold handleRows
  refine meets_forEach
    (fun processed _ next => next = heap ∧
      (none ∈ processed → around.HandlerNull))
    ?_ (fun _ _ hnext => hnext) ⟨rfl, by simp⟩
  rintro processed ⟨row, k⟩ _ next ⟨hnext, hnull⟩
  cases hhandler : around.handler future k row with
  | returned c2 => exact ⟨hnext, by simpa using hnull⟩
  | null => exact ⟨hnext, fun _ => ⟨future, k, row, hhandler⟩⟩
  | threw => exact ⟨hnext, future, k, row, hhandler⟩

theorem meets_rowToCaResourceModifiedTapFunc {future : Handle Kind}
    (hclient : client.Live heap.live) (hfuture : future ∈ heap.live) :
    (rowToCaResourceModifiedTapFunc around client future).Meets
      (restores heap.live [] around.HandlerThrows around.Fails
        around.HandlerNull) heap := by
  have hresult := heap.owns_nil.add .result
  unfold rowToCaResourceModifiedTapFunc
  refine use_then hfuture ?_
  by_cases hok : around.ok future = true
  · rw [if_pos hok]
    refine create_then ?_
    refine use_then (hresult.mem List.mem_cons_self) ?_
    refine (meets_readRows (hresult.mem List.mem_cons_self)).bind ?_
      (fun _ => False.elim) False.elim False.elim
    intro unprocessed next hnext
    have hread := hresult.of_live hnext
    refine free_then (hread.mem List.mem_cons_self) ?_
    refine (meets_handleRows around future unprocessed _).bind ?_ ?_
      False.elim False.elim
    · rintro processed _ ⟨rfl, hnull⟩
      refine (meets_getInsertStatements hread.erase).bind ?_
        (fun _ => False.elim) False.elim
        (fun hmem => hnull (by simpa using hmem))
      intro statements last hstatements
      refine (meets_insertSyncBatch hclient hstatements).mono
        (fun _ _ => id) ?_ id False.elim
      rintro _ ⟨hfalse, _⟩
      exact hfalse.elim
    · rintro _ ⟨rfl, hthrows⟩
      exact ⟨hthrows, [], rfl, hread.erase⟩
  · rw [if_neg hok]
    exact meets_use hfuture rfl

theorem meets_rowToCaResourceProcessedTapFunc {future : Handle Kind}
    (hclient : client.Live heap.live) (hfuture : future ∈ heap.live) :
    (rowToCaResourceProcessedTapFunc around client future).Meets
      (restores heap.live [.future, .statement] around.HandlerThrows
        around.Fails around.HandlerNull) heap := by
  have hresult := heap.owns_nil.add .result
  unfold rowToCaResourceProcessedTapFunc
  refine use_then hfuture ?_
  by_cases hok : around.ok future = true
  · rw [if_pos hok]
    refine create_then ?_
    refine use_then (hresult.mem List.mem_cons_self) ?_
    have hquery : (free (heap.handle .result) >>= fun _ =>
        executeQuery around client
          (some (rowToCaResourceModifiedTapFunc around client))).Meets
          (restores heap.live [.future, .statement] around.HandlerThrows
            around.Fails around.HandlerNull) (heap.add .result) := by
      refine free_then (hresult.mem List.mem_cons_self) ?_
      have hfreed := hresult.erase.live_eq
      rw [← hfreed]
      refine meets_executeQuery [] (by rwa [hfreed]) ?_
      rintro _ ⟨⟩ future next hnext hmem
      exact meets_rowToCaResourceModifiedTapFunc hnext hmem
    by_cases hrow : around.firstRow (heap.handle .result) = true
    · rw [if_pos hrow]
      exact use_then (hresult.mem List.mem_cons_self) hquery
    · rw [if_neg hrow]
      exact use_then (hresult.mem_base hclient.uuidGen) hquery
  · rw [if_neg hok]
    exact meets_use hfuture rfl

theorem meets_fetchNextTasks (hclient : client.Live heap.live) :
    (fetchNextTasks around client).Meets
      (restores heap.live [.future, .statement, .future, .statement]
        around.HandlerThrows around.Fails
        around.HandlerNull) heap := by
  refine meets_executeQuery [.future, .statement] hclient ?_
  rintro _ ⟨⟩ future next hnext hmem
  exact meets_rowToCaResourceProcessedTapFunc hnext hmem

/-- The credentials are gone when the function is left. -/
theorem meets_setAuthenticatorCallbacks {cluster : Handle Kind} {username : Str}
    (hcluster : cluster ∈ heap.live) :
    (setAuthenticatorCallbacks username cluster).Meets
      ⟨fun credentials next => next.live = heap.live ∧
          (credentials = none ↔ username = []) ∧
          ∀ handle ∈ credentials, ∀ kind, handle ∉ (next.add kind).live,
        fun _ => False, False, False⟩ heap := by
  have hcredentials := heap.owns_nil.add .credentials
  have hfreed := hcredentials.erase.live_eq
  unfold setAuthenticatorCallbacks
  by_cases husername : username = []
  · rw [if_pos husername]
    exact ⟨rfl, by simp [husername], by simp⟩
  · rw [if_neg husername]
    refine create_then ?_
    refine use_then (hcredentials.mem_base hcluster) ?_
    refine free_then (hcredentials.mem List.mem_cons_self) ?_
    refine ⟨hfreed, by simp [husername], ?_⟩
    rintro _ ⟨⟩ kind hmem
    rcases Finset.mem_insert.mp hmem with heq | hmem
    · have hnumber := congrArg Handle.number heq
      exact Nat.ne_of_lt (Nat.lt_succ_self _) hnumber
    · rw [hfreed] at hmem
      exact heap.handle_notMem .credentials hmem

theorem meets_onAuthInitial {asks : Bool} {credentials : Option (Handle Kind)}
    (hdead : ∀ handle ∈ credentials, handle ∉ heap.live) :
    (onAuthInitial asks credentials).Meets
      ⟨fun _ next => next = heap ∧ (asks = true → credentials = none),
        fun _ => False, False, asks = true ∧ credentials ≠ none⟩ heap := by
  unfold onAuthInitial
  cases asks with
  | false => exact ⟨rfl, by simp⟩
  | true =>
      cases credentials with
      | none => exact ⟨rfl, fun _ => rfl⟩
      | some credentials =>
          refine (meets_use_dead (hdead credentials rfl)).mpr ?_
          simp

theorem meets_tryConnect (hclient : client.Live heap.live) :
    (tryConnect around client).Meets
      ⟨fun connected next => ∃ cluster,
          connected = { client with cluster := some cluster } ∧
            cluster.kind = .cluster ∧ next.Owns heap.live [cluster] ∧
            (client.username = [] ∨ around.Trusts),
        fun _ => False, around.Fails,
        client.username ≠ [] ∧ around.AsksCredentials⟩ heap := by
  have hcluster := heap.owns_nil.add .cluster
  unfold tryConnect createCluster
  rw [meets_bind]
  refine create_then ?_
  refine use_then (hcluster.mem List.mem_cons_self) ?_
  refine (meets_setAuthenticatorCallbacks
    (hcluster.mem List.mem_cons_self)).bind ?_ (fun _ => id) False.elim
    False.elim
  rintro credentials next ⟨hnext, hnone, hdead⟩
  have hset := hcluster.of_live hnext
  have hfuture := hset.add .future
  refine use_then (hset.mem_base hclient.session) ?_
  refine use_then (hset.mem List.mem_cons_self) ?_
  refine create_then ?_
  refine (meets_onAuthInitial fun handle hmem =>
    hdead handle hmem .future).bind ?_ (fun _ => id) False.elim ?_
  · rintro _ _ ⟨rfl, hasked⟩
    refine use_then (hfuture.mem List.mem_cons_self) ?_
    by_cases hok : around.ok (next.handle .future) = true
    · rw [if_pos hok]
      refine use_then
        (hfuture.mem (List.mem_cons_of_mem _ List.mem_cons_self)) ?_
      refine free_then (hfuture.mem List.mem_cons_self) ?_
      refine ⟨heap.handle .cluster, rfl, rfl, hfuture.erase, ?_⟩
      by_cases hasks : around.asksCredentials (next.handle .future) = true
      · exact Or.inl (hnone.mp (hasked hasks))
      · exact Or.inr ⟨next.handle .future, Bool.eq_false_iff.mpr hasks⟩
    · rw [if_neg hok]
      rw [meets_bind]
      refine use_then (hfuture.mem List.mem_cons_self) ?_
      exact Surroundings.fails_of_not hok
  · rintro ⟨hasks, hsome⟩
    exact ⟨fun husername => hsome (hnone.mpr husername),
      next.handle .future, hasks⟩

theorem meets_applicationTap {throws : Bool} {future : Handle Kind}
    (hfuture : future ∈ heap.live) :
    (applicationTap throws future).Meets
      (restores heap.live [] (throws = true) around.Fails
        around.HandlerNull) heap := by
  unfold applicationTap
  refine use_then hfuture ?_
  cases throws with
  | false => rfl
  | true => exact ⟨rfl, [], rfl, heap.owns_nil⟩

/-- A call that makes its statements and gives them away. -/
theorem meets_getInsertStatements_then {fields : List ℕ} {leak : List Kind}
    {throws faults : Prop} {insert : List (Handle Kind) → Program Kind Unit}
    (hinsert : ∀ statements next, Heap.Owns next heap.live statements →
      (insert statements).Meets
        (restores heap.live leak throws around.Fails faults) next) :
    (getInsertStatements (fields.map some) >>= insert).Meets
      (restores heap.live leak throws around.Fails faults) heap := by
  refine (meets_getInsertStatements heap.owns_nil).bind hinsert
    (fun _ => False.elim) False.elim ?_
  intro hnone
  simp at hnone

theorem restores_mono {leak : List Kind} {throws stops faults : Prop}
    {program : Program Kind Unit}
    (hmeets : program.Meets (restores base [] False stops False) heap)
    (hstops : stops → around.Fails) :
    program.Meets (restores base leak throws around.Fails faults) heap := by
  refine hmeets.mono (fun _ _ => id) ?_ hstops False.elim
  rintro _ ⟨hfalse, _⟩
  exact hfalse.elim

theorem meets_call {call : Call} (hclient : client.Live heap.live) :
    (runCall around client call).Meets
      (restores heap.live call.leaks (call.Throws around) around.Fails
        around.HandlerNull) heap := by
  cases call with
  | executeQuery tapThrows =>
      refine meets_executeQuery [] hclient ?_
      intro tap htap future next hnext hmem
      obtain ⟨throws, hthrows, rfl⟩ := Option.mem_map.mp htap
      refine (meets_applicationTap hmem).mono (fun _ _ => id) ?_ id id
      rintro last ⟨rfl, hleft⟩
      exact ⟨hthrows, hleft⟩
  | executeQueryAsync =>
      exact restores_mono (meets_executeQueryAsync hclient) False.elim
  | insertSync fields =>
      refine (meets_getInsertStatement fields heap.owns_nil).bind ?_
        (fun _ => False.elim) False.elim False.elim
      intro statement next hnext
      exact restores_mono (meets_insertSync hclient hnext) id
  | insertAsync fields =>
      refine (meets_getInsertStatement fields heap.owns_nil).bind ?_
        (fun _ => False.elim) False.elim False.elim
      intro statement next hnext
      exact restores_mono (meets_insertAsync hclient hnext) False.elim
  | insertSyncBatch fields =>
      refine meets_getInsertStatements_then ?_
      intro statements next hnext
      exact restores_mono (meets_insertSyncBatch hclient hnext) id
  | insertAsyncBatch fields =>
      refine meets_getInsertStatements_then ?_
      intro statements next hnext
      exact restores_mono (meets_insertAsyncBatch hclient hnext) False.elim
  | fetchNextTasks => exact meets_fetchNextTasks hclient

end Balance

def Client.handles (client : Client) : List (Handle Kind) :=
  [client.session, client.uuidGen] ++ client.cluster.toList

/-- Beside the base and the objects of the client there are the clusters of
earlier connections and what exceptions have left. -/
structure Life.Inv (around : Surroundings) (username : Str)
    (base : Finset (Handle Kind)) (done : List Action) (life : Life)
    (heap : Heap Kind) : Prop where
  named : life.client.username = username
  cluster : life.client.cluster = none ↔ done.countP Action.isConnect = 0
  clusterKind : ∀ cluster ∈ life.client.cluster, cluster.kind = .cluster
  owns : ∃ left, heap.Owns base (life.client.handles ++ left) ∧
    ((life.client.cluster.toList ++ left).map Handle.kind).Perm
      (List.replicate (done.countP Action.isConnect) .cluster ++
        life.thrown.flatMap Call.leaks)
  thrown : life.thrown.Sublist (done.filterMap Action.call?)
  throws : ∀ call ∈ life.thrown, call.Throws around
  trusts : done.countP Action.isConnect = 0 ∨ username = [] ∨ around.Trusts

namespace Life.Inv

variable {around : Surroundings} {username : Str} {base : Finset (Handle Kind)}
variable {done : List Action} {life : Life} {heap : Heap Kind}

theorem live (hinv : life.Inv around username base done heap) :
    life.client.Live heap.live := by
  obtain ⟨left, howns, _⟩ := hinv.owns
  exact ⟨howns.mem (by simp [Client.handles]),
    howns.mem (by simp [Client.handles])⟩

theorem countP_call (done : List Action) (call : Call) :
    (done ++ [Action.call call]).countP Action.isConnect =
      done.countP Action.isConnect := by
  simp [Action.isConnect]

theorem connected {cluster : Handle Kind} {next : Heap Kind}
    (hinv : life.Inv around username base done heap)
    (hkind : cluster.kind = .cluster)
    (hnext : next.Owns heap.live [cluster])
    (htrusts : username = [] ∨ around.Trusts) :
    Life.Inv around username base (done ++ [.tryConnect])
      { life with client := { life.client with cluster := some cluster } }
      next := by
  obtain ⟨left, howns, hleft⟩ := hinv.owns
  refine ⟨hinv.named, ?_, ?_, ?_, ?_, hinv.throws, Or.inr htrusts⟩
  · simp [Action.isConnect]
  · rintro _ ⟨⟩
    exact hkind
  · refine ⟨life.client.cluster.toList ++ left, ?_, ?_⟩
    · refine (howns.trans hnext).perm ?_
      exact (@List.perm_middle _ cluster
        [life.client.session, life.client.uuidGen] _).symm
    · rw [List.countP_append, List.countP_singleton]
      simp only [Option.toList_some, List.map_cons,
        hkind, Action.isConnect, if_true, List.replicate_succ,
        List.cons_append]
      exact hleft.cons _
  · rw [List.filterMap_append]
    exact hinv.thrown.trans (List.sublist_append_left _ _)

theorem returned {call : Call} {next : Heap Kind}
    (hinv : life.Inv around username base done heap)
    (hnext : next.live = heap.live) :
    life.Inv around username base (done ++ [.call call]) next := by
  obtain ⟨left, howns, hleft⟩ := hinv.owns
  have hcount := countP_call done call
  refine ⟨hinv.named, ?_, hinv.clusterKind, ?_, ?_, hinv.throws, ?_⟩
  · rw [hcount]
    exact hinv.cluster
  · rw [hcount]
    exact ⟨left, howns.of_live hnext, hleft⟩
  · rw [List.filterMap_append]
    exact hinv.thrown.trans (List.sublist_append_left _ _)
  · rw [hcount]
    exact hinv.trusts

theorem threw {call : Call} {next : Heap Kind} {more : List (Handle Kind)}
    (hinv : life.Inv around username base done heap)
    (hthrows : call.Throws around)
    (hkinds : more.map Handle.kind = call.leaks)
    (hnext : next.Owns heap.live more) :
    Life.Inv around username base (done ++ [.call call])
      { life with thrown := life.thrown ++ [call] } next := by
  obtain ⟨left, howns, hleft⟩ := hinv.owns
  have hcount := countP_call done call
  refine ⟨hinv.named, ?_, hinv.clusterKind, ?_, ?_, ?_, ?_⟩
  · rw [hcount]
    exact hinv.cluster
  · refine ⟨left ++ more, ?_, ?_⟩
    · refine (howns.trans hnext).perm ?_
      exact List.perm_append_comm.trans
        (List.append_assoc _ _ _ ▸ List.Perm.refl _)
    · rw [hcount, ← List.append_assoc, List.map_append, hkinds,
        List.flatMap_append, List.flatMap_singleton, ← List.append_assoc]
      exact hleft.append_right _
  · rw [List.filterMap_append]
    exact hinv.thrown.append (List.Sublist.refl _)
  · intro other hmem
    rcases List.mem_append.mp hmem with hmem | hmem
    · exact hinv.throws other hmem
    · rwa [List.mem_singleton.mp hmem]
  · rw [hcount]
    exact hinv.trusts

theorem turn (action : Action)
    (hinv : life.Inv around username base done heap) :
    (life.turn around action).Meets
      ⟨fun turned next =>
          turned.Inv around username base (done ++ [action]) next,
        fun _ => False, around.Fails,
        (username ≠ [] ∧ around.AsksCredentials) ∨ around.HandlerNull⟩
      heap := by
  cases action with
  | tryConnect =>
      refine (meets_tryConnect hinv.live).bind ?_ (fun _ => id) id ?_
      · rintro _ next ⟨cluster, rfl, hkind, hnext, htrusts⟩
        rw [hinv.named] at htrusts
        exact hinv.connected hkind hnext htrusts
      · rw [hinv.named]
        exact Or.inl
  | call call =>
      unfold Life.turn
      rw [meets_bind, meets_attempt]
      refine (meets_call hinv.live).mono ?_ ?_ id Or.inr
      · intro _ next hnext
        exact hinv.returned hnext
      · rintro next ⟨hthrows, more, hkinds, hnext⟩
        exact hinv.threw hthrows hkinds hnext

theorem start {session uuidGen : Handle Kind}
    (howns : heap.Owns base [session, uuidGen]) :
    Life.Inv around username base []
      ⟨⟨username, session, uuidGen, none⟩, []⟩ heap where
  named := rfl
  cluster := by simp
  clusterKind := by simp
  owns := ⟨[], by simpa [Client.handles] using howns, List.Perm.refl _⟩
  thrown := List.Sublist.refl _
  throws := by simp
  trusts := Or.inl rfl

theorem delete (hinv : life.Inv around username base done heap) :
    life.client.delete.Meets
      ⟨fun _ next => ∃ left, next.Owns base left ∧
          (left.map Handle.kind).Perm
            (List.replicate (done.countP Action.isConnect - 1) .cluster ++
              life.thrown.flatMap Call.leaks),
        fun _ => False, False, False⟩ heap := by
  obtain ⟨left, howns, hleft⟩ := hinv.owns
  have hcluster := hinv.cluster
  unfold Client.delete
  unfold Client.handles at howns
  cases hnone : life.client.cluster with
  | none =>
      rw [hnone] at howns hleft hcluster
      refine free_then (howns.mem List.mem_cons_self) ?_
      refine meets_free (howns.erase.mem List.mem_cons_self) ?_
      refine ⟨left, howns.erase.erase, ?_⟩
      have hzero := hcluster.mp rfl
      rw [hzero] at hleft ⊢
      exact hleft
  | some cluster =>
      rw [hnone] at howns hleft hcluster
      have hfirst := howns.perm (List.perm_append_comm.append_right left)
      refine free_then (hfirst.mem List.mem_cons_self) ?_
      refine free_then (hfirst.erase.mem List.mem_cons_self) ?_
      refine meets_free (hfirst.erase.erase.mem List.mem_cons_self) ?_
      refine ⟨left, hfirst.erase.erase.erase, ?_⟩
      obtain ⟨earlier, hconnected⟩ : ∃ earlier,
          done.countP Action.isConnect = earlier + 1 :=
        Nat.exists_eq_succ_of_ne_zero fun hzero => by
          cases hcluster.mpr hzero
      have hkind := hinv.clusterKind cluster (by rw [hnone]; rfl)
      rw [hconnected, List.replicate_succ, Option.toList_some,
        List.singleton_append, List.map_cons, hkind, List.cons_append] at hleft
      rw [hconnected, Nat.add_sub_cancel]
      exact hleft.cons_inv

end Life.Inv

end CassandraHandles

end StoreCpp
