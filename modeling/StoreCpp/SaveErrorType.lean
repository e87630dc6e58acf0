import StoreCpp.PooledOperations

/-!
# The error holder of `save`

`save(sql, errType)` writes the class of a failure to the holder that the
caller shares from call to call.  The holder may have been made with any
value; `make_shared<ErrorType>()` makes one with the value zero, which is no
enumerator.
-/

namespace StoreCpp

open Printf ResourcePool StepMachine

/-- The value of an enumerator in its underlying type. -/
def ErrorType.value (errType : ErrorType) : Int32 :=
  Int32.ofNat errType.code

variable {σ κ ρ π : Type}

namespace PgClient

/-- The handlers of `save`: what they return and what they write to the
holder. -/
def handleSave : Thrown → Str × ErrorType
  | .connectionException what => (what, .connection)
  | .executionException what =>
      (what,
        if unexpectedDisconnection what then .connection else .execution)
  | .otherException => ("std::exception".toList, .unknown)

/-- `save(sql, errType)` with a holder of any value. -/
def saveInto (pool : ClientPool σ κ) (driver : Driver κ ρ π) (sql : Str)
    (errType : Option Int32) (state : Traced σ κ) :
    Option ((Str × Option Int32) × Traced σ κ) :=
  pool.borrowing ("Succeeded".toList, errType)
    (fun conn =>
      match driver.execute conn (cstr sql) [] with
      | .ok _ => some (("Succeeded".toList, errType), none)
      | .error thrown => some (("Succeeded".toList, errType), some thrown))
    (fun thrown left =>
      ((handleSave thrown).1,
        left.2.map fun _ => (handleSave thrown).2.value))
    state

/-- What a call of `save` catches, if anything. -/
def saveThrows (pool : ClientPool σ κ) (driver : Driver κ ρ π) (sql : Str)
    (state : Traced σ κ) : Option Thrown :=
  match pool.take state with
  | .error thrown => some thrown
  | .ok (conn, _) =>
      match driver.execute conn (cstr sql) [] with
      | .ok _ => none
      | .error thrown => some thrown

end PgClient

/-- The statement of a `Save` that ends in the same exception. -/
def Thrown.outcome : Thrown → StatementOutcome
  | .connectionException what => .connectionException what
  | .executionException what => .executionException what
  | .otherException => .otherException

/-- `PgEventStore::Save` returns the value of this class when it ends in the
exception, be it thrown by the pool or by the statement. -/
structure PgEventStore.Classifies (pool : ClientPool σ κ) (thrown : Thrown)
    (value : Int32) : Prop where
  borrow : ∀ attempt (store : EventStore) tables state,
    store.groups ≠ [] → pool.take state = .error thrown →
      Int32.ofNat (PgEventStore.save pool attempt store tables state).1.1 =
        value
  execute : ∀ attempt (store : EventStore) tables state conn held,
    store.groups ≠ [] → pool.take state = .ok (conn, held) →
      attempt.outcome 0 = thrown.outcome →
      Int32.ofNat (PgEventStore.save pool attempt store tables state).1.1 =
        value

/-! ## Calls that share one holder -/

structure HolderState (σ κ : Type) where
  pool : Traced σ κ
  errType : Int32

structure HolderCall (κ ρ π : Type) where
  driver : Driver κ ρ π
  sql : Str

def HolderState.save (pool : ClientPool σ κ) (state : HolderState σ κ)
    (call : HolderCall κ ρ π) : Option (HolderState σ κ) :=
  (PgClient.saveInto pool call.driver call.sql (some state.errType)
    state.pool).bind fun left =>
      left.1.2.map fun errType => ⟨left.2, errType⟩

def holderCalls (ρ π : Type) (pool : ClientPool σ κ) :
    Machine (HolderState σ κ) (HolderCall κ ρ π) where
  init state := state.pool.calls = []
  step := HolderState.save pool

def HolderCall.throws (pool : ClientPool σ κ) (state : HolderState σ κ)
    (call : HolderCall κ ρ π) : Option Thrown :=
  PgClient.saveThrows pool call.driver call.sql state.pool

/-- After the call the holder is `none` exactly when the call has succeeded,
and after a failure it is the class that `PgEventStore::Save` returns. -/
structure HolderTells (pool : ClientPool σ κ) (state : HolderState σ κ)
    (call : HolderCall κ ρ π) (next : HolderState σ κ) : Prop where
  succeeded : next.errType = ErrorType.none.value ↔
    call.throws pool state = none
  failed : ∀ thrown, call.throws pool state = some thrown →
    PgEventStore.Classifies pool thrown next.errType

def TellsOutcome (pool : ClientPool σ κ) (state : HolderState σ κ)
    (call : HolderCall κ ρ π) : Prop :=
  ∃ next, state.save pool call = some next ∧ HolderTells pool state call next

/-- A call that succeeds finds the holder at `none` already. -/
def SucceedsOnNone (pool : ClientPool σ κ) (state : HolderState σ κ)
    (call : HolderCall κ ρ π) : Prop :=
  call.throws pool state = none → state.errType = ErrorType.none.value

theorem PgClient.handleSave_eq (thrown : Thrown) :
    PgClient.handleSave thrown = (thrown.error.2, thrown.error.1) := by
  cases thrown with
  | connectionException what => rfl
  | executionException what => rfl
  | otherException => rfl

/-- On a holder that is an enumerator this is `save`. -/
theorem PgClient.saveInto_value (pool : ClientPool σ κ)
    (driver : Driver κ ρ π) (sql : Str) (errType : Option ErrorType)
    (state : Traced σ κ) :
    PgClient.saveInto pool driver sql (errType.map ErrorType.value) state =
      (PgClient.save pool driver sql errType state).map fun left =>
        ((left.1.1, left.1.2.map ErrorType.value), left.2) := by
  unfold PgClient.saveInto PgClient.save Pool.borrowing
  cases pool.take state with
  | error thrown =>
      simp [PgClient.handleSave_eq, Function.comp_def]
  | ok taken =>
      cases hexecute : driver.execute taken.1 (cstr sql) [] with
      | ok rows => simp [hexecute]
      | error thrown =>
          simp [hexecute, PgClient.handleSave_eq, Function.comp_def]

theorem ErrorType.value_ne_none {errType : ErrorType}
    (hne : errType ≠ .none) : errType.value ≠ ErrorType.none.value := by
  cases errType with
  | none => exact absurd rfl hne
  | connection => decide
  | execution => decide
  | unknown => decide

theorem executionError_ne_none (what : Str) :
    (executionError what).1 ≠ ErrorType.none := by
  unfold executionError
  cases unexpectedDisconnection what with
  | true => exact ErrorType.noConfusion
  | false => exact ErrorType.noConfusion

theorem Thrown.error_ne_none (thrown : Thrown) :
    thrown.error.1 ≠ ErrorType.none := by
  cases thrown with
  | connectionException what => exact ErrorType.noConfusion
  | executionException what => exact executionError_ne_none what
  | otherException => exact ErrorType.noConfusion

theorem appendGroup_of_thrown {attempt : SaveAttempt} {thrown : Thrown}
    (houtcome : attempt.outcome 0 = thrown.outcome)
    (group : Str × List IEvent) (tables : Tables) :
    appendGroup attempt 0 group tables = .error thrown.error := by
  unfold appendGroup SaveAttempt.answer
  rw [houtcome]
  cases thrown with
  | connectionException what => rfl
  | executionException what => rfl
  | otherException => rfl

theorem PgEventStore.classifies_error (pool : ClientPool σ κ)
    (thrown : Thrown) :
    PgEventStore.Classifies pool thrown thrown.error.1.value where
  borrow := by
    intro attempt store tables state hgroups htake
    unfold PgEventStore.save
    cases hstore : store.groups with
    | nil => exact absurd hstore hgroups
    | cons group rest =>
        rw [PgEventStore.sendGroups, htake]
        rfl
  execute := by
    intro attempt store tables state conn held hgroups htake houtcome
    unfold PgEventStore.save
    cases hstore : store.groups with
    | nil => exact absurd hstore hgroups
    | cons group rest =>
        rw [PgEventStore.sendGroups, htake]
        dsimp only
        rw [appendGroup_of_thrown houtcome]
        rfl

/-- The holder after a call: written by a failure, left alone otherwise. -/
theorem HolderState.save_eq (pool : ClientPool σ κ) (state : HolderState σ κ)
    (call : HolderCall κ ρ π) :
    ∃ next, state.save pool call = some next ∧
      next.errType = (call.throws pool state).elim state.errType
        fun thrown => thrown.error.1.value := by
  unfold HolderState.save PgClient.saveInto Pool.borrowing HolderCall.throws
    PgClient.saveThrows
  cases pool.take state.pool with
  | error thrown =>
      refine ⟨⟨state.pool, thrown.error.1.value⟩, ?_, rfl⟩
      simp [PgClient.handleSave_eq]
  | ok taken =>
      cases hexecute : call.driver.execute taken.1 (cstr call.sql) [] with
      | ok rows => simp [hexecute]
      | error thrown => simp [hexecute, PgClient.handleSave_eq]

theorem tellsOutcome_iff (pool : ClientPool σ κ) (state : HolderState σ κ)
    (call : HolderCall κ ρ π) :
    TellsOutcome pool state call ↔ SucceedsOnNone pool state call := by
  obtain ⟨next, hnext, herrType⟩ := state.save_eq pool call
  unfold TellsOutcome SucceedsOnNone
  cases hthrows : call.throws pool state with
  | none =>
      rw [hthrows] at herrType
      constructor
      · rintro ⟨after, hafter, htells⟩ _
        obtain rfl : next = after := Option.some.inj (hnext.symm.trans hafter)
        have hnone := htells.succeeded.mpr hthrows
        rw [herrType] at hnone
        exact hnone
      · intro hstate
        refine ⟨next, hnext, ?_, ?_⟩
        · rw [herrType]
          exact iff_of_true (hstate rfl) hthrows
        · intro thrown hthrown
          rw [hthrows] at hthrown
          cases hthrown
  | some thrown =>
      rw [hthrows] at herrType
      refine iff_of_true ⟨next, hnext, ?_, ?_⟩ (fun h => by cases h)
      · rw [herrType, hthrows]
        exact iff_of_false (ErrorType.value_ne_none thrown.error_ne_none)
          (by simp)
      · intro other hother
        rw [hthrows] at hother
        cases hother
        rw [herrType]
        exact PgEventStore.classifies_error pool thrown

/-- The holder tells the outcome after every call of a run exactly when each
call that succeeds finds it at `none`. -/
theorem holder_tellsOutcome_iff (pool : ClientPool σ κ)
    (start : HolderState σ κ) (calls : List (HolderCall κ ρ π)) :
    (holderCalls ρ π pool).Guarded (TellsOutcome pool) start calls ↔
      (holderCalls ρ π pool).Guarded (SucceedsOnNone pool) start calls :=
  Machine.guarded_iff_of_invariant
    (fun state call _ => tellsOutcome_iff pool state call)
    (fun _ _ _ _ _ _ => trivial) trivial

def answering : Driver ℕ Unit Unit where
  execute _ _ _ := .ok []
  asInt64 _ _ := .ok 0
  asString _ _ := .ok []
  asTimestamp _ _ := .ok 0
  parse _ := .ok .null

def selectCurrentTimestamp : HolderCall ℕ Unit Unit :=
  ⟨answering, "select current_timestamp".toList⟩

/-- A holder from `make_shared<ErrorType>()`. -/
def madeHolder : HolderState (List ℕ) ℕ := ⟨⟨[7], []⟩, 0⟩

theorem madeHolder_not_tellsOutcome :
    ¬ ∀ (start : HolderState (List ℕ) ℕ) (calls : List (HolderCall ℕ Unit Unit)),
      (holderCalls Unit Unit queuePool).Guarded (TellsOutcome queuePool)
        start calls := by
  intro hclaim
  have htells := (hclaim madeHolder [selectCurrentTimestamp]).1
  have hnone := (tellsOutcome_iff queuePool madeHolder
    selectCurrentTimestamp).mp htells rfl
  exact absurd hnone (by decide)

end StoreCpp
