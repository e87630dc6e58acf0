import StoreCpp.EventSearch
import StoreCpp.GroupBy
import StoreCpp.StepMachine
import Mathlib.Data.List.MinMax

/-!
# Managers of modified resources

A `CaResourceManager` reads the newest row that is logged for its purpose,
selects the next modified row behind it, hands that row to its handler and
logs it.  The two callbacks of its queries travel through variables of the
namespace, which every call of `fetchNextTasks` assigns and every query looks
up when it completes.  A failing query ends the process.
-/

namespace StoreCpp

open StepMachine

structure CaResourceModified (υ : Type) where
  environment : Str
  store : Str
  type : Str
  startTime : Int64
  id : Str
  oid : Str
  uid : υ
  current : Str
  deriving DecidableEq

structure CaResourceProcessed (υ : Type) where
  environment : Str
  store : Str
  type : Str
  purpose : Str
  uid : υ
  current : Str
  id : Str
  oid : Str
  startTime : Int64
  deriving DecidableEq

/-- What the constructor of a manager registers under its address. -/
structure ManagerSettings where
  keyspace : Str
  environment : LiteralText
  store : LiteralText
  dataType : LiteralText
  purpose : LiteralText

/-- The two tables of every keyspace. -/
structure ResourceTables (υ : Type) where
  modified : Str → List (CaResourceModified υ)
  processed : Str → List (CaResourceProcessed υ)

section Rows

variable {υ : Type}

def CaResourceModified.BelongsTo (row : CaResourceModified υ)
    (settings : ManagerSettings) : Prop :=
  row.environment = settings.environment.text ∧
    row.store = settings.store.text ∧ row.type = settings.dataType.text

instance (row : CaResourceModified υ) (settings : ManagerSettings) :
    Decidable (row.BelongsTo settings) :=
  inferInstanceAs (Decidable (_ ∧ _))

def CaResourceProcessed.BelongsTo (row : CaResourceProcessed υ)
    (settings : ManagerSettings) : Prop :=
  row.environment = settings.environment.text ∧
    row.store = settings.store.text ∧ row.type = settings.dataType.text ∧
    row.purpose = settings.purpose.text

instance (row : CaResourceProcessed υ) (settings : ManagerSettings) :
    Decidable (row.BelongsTo settings) :=
  inferInstanceAs (Decidable (_ ∧ _))

def ResourceTables.modifiedRows (db : ResourceTables υ)
    (settings : ManagerSettings) : List (CaResourceModified υ) :=
  (db.modified settings.keyspace).filter fun row => row.BelongsTo settings

def ResourceTables.loggedUids (db : ResourceTables υ)
    (settings : ManagerSettings) : List υ :=
  ((db.processed settings.keyspace).filter fun row =>
    row.BelongsTo settings).map CaResourceProcessed.uid

/-- The key of the table of processed rows. -/
def CaResourceProcessed.SameKey (row other : CaResourceProcessed υ) : Prop :=
  row.environment = other.environment ∧ row.store = other.store ∧
    row.type = other.type ∧ row.purpose = other.purpose ∧ row.uid = other.uid

instance [DecidableEq υ] (row other : CaResourceProcessed υ) :
    Decidable (row.SameKey other) :=
  inferInstanceAs (Decidable (_ ∧ _))

/-- The row that is logged for what a handler has returned. -/
def CaResourceModified.processedFor (c1 : CaResourceModified υ)
    (settings : ManagerSettings) : CaResourceProcessed υ where
  environment := c1.environment
  store := c1.store
  type := c1.type
  purpose := settings.purpose.text
  uid := c1.uid
  current := c1.current
  id := c1.id
  oid := c1.oid
  startTime := c1.startTime

/-- An insert, which replaces a row with the same key. -/
def ResourceTables.insertProcessed [DecidableEq υ] (db : ResourceTables υ)
    (keyspace : Str) (row : CaResourceProcessed υ) : ResourceTables υ :=
  { db with
    processed := fun other =>
      if other = keyspace then
        (db.processed other).filter (fun old => ¬ old.SameKey row) ++ [row]
      else db.processed other }

/-- The batch that a call of `insertSync` executes. -/
def ResourceTables.insertBatch [DecidableEq υ] (db : ResourceTables υ)
    (settings : ManagerSettings) (processed : List (CaResourceModified υ)) :
    ResourceTables υ :=
  processed.foldl (fun db c1 =>
    db.insertProcessed settings.keyspace (c1.processedFor settings)) db

/-- The latest of the rows with each id. -/
def latestOfEach (unprocessed : List (CaResourceModified υ)) :
    List (CaResourceModified υ) :=
  (groupBy CaResourceModified.id unprocessed).filterMap fun c =>
    (c.2.mergeSort fun lhs rhs => rhs.startTime ≤ lhs.startTime).head?

/-- What a handler may change of a row. -/
structure CaResourceModified.Keeps (row result : CaResourceModified υ) :
    Prop where
  uid : result.uid = row.uid
  environment : result.environment = row.environment
  store : result.store = row.store
  type : result.type = row.type

instance [DecidableEq υ] (row result : CaResourceModified υ) :
    Decidable (row.Keeps result) :=
  decidable_of_iff
    (result.uid = row.uid ∧ result.environment = row.environment ∧
      result.store = row.store ∧ result.type = row.type)
    ⟨fun h => ⟨h.1, h.2.1, h.2.2.1, h.2.2.2⟩,
      fun h => ⟨h.uid, h.environment, h.store, h.type⟩⟩

variable [LinearOrder υ]

/-- `ca_resource_processed_select`, on a table with the largest uid first. -/
def ResourceTables.processedSelect (db : ResourceTables υ)
    (settings : ManagerSettings) : Option υ :=
  (db.loggedUids settings).argmax id

/-- `ca_resource_modified_select`, on a table with the smallest uid first. -/
def ResourceTables.modifiedSelect (db : ResourceTables υ)
    (settings : ManagerSettings) (uid : υ) : Option (CaResourceModified υ) :=
  ((db.modifiedRows settings).filter fun row => uid < row.uid).argmin
    CaResourceModified.uid

end Rows

/-! ## Calls -/

/-- A callback refers to the handler of a call of `fetchNextTasks` and to the
manager of that call. -/
structure Callback (ι : Type) where
  handler : ι
  manager : ι
  deriving DecidableEq

inductive FetchPhase (ι υ : Type) where
  | idle
  | assigned
  | cursorRead (acting : Callback ι) (uid : υ)
  | handling (acting : Callback ι)
      (unhandled processed : List (CaResourceModified υ))

/-- What has happened in a call of `manager`: a query completed with a
callback, a row was handed to a handler, a row was logged for the purpose of a
manager. -/
inductive FetchEvent (ι υ : Type) where
  | queried (manager : ι) (callback : Callback ι)
  | handled (manager handler : ι) (row : CaResourceModified υ)
  | logged (manager handler purposeOf : ι) (uid : υ)
  deriving DecidableEq

structure ManagerState (ι υ : Type) where
  db : ResourceTables υ
  modifiedCallback : Option (Callback ι)
  processedCallback : Option (Callback ι)
  phase : ι → FetchPhase ι υ
  history : List (FetchEvent ι υ)

inductive ManagerStep (ι υ : Type) where
  | write (keyspace : Str) (row : CaResourceModified υ)
  | assign (m : ι)
  | runProcessed (m : ι) (twoDaysAgo : υ)
  | runModified (m : ι)
  | handle (m : ι) (result : CaResourceModified υ)
  | log (m : ι)
  | crash

section Machine

variable {ι υ : Type} [DecidableEq ι] [LinearOrder υ]

namespace ManagerState

def setPhase (s : ManagerState ι υ) (m : ι) (phase : FetchPhase ι υ)
    (news : List (FetchEvent ι υ)) : ManagerState ι υ :=
  { s with
    phase := Function.update s.phase m phase
    history := s.history ++ news }

/-- Writers add rows in the order of their uids. -/
def write (s : ManagerState ι υ) (keyspace : Str)
    (row : CaResourceModified υ) : Option (ManagerState ι υ) :=
  if ∀ other ∈ s.db.modified keyspace,
      other.environment = row.environment → other.store = row.store →
        other.type = row.type → other.uid < row.uid then
    some { s with
      db := { s.db with
        modified := fun other =>
          if other = keyspace then s.db.modified other ++ [row]
          else s.db.modified other } }
  else none

/-- The beginning of `fetchNextTasks`. -/
def assign (s : ManagerState ι υ) (m : ι) : Option (ManagerState ι υ) :=
  match s.phase m with
  | .idle =>
      some { s.setPhase m .assigned [] with
        modifiedCallback := some ⟨m, m⟩
        processedCallback := some ⟨m, m⟩ }
  | _ => none

/-- The first query, up to the second one in `rowToCaResourceProcessedTapFunc`
of the manager that the callback belongs to. -/
def runProcessed (settings : ι → ManagerSettings) (s : ManagerState ι υ)
    (m : ι) (twoDaysAgo : υ) : Option (ManagerState ι υ) :=
  match s.phase m, s.processedCallback with
  | .assigned, some callback =>
      let uid := (s.db.processedSelect (settings m)).getD twoDaysAgo
      some (s.setPhase m (.cursorRead callback uid) [.queried m callback])
  | _, _ => none

/-- The second query, up to the handler in `rowToCaResourceModifiedTapFunc` of
the manager that the callback belongs to. -/
def runModified (settings : ι → ManagerSettings) (s : ManagerState ι υ)
    (m : ι) : Option (ManagerState ι υ) :=
  match s.phase m, s.modifiedCallback with
  | .cursorRead acting uid, some callback =>
      let row := s.db.modifiedSelect (settings acting.manager) uid
      some (s.setPhase m (.handling callback (latestOfEach row.toList) [])
        [.queried m callback])
  | _, _ => none

def handle (s : ManagerState ι υ) (m : ι) (result : CaResourceModified υ) :
    Option (ManagerState ι υ) :=
  match s.phase m with
  | .handling acting (c1 :: unhandled) processed =>
      if c1.Keeps result then
        some (s.setPhase m (.handling acting unhandled (processed ++ [result]))
          [.handled m acting.handler c1])
      else none
  | _ => none

def log (settings : ι → ManagerSettings) (s : ManagerState ι υ) (m : ι) :
    Option (ManagerState ι υ) :=
  match s.phase m with
  | .handling acting [] processed =>
      some { s.setPhase m .idle (processed.map fun c1 =>
          .logged m acting.handler acting.manager c1.uid) with
        db := s.db.insertBatch (settings acting.manager) processed }
  | _ => none

/-- The end of the process; the tables stay. -/
def crash (s : ManagerState ι υ) : ManagerState ι υ :=
  { s with
    modifiedCallback := none
    processedCallback := none
    phase := fun _ => .idle }

def perform (settings : ι → ManagerSettings) (s : ManagerState ι υ) :
    ManagerStep ι υ → Option (ManagerState ι υ)
  | .write keyspace row => s.write keyspace row
  | .assign m => s.assign m
  | .runProcessed m twoDaysAgo => s.runProcessed settings m twoDaysAgo
  | .runModified m => s.runModified settings m
  | .handle m result => s.handle m result
  | .log m => s.log settings m
  | .crash => some s.crash

/-- Before any call of the process. -/
structure Start (s : ManagerState ι υ) : Prop where
  modifiedCallback : s.modifiedCallback = none
  processedCallback : s.processedCallback = none
  phase : ∀ m, s.phase m = .idle
  history : s.history = []

end ManagerState

def caResourceManagers (settings : ι → ManagerSettings) :
    Machine (ManagerState ι υ) (ManagerStep ι υ) where
  init := ManagerState.Start
  step := ManagerState.perform settings

end Machine

/-! ## What one step does -/

section Steps

variable {ι υ : Type} [DecidableEq ι] {settings : ι → ManagerSettings}
  {s next : ManagerState ι υ} {m : ι}

namespace ManagerState

@[simp] theorem setPhase_phase_self (s : ManagerState ι υ) (m : ι)
    (phase : FetchPhase ι υ) (news : List (FetchEvent ι υ)) :
    (s.setPhase m phase news).phase m = phase :=
  Function.update_self _ _ _

theorem setPhase_phase_of_ne (s : ManagerState ι υ) {m other : ι}
    (hother : other ≠ m) (phase : FetchPhase ι υ)
    (news : List (FetchEvent ι υ)) :
    (s.setPhase m phase news).phase other = s.phase other :=
  Function.update_of_ne hother _ _

theorem assign_eq_some :
    s.assign m = some next ↔
      s.phase m = .idle ∧
        next = { s.setPhase m .assigned [] with
          modifiedCallback := some ⟨m, m⟩
          processedCallback := some ⟨m, m⟩ } := by
  unfold assign
  cases s.phase m <;> simp [eq_comm]

variable [LinearOrder υ]

omit [DecidableEq ι] in
theorem write_eq_some {keyspace : Str} {row : CaResourceModified υ} :
    s.write keyspace row = some next ↔
      (∀ other ∈ s.db.modified keyspace,
        other.environment = row.environment → other.store = row.store →
          other.type = row.type → other.uid < row.uid) ∧
      next = { s with
        db := { s.db with
          modified := fun other =>
            if other = keyspace then s.db.modified other ++ [row]
            else s.db.modified other } } := by
  unfold write
  split_ifs with hrow
  · exact ⟨fun h => ⟨hrow, (Option.some.inj h).symm⟩,
      fun h => congrArg some h.2.symm⟩
  · simp [hrow]

theorem runProcessed_eq_some {twoDaysAgo : υ} :
    s.runProcessed settings m twoDaysAgo = some next ↔
      ∃ callback, s.phase m = .assigned ∧
        s.processedCallback = some callback ∧
        next = s.setPhase m (.cursorRead callback
          ((s.db.processedSelect (settings m)).getD twoDaysAgo))
            [.queried m callback] := by
  unfold runProcessed
  cases s.phase m <;> cases s.processedCallback <;> simp [eq_comm]

theorem runModified_eq_some :
    s.runModified settings m = some next ↔
      ∃ acting uid callback, s.phase m = .cursorRead acting uid ∧
        s.modifiedCallback = some callback ∧
        next = s.setPhase m (.handling callback (latestOfEach
          (s.db.modifiedSelect (settings acting.manager) uid).toList) [])
            [.queried m callback] := by
  unfold runModified
  cases s.phase m <;> cases s.modifiedCallback <;> simp [eq_comm]

theorem handle_eq_some {result : CaResourceModified υ} :
    s.handle m result = some next ↔
      ∃ acting c1 unhandled processed,
        s.phase m = .handling acting (c1 :: unhandled) processed ∧
        c1.Keeps result ∧
        next = s.setPhase m
          (.handling acting unhandled (processed ++ [result]))
            [.handled m acting.handler c1] := by
  unfold handle
  cases hphase : s.phase m with
  | handling acting unhandled processed =>
      cases unhandled with
      | nil => simp
      | cons c1 unhandled =>
          by_cases hkeeps : c1.Keeps result
          · simp [hkeeps, eq_comm]
          · simp [hkeeps]
  | _ => simp

theorem log_eq_some :
    s.log settings m = some next ↔
      ∃ acting processed, s.phase m = .handling acting [] processed ∧
        next = { s.setPhase m .idle (processed.map fun c1 =>
            .logged m acting.handler acting.manager c1.uid) with
          db := s.db.insertBatch (settings acting.manager) processed } := by
  unfold log
  cases hphase : s.phase m with
  | handling acting unhandled processed =>
      cases unhandled with
      | nil => simp [eq_comm]
      | cons c1 unhandled => simp
  | _ => simp

end ManagerState

end Steps

/-! ## The sales -/

def forecast : LiteralText where
  text := "forecast".toList
  noQuote := by decide
  noNul := by decide

def salesManager (purpose : LiteralText) : ManagerSettings where
  keyspace := "dwh".toList
  environment := ⟨"development".toList, by decide, by decide⟩
  store := ⟨"IKEA".toList, by decide, by decide⟩
  dataType := ⟨"Sales".toList, by decide, by decide⟩
  purpose := purpose

def salesRow (uid : ℕ) : CaResourceModified ℕ where
  environment := "development".toList
  store := "IKEA".toList
  type := "Sales".toList
  startTime := 0
  id := "sale".toList
  oid := "sale".toList
  uid := uid
  current := []

end StoreCpp
