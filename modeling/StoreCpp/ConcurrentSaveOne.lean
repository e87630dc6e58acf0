import StoreCpp.MongoEventStore

/-!
# Concurrent calls of `SaveOne`

Any number of calls run over one database.  Each operation is atomic, and the
operations of different calls interleave; a call that runs alone does what
`SaveOne` does.
-/

namespace StoreCpp

open StepMachine KeyedTable

/-- What a call has got from the operations it has completed. -/
inductive Progress where
  | begun
  | missing
  | identified (streamId : Str)
  | sequenced (streamId : Str) (globalseq : Int64)
  | versioned (streamId : Str) (globalseq nextver : Int64)
  | stored (streamId : Str) (nextver : Int64) (saved : ℕ)
  | finished (rc : ℕ)
  | thrown
  deriving DecidableEq

def Progress.streamId : Progress → Option Str
  | .identified streamId | .sequenced streamId _ | .versioned streamId _ _
  | .stored streamId _ _ => some streamId
  | .begun | .missing | .finished _ | .thrown => none

/-- The next operation of a call. -/
def SaveOneCall.operation (call : SaveOneCall) (outcome : Outcome)
    (choice : ℕ) : Progress → Option (MongoM Progress)
  | .begun => some <|
      (fun found => found.elim .missing .identified) <$>
        lookUpUid outcome choice call.streamType
  | .missing => some <|
      .identified <$> createUid outcome call.streamType call.newUuid
  | .identified streamId => some <|
      .sequenced streamId <$> getNextSequenceValue outcome allEvents
  | .sequenced streamId globalseq => some <|
      .versioned streamId globalseq <$>
        getNextSequenceValue outcome call.streamType
  | .versioned streamId globalseq nextver => some <|
      .stored streamId nextver <$>
        saveOneEvent outcome globalseq call.nextuid streamId call.streamType
          nextver call.streamObj call.now
  | .stored streamId nextver saved => some <|
      (fun replaced => .finished (saved + replaced)) <$>
        saveOneEventStream outcome streamId call.streamType nextver call.now
          call.streamObj nextver
  | .finished _ | .thrown => none

def SaveOneCall.advance (call : SaveOneCall) (outcome : Outcome) (choice : ℕ)
    (progress : Progress) (db : MongoDb) : Option (Progress × MongoDb) :=
  (call.operation outcome choice progress).map fun operation =>
    let (result, next) := operation.perform db
    (result.getD .thrown, next)

structure RunningCall where
  call : SaveOneCall
  progress : Progress

structure SaveOnes (ι : Type) where
  db : MongoDb
  calls : ι → Option RunningCall

inductive SaveOneStep where
  | begin (call : SaveOneCall)
  | advance (outcome : Outcome) (choice : ℕ)

namespace SaveOnes

variable {ι : Type} [DecidableEq ι]

def set (state : SaveOnes ι) (i : ι) (running : RunningCall) : SaveOnes ι :=
  { state with calls := Function.update state.calls i (some running) }

def perform (state : SaveOnes ι) (i : ι) :
    SaveOneStep → Option (SaveOnes ι)
  | .begin call =>
      match state.calls i with
      | none => some (state.set i { call, progress := .begun })
      | some _ => none
  | .advance outcome choice => do
      let running ← state.calls i
      let (progress, db) ←
        running.call.advance outcome choice running.progress state.db
      return { state with db }.set i { running with progress }

end SaveOnes

/-- The calls start on a database of the given kind. -/
def concurrentSaveOne (ι : Type) [DecidableEq ι] (start : MongoDb → Prop) :
    Machine (SaveOnes ι) (ι × SaveOneStep) where
  init state := start state.db ∧ ∀ i, state.calls i = none
  step state action := state.perform action.1 action.2

/-! ## One operation of a call -/

def SaveOneCall.event (call : SaveOneCall) (streamId : Str)
    (globalseq nextver : Int64) : IEvent where
  seqId := globalseq
  id := call.nextuid
  streamId := streamId
  type := call.streamType
  version := nextver
  data := call.streamObj
  timestamp := call.now

def SaveOneCall.stream (call : SaveOneCall) (streamId : Str)
    (nextver : Int64) : IEventStream where
  id := streamId
  type := call.streamType
  version := nextver
  timestamp := call.now
  snapshot := call.streamObj
  snapshotVersion := nextver

/-- The helper turns the exception into an ordinary result. -/
def Outcome.Caught (outcome : Outcome) : Prop :=
  outcome = .refused ∨ outcome = .lost

instance (outcome : Outcome) : Decidable outcome.Caught :=
  inferInstanceAs (Decidable (_ ∨ _))

namespace SaveOneCall

variable (call : SaveOneCall) (outcome : Outcome) (choice : ℕ)
  (db : MongoDb)

theorem advance_begun :
    call.advance outcome choice .begun db = some (
      if outcome = .escaped then .thrown
      else if outcome = .succeeded then
        ((db.findStream call.streamType choice).map StreamDoc.id).elim
          .missing .identified
      else .identified [], db) := by
  simp only [advance, operation, Option.map_some, perform_map, lookUpUid,
    perform_guardedCall]
  cases outcome <;> rfl

theorem advance_missing :
    call.advance outcome choice .missing db = some (
      if outcome = .escaped then .thrown
      else .identified <|
        if outcome = .succeeded ∧ db.eventstreams.find call.newUuid = none
          then call.newUuid else [],
      if outcome.Applied then db.created call.newUuid call.streamType
      else db) := by
  simp only [advance, operation, Option.map_some, perform_map,
    perform_createUid]
  split_ifs <;> rfl

theorem advance_identified (streamId : Str) :
    call.advance outcome choice (.identified streamId) db = some (
      if outcome = .escaped then .thrown
      else .sequenced streamId
        (sequenceValue outcome (db.eventsCounter allEvents)),
      db.counted outcome allEvents) := by
  simp only [advance, operation, Option.map_some, perform_map,
    perform_getNextSequenceValue]
  split_ifs <;> rfl

theorem advance_sequenced (streamId : Str) (globalseq : Int64) :
    call.advance outcome choice (.sequenced streamId globalseq) db = some (
      if outcome = .escaped then .thrown
      else .versioned streamId globalseq
        (sequenceValue outcome (db.eventsCounter call.streamType)),
      db.counted outcome call.streamType) := by
  simp only [advance, operation, Option.map_some, perform_map,
    perform_getNextSequenceValue]
  split_ifs <;> rfl

theorem advance_versioned (streamId : Str) (globalseq nextver : Int64) :
    call.advance outcome choice (.versioned streamId globalseq nextver) db =
      some (
      if outcome = .escaped then .thrown
      else .stored streamId nextver (if outcome = .succeeded then 1 else 0),
      if outcome.Applied then
        db.insertEvent (call.event streamId globalseq nextver)
      else db) := by
  simp only [advance, operation, Option.map_some, perform_map, saveOneEvent,
    perform_insertOne]
  split_ifs <;> rfl

theorem advance_stored (streamId : Str) (nextver : Int64) (saved : ℕ) :
    call.advance outcome choice (.stored streamId nextver saved) db = some (
      if outcome = .escaped then .thrown
      else .finished (saved + if outcome = .succeeded then 1 else 0),
      if outcome.Applied then
        db.replaceStream streamId (call.stream streamId nextver)
      else db) := by
  simp only [advance, operation, Option.map_some, perform_map,
    saveOneEventStream, perform_upsertOne]
  split_ifs <;> rfl

end SaveOneCall

theorem Progress.streamId_of_ite {progress progress' : Progress}
    {escaped : Prop} [Decidable escaped] {id : Str}
    (hid : (if escaped then .thrown else progress').streamId = some id)
    (hsame : progress'.streamId = progress.streamId) :
    progress.streamId = some id := by
  split_ifs at hid
  · cases hid
  · exact hsame.symm.trans hid

theorem SaveOnes.perform_advance {ι : Type} [DecidableEq ι]
    {state next : SaveOnes ι} {i : ι} {outcome : Outcome} {choice : ℕ}
    (hstep : state.perform i (.advance outcome choice) = some next) :
    ∃ running progress db, state.calls i = some running ∧
      running.call.advance outcome choice running.progress state.db =
        some (progress, db) ∧
      next = { state with db }.set i { running with progress } := by
  unfold SaveOnes.perform at hstep
  simp only [Option.bind_eq_bind, Option.bind_eq_some_iff] at hstep
  obtain ⟨running, hrunning, ⟨progress, db⟩, hadvance, hnext⟩ := hstep
  exact ⟨running, progress, db, hrunning, hadvance,
    (Option.some.inj hnext).symm⟩

/-! ## A call that runs alone -/

namespace SaveOnes

variable {ι : Type} [DecidableEq ι]

theorem perform_begin {state next : SaveOnes ι} {i : ι} {call : SaveOneCall}
    (hstep : state.perform i (.begin call) = some next) :
    state.calls i = none ∧ next = state.set i { call, progress := .begun } := by
  unfold perform at hstep
  cases hcall : state.calls i with
  | none =>
      rw [hcall] at hstep
      exact ⟨rfl, (Option.some.inj hstep).symm⟩
  | some running =>
      rw [hcall] at hstep
      cases hstep

theorem calls_set (state : SaveOnes ι) (i : ι) (running : RunningCall)
    (j : ι) :
    (state.set i running).calls j =
      if j = i then some running else state.calls j :=
  Function.update_apply _ _ _ _

/-- The operations of one call alone lead from here to this result. -/
def Ends (state : SaveOnes ι) (i : ι) (call : SaveOneCall)
    (progress : Progress) (db : MongoDb) (result : Option ℕ × MongoDb) : Prop :=
  ∃ actions : List (ι × SaveOneStep), (∀ action ∈ actions, action.1 = i) ∧
    (concurrentSaveOne ι fun _ => True).run
      (set { state with db } i { call, progress }) actions =
      some (set { state with db := result.2 } i
        { call, progress := result.1.elim .thrown .finished })

theorem step_advance {state : SaveOnes ι} {i : ι} {call : SaveOneCall}
    {outcome : Outcome} {choice : ℕ} {progress progress' : Progress}
    {db db' : MongoDb}
    (hadvance : call.advance outcome choice progress db =
      some (progress', db')) :
    (concurrentSaveOne ι fun _ => True).step
      (set { state with db } i { call, progress })
      (i, .advance outcome choice) =
        some (set { state with db := db' } i { call, progress := progress' }) := by
  simp only [concurrentSaveOne, perform, calls_set, if_true]
  change (call.advance outcome choice progress db).bind _ = _
  rw [hadvance]
  simp [set, Function.update_idem]

/-- One operation, and then the rest of the program. -/
theorem Ends.operation {state : SaveOnes ι} {i : ι} {call : SaveOneCall}
    {outcome : Outcome} {progress : Progress} {α : Type} (choice : ℕ)
    {operation : MongoM α} {wrap : α → Progress} {rest : α → MongoM ℕ}
    (hoperation : call.operation outcome choice progress =
      some (wrap <$> operation))
    (hrest : ∀ result db, Ends state i call (wrap result) db
      ((rest result).perform db)) (db : MongoDb) :
    Ends state i call progress db
      ((operation >>= rest : MongoM ℕ).perform db) := by
  have hadvance : call.advance outcome choice progress db = some
      (((operation.perform db).1.map wrap).getD .thrown,
        (operation.perform db).2) := by
    rw [SaveOneCall.advance, hoperation, Option.map_some, perform_map]
  rw [perform_bind]
  cases hperform : operation.perform db with
  | mk result next =>
      rw [hperform] at hadvance
      have hstep := @step_advance ι _ state i _ _ _ _ _ _ _ hadvance
      cases result with
      | none =>
          refine ⟨[(i, .advance outcome choice)], by simp, ?_⟩
          exact Machine.run_cons_eq_some.mpr ⟨_, hstep, rfl⟩
      | some result =>
          obtain ⟨actions, hactions, hrun⟩ := hrest result next
          refine ⟨(i, .advance outcome choice) :: actions, ?_, ?_⟩
          · simpa using hactions
          · exact Machine.run_cons_eq_some.mpr ⟨_, hstep, hrun⟩

theorem ends_saveOne (state : SaveOnes ι) (i : ι) (attempt : Attempt)
    (db : MongoDb) :
    Ends state i attempt.toSaveOneCall .begun db
      ((saveOne attempt).perform db) := by
  have hidentified : ∀ streamId db, Ends state i attempt.toSaveOneCall
      (.identified streamId) db
      ((do
        let globalseq ← getNextSequenceValue (attempt.outcome .nextSequence)
          allEvents
        let nextver ← getNextSequenceValue (attempt.outcome .nextVersion)
          attempt.streamType
        let saved ← saveOneEvent (attempt.outcome .saveEvent) globalseq
          attempt.nextuid streamId attempt.streamType nextver
          attempt.streamObj attempt.now
        let replaced ← saveOneEventStream (attempt.outcome .saveStream)
          streamId attempt.streamType nextver attempt.now attempt.streamObj
          nextver
        return saved + replaced : MongoM ℕ).perform db) := by
    intro streamId
    refine Ends.operation attempt.choice rfl fun globalseq => ?_
    refine Ends.operation attempt.choice rfl fun nextver => ?_
    refine Ends.operation attempt.choice rfl fun saved => ?_
    refine Ends.operation attempt.choice rfl fun replaced db => ?_
    exact ⟨[], by simp, rfl⟩
  unfold saveOne getUid
  rw [bind_assoc]
  refine Ends.operation attempt.choice rfl (fun found => ?_) db
  cases found with
  | none => exact Ends.operation attempt.choice rfl hidentified
  | some streamId =>
      intro db
      simpa using hidentified streamId db

/-- Without other calls in between, the operations of a call amount to
`SaveOne`. -/
theorem run_saveOne {state : SaveOnes ι} {i : ι} (attempt : Attempt)
    (hidle : state.calls i = none) :
    ∃ actions : List (ι × SaveOneStep), (∀ action ∈ actions, action.1 = i) ∧
      (concurrentSaveOne ι fun _ => True).run state actions =
        some (set { state with db := ((saveOne attempt).perform state.db).2 } i
          { call := attempt.toSaveOneCall
            progress := ((saveOne attempt).perform state.db).1.elim
              .thrown .finished }) := by
  obtain ⟨actions, hactions, hrun⟩ := ends_saveOne state i attempt state.db
  refine ⟨(i, .begin attempt.toSaveOneCall) :: actions, ?_, ?_⟩
  · simpa using hactions
  · refine Machine.run_cons_eq_some.mpr ⟨_, ?_, hrun⟩
    simp only [concurrentSaveOne, perform, hidle]

end SaveOnes

def SaveOnes.idle (ι : Type) (db : MongoDb) : SaveOnes ι where
  db := db
  calls := fun _ => none

/-- Two calls for one type, each with an id of its own for the stream. -/
def droidCall (second : Bool) : SaveOneCall :=
  { (plainSave "DROID".toList).toSaveOneCall with
    newUuid := if second then "6f9d7b0c-98c1-4f3e-8f8e-3b6a5c1d2e4f".toList
      else "06606420-0bc4-4661-8f4a-9a04ef7caea1".toList
    newUuid_ne := by cases second <;> decide }

def beginSave (second : Bool) : Bool × SaveOneStep :=
  (second, .begin (droidCall second))

def nextOperation (second : Bool) : Bool × SaveOneStep :=
  (second, .advance .succeeded 0)

end StoreCpp
