import StoreCpp.Events
import StoreCpp.KeyedTable
import Mathlib.Control.Monad.Basic
import Mathlib.Logic.Function.Basic
import Mathlib.Order.Basic

/-!
# The MongoDB base client

The three collections of the event store, and the operations of the base
client on them.  Each operation is one call of the driver inside a `try`: a
`std::exception` is logged and becomes an ordinary result, an empty id, `-1`
or `0`, and the caller goes on with it.
-/

namespace StoreCpp

open KeyedTable

/-- What a stream document holds besides its `_id`: the type that `getUid`
inserted it with, or the stream that replaced it. -/
inductive StreamContent where
  | created (type : Str)
  | saved (stream : IEventStream)

def StreamContent.type : StreamContent → Str
  | .created type => type
  | .saved stream => stream.type

structure StreamDoc where
  id : Str
  content : StreamContent

def StreamDoc.type (doc : StreamDoc) : Str :=
  doc.content.type

/-- A counter without a document reads `0`, since an upserting increment
creates it with `1`. -/
structure MongoDb where
  eventstreams : Table StreamDoc.id
  eventsCounter : Str → ℕ
  events : List IEvent

def MongoDb.empty : MongoDb where
  eventstreams := Table.empty
  eventsCounter := fun _ => 0
  events := []

/-- How one operation goes.  A `std::exception` may come before or after the
server applies the operation; an exception that `catch` does not name, or one
from the conversion to BSON, leaves `SaveOne` before the operation is sent. -/
inductive Outcome where
  | succeeded
  | refused
  | lost
  | escaped
  deriving DecidableEq

/-- The effects on the database stay when an exception leaves. -/
abbrev MongoM := OptionT (StateM MongoDb)

/-- One operation in its `try`; the effect is `none` where the server itself
rejects the operation. -/
def guardedCall {α : Type} (outcome : Outcome)
    (effect : MongoDb → Option (α × MongoDb)) (fallback : α) : MongoM α :=
  OptionT.mk fun db =>
    match outcome with
    | .escaped => (none, db)
    | .refused => (some fallback, db)
    | .lost => (some fallback, ((effect db).map Prod.snd).getD db)
    | .succeeded =>
        match effect db with
        | some (result, next) => (some result, next)
        | none => (some fallback, db)

namespace MongoDb

/-- A `find` with a limit of one and no order may return any match. -/
def findStream (db : MongoDb) (typeName : Str) (choice : ℕ) :
    Option StreamDoc :=
  let found := db.eventstreams.rows.filter fun doc => doc.type = typeName
  found[choice % found.length]?

/-- A duplicate `_id` is a write error. -/
def insertStream (db : MongoDb) (uid typeName : Str) : Option (Str × MongoDb) :=
  if hnew : db.eventstreams.find uid = none then
    some (uid, { db with
      eventstreams := db.eventstreams.insert
        { id := uid, content := .created typeName } hnew })
  else none

/-- The sum must stay in 64 bits. -/
def increment (db : MongoDb) (sequenceName : Str) : Option (Int64 × MongoDb) :=
  let value := db.eventsCounter sequenceName + 1
  if value < 2 ^ 63 then
    some (Int64.ofNat value, { db with
      eventsCounter := Function.update db.eventsCounter sequenceName value })
  else none

def insertEvent (db : MongoDb) (event : IEvent) : MongoDb :=
  { db with events := db.events ++ [event] }

/-- The `_id` of the filter stays, and a document without one is created. -/
def replaceStream (db : MongoDb) (id : Str) (stream : IEventStream) :
    MongoDb :=
  { db with
    eventstreams := db.eventstreams.upsert { id, content := .saved stream }
      (fun old new => { new with id := old.id }) fun _ => rfl }

end MongoDb

/-- The lookup of `getUid`: `none` sends it on to the insert. -/
def lookUpUid (outcome : Outcome) (choice : ℕ) (typeName : Str) :
    MongoM (Option Str) :=
  guardedCall outcome
    (fun db => some ((db.findStream typeName choice).map StreamDoc.id, db))
    (some [])

def createUid (outcome : Outcome) (typeName uid : Str) : MongoM Str :=
  guardedCall outcome (fun db => db.insertStream uid typeName) []

def getUid (lookUp create : Outcome) (choice : ℕ) (typeName uid : Str) :
    MongoM Str := do
  match ← lookUpUid lookUp choice typeName with
  | some uid => return uid
  | none => createUid create typeName uid

def getNextSequenceValue (outcome : Outcome) (sequenceName : Str) :
    MongoM Int64 :=
  guardedCall outcome (fun db => db.increment sequenceName) (-1)

def insertOne (outcome : Outcome) (event : IEvent) : MongoM ℕ :=
  guardedCall outcome (fun db => some (1, db.insertEvent event)) 0

def upsertOne (outcome : Outcome) (stream : IEventStream) (id : Str) :
    MongoM ℕ :=
  guardedCall outcome (fun db => some (1, db.replaceStream id stream)) 0

/-! ## What an operation returns and leaves -/

def MongoM.perform {α : Type} (op : MongoM α) (db : MongoDb) :
    Option α × MongoDb :=
  (op.run.run db).run

@[simp] theorem perform_pure {α : Type} (result : α) (db : MongoDb) :
    (pure result : MongoM α).perform db = (some result, db) := rfl

theorem perform_bind {α β : Type} (op : MongoM α) (rest : α → MongoM β)
    (db : MongoDb) :
    (op >>= rest : MongoM β).perform db =
      match op.perform db with
      | (some result, next) => (rest result).perform next
      | (none, next) => (none, next) := by
  unfold MongoM.perform
  rw [OptionT.run_bind, Option.elimM, StateT.run_bind, Id.run_bind]
  cases (op.run.run db).run with
  | mk result next =>
      cases result with
      | none => rfl
      | some result => rfl

theorem perform_map {α β : Type} (f : α → β) (op : MongoM α) (db : MongoDb) :
    (f <$> op : MongoM β).perform db =
      ((op.perform db).1.map f, (op.perform db).2) := by
  rw [map_eq_pure_bind, perform_bind]
  cases op.perform db with
  | mk result next => cases result <;> rfl

theorem perform_guardedCall {α : Type} (outcome : Outcome)
    (effect : MongoDb → Option (α × MongoDb)) (fallback : α) (db : MongoDb) :
    (guardedCall outcome effect fallback).perform db =
      match outcome with
      | .escaped => (none, db)
      | .refused => (some fallback, db)
      | .lost => (some fallback, ((effect db).map Prod.snd).getD db)
      | .succeeded =>
          match effect db with
          | some (result, next) => (some result, next)
          | none => (some fallback, db) := rfl

/-- The server applies the operation. -/
def Outcome.Applied (outcome : Outcome) : Prop :=
  outcome = .succeeded ∨ outcome = .lost

instance (outcome : Outcome) : Decidable outcome.Applied :=
  inferInstanceAs (Decidable (_ ∨ _))

/-- A counter at this value is updated, and the caller gets the update. -/
def Outcome.Increments (outcome : Outcome) (value : ℕ) : Prop :=
  outcome = .succeeded ∧ value + 1 < 2 ^ 63

instance (outcome : Outcome) (value : ℕ) :
    Decidable (outcome.Increments value) :=
  inferInstanceAs (Decidable (_ ∧ _))

def sequenceValue (outcome : Outcome) (value : ℕ) : Int64 :=
  if outcome.Increments value then Int64.ofNat (value + 1) else -1

def counterValue (outcome : Outcome) (value : ℕ) : ℕ :=
  if outcome.Applied ∧ value + 1 < 2 ^ 63 then value + 1 else value

def MongoDb.counted (db : MongoDb) (outcome : Outcome) (sequenceName : Str) :
    MongoDb :=
  { db with
    eventsCounter := Function.update db.eventsCounter sequenceName
      (counterValue outcome (db.eventsCounter sequenceName)) }

theorem perform_getNextSequenceValue (outcome : Outcome) (sequenceName : Str)
    (db : MongoDb) :
    (getNextSequenceValue outcome sequenceName).perform db =
      (if outcome = .escaped then none
        else some (sequenceValue outcome (db.eventsCounter sequenceName)),
      db.counted outcome sequenceName) := by
  rw [getNextSequenceValue, perform_guardedCall]
  unfold MongoDb.increment MongoDb.counted sequenceValue counterValue
    Outcome.Increments Outcome.Applied
  by_cases hvalue : db.eventsCounter sequenceName + 1 < 2 ^ 63
  · simp only [hvalue, if_true, and_true]
    cases outcome <;> simp
  · simp only [hvalue, if_false, and_false]
    cases outcome <;> simp

theorem counted_eventsCounter (db : MongoDb) (outcome : Outcome)
    (sequenceName name : Str) :
    (db.counted outcome sequenceName).eventsCounter name =
      if name = sequenceName then
        counterValue outcome (db.eventsCounter sequenceName)
      else db.eventsCounter name := by
  unfold MongoDb.counted
  exact Function.update_apply _ _ _ _

theorem counterValue_of_increments {outcome : Outcome} {value : ℕ}
    (hincrements : outcome.Increments value) :
    counterValue outcome value = value + 1 :=
  if_pos ⟨.inl hincrements.1, hincrements.2⟩

theorem le_counterValue (outcome : Outcome) (value : ℕ) :
    value ≤ counterValue outcome value := by
  unfold counterValue
  split_ifs <;> omega

theorem le_counted_eventsCounter (db : MongoDb) (outcome : Outcome)
    (sequenceName name : Str) :
    db.eventsCounter name ≤
      (db.counted outcome sequenceName).eventsCounter name := by
  rw [counted_eventsCounter]
  split_ifs with hname
  · subst hname
    exact le_counterValue outcome _
  · exact le_refl _

theorem toInt_sequenceValue {outcome : Outcome} {value : ℕ}
    (hincrements : outcome.Increments value) :
    (sequenceValue outcome value).toInt = value + 1 := by
  unfold sequenceValue
  rw [if_pos hincrements, Int64.toInt_ofNat_of_lt hincrements.2]
  rfl

theorem toInt_sequenceValue_of_not {outcome : Outcome} {value : ℕ}
    (hfails : ¬ outcome.Increments value) :
    (sequenceValue outcome value).toInt = -1 := by
  unfold sequenceValue
  rw [if_neg hfails]
  rfl

theorem one_le_sequenceValue_iff {outcome : Outcome} {value : ℕ} :
    1 ≤ (sequenceValue outcome value).toInt ↔ outcome.Increments value := by
  by_cases hincrements : outcome.Increments value
  · rw [toInt_sequenceValue hincrements]
    exact ⟨fun _ => hincrements, fun _ => by omega⟩
  · rw [toInt_sequenceValue_of_not hincrements]
    exact ⟨fun hle => absurd hle (by decide), fun h => absurd h hincrements⟩

theorem sequenceValue_le_counted (db : MongoDb) (outcome : Outcome)
    (name : Str) :
    (sequenceValue outcome (db.eventsCounter name)).toInt ≤
      (db.counted outcome name).eventsCounter name := by
  rw [counted_eventsCounter, if_pos rfl]
  by_cases hincrements : outcome.Increments (db.eventsCounter name)
  · rw [toInt_sequenceValue hincrements, counterValue_of_increments hincrements]
    omega
  · rw [toInt_sequenceValue_of_not hincrements]
    omega

theorem perform_insertOne (outcome : Outcome) (event : IEvent) (db : MongoDb) :
    (insertOne outcome event).perform db =
      (if outcome = .escaped then none
        else some (if outcome = .succeeded then 1 else 0),
      if outcome.Applied then db.insertEvent event else db) := by
  rw [insertOne, perform_guardedCall]
  cases outcome <;> rfl

theorem perform_upsertOne (outcome : Outcome) (stream : IEventStream)
    (id : Str) (db : MongoDb) :
    (upsertOne outcome stream id).perform db =
      (if outcome = .escaped then none
        else some (if outcome = .succeeded then 1 else 0),
      if outcome.Applied then db.replaceStream id stream else db) := by
  rw [upsertOne, perform_guardedCall]
  cases outcome <;> rfl

/-! ## Stream documents -/

namespace MongoDb

/-- The database after an insert that its caller may not learn about. -/
def created (db : MongoDb) (uid typeName : Str) : MongoDb :=
  ((db.insertStream uid typeName).map Prod.snd).getD db

theorem created_eq (db : MongoDb) (uid typeName : Str) :
    ∃ streams,
      db.created uid typeName = { db with eventstreams := streams } := by
  unfold created insertStream
  split_ifs
  · exact ⟨_, rfl⟩
  · exact ⟨db.eventstreams, rfl⟩

theorem find_created (db : MongoDb) (uid typeName id : Str) :
    (db.created uid typeName).eventstreams.find id =
      if id = uid ∧ db.eventstreams.find uid = none then
        some { id := uid, content := .created typeName }
      else db.eventstreams.find id := by
  unfold created insertStream
  by_cases hnew : db.eventstreams.find uid = none
  · rw [dif_pos hnew]
    simp only [Option.map_some, Option.getD_some, Table.find_insert, hnew,
      and_true]
  · rw [dif_neg hnew, if_neg fun h => hnew h.2]
    rfl

theorem find_replaceStream (db : MongoDb) (uid : Str) (stream : IEventStream)
    (id : Str) :
    (db.replaceStream uid stream).eventstreams.find id =
      if id = uid then some { id := uid, content := .saved stream }
      else db.eventstreams.find id := by
  unfold replaceStream
  rw [Table.find_upsert]
  split_ifs with hid
  · subst hid
    cases hfind : db.eventstreams.find id with
    | none => rfl
    | some old =>
        have hold := ((Table.find_eq_some_iff _ _ _).mp hfind).2
        simp [hold]
  · rfl

/-- The type of the stream document with this id. -/
def streamType (db : MongoDb) (id : Str) : Option Str :=
  (db.eventstreams.find id).map StreamDoc.type

theorem streamType_eq_some_iff {db : MongoDb} {id type : Str} :
    db.streamType id = some type ↔
      ∃ doc ∈ db.eventstreams.rows, doc.id = id ∧ doc.type = type := by
  unfold streamType
  rw [Option.map_eq_some_iff]
  simp only [Table.find_eq_some_iff, and_assoc]

theorem streamType_created (db : MongoDb) (uid typeName id : Str) :
    (db.created uid typeName).streamType id =
      if id = uid ∧ db.eventstreams.find uid = none then some typeName
      else db.streamType id := by
  unfold streamType
  rw [find_created]
  split_ifs <;> rfl

theorem streamType_replaceStream (db : MongoDb) (uid : Str)
    (stream : IEventStream) (id : Str) :
    (db.replaceStream uid stream).streamType id =
      if id = uid then some stream.type else db.streamType id := by
  unfold streamType
  rw [find_replaceStream]
  split_ifs <;> rfl

theorem streamType_replaceStream_of_eq (db : MongoDb) {uid : Str}
    {stream : IEventStream} (htype : db.streamType uid = some stream.type) :
    (db.replaceStream uid stream).streamType = db.streamType := by
  funext id
  rw [streamType_replaceStream]
  split_ifs with hid
  · rw [hid, htype]
  · rfl

theorem findStream_mem {db : MongoDb} {typeName : Str} {choice : ℕ}
    {doc : StreamDoc} (hfind : db.findStream typeName choice = some doc) :
    doc ∈ db.eventstreams.rows ∧ doc.type = typeName := by
  unfold findStream at hfind
  simpa using List.mem_of_getElem? hfind

theorem findStream_eq_none {db : MongoDb} {typeName : Str} {choice : ℕ}
    (hfind : db.findStream typeName choice = none) :
    ∀ doc ∈ db.eventstreams.rows, doc.type ≠ typeName := by
  intro doc hdoc htype
  unfold findStream at hfind
  have hmem : doc ∈ db.eventstreams.rows.filter
      fun doc => doc.type = typeName := by
    simpa [htype] using hdoc
  have hpos := List.length_pos_of_mem hmem
  rw [List.getElem?_eq_none_iff] at hfind
  exact absurd (Nat.mod_lt choice hpos) (by omega)

end MongoDb

/-! ## Finding and creating a stream -/

/-- An exception leaves `getUid` itself. -/
def MongoDb.UidEscapes (db : MongoDb) (lookUp create : Outcome) (choice : ℕ)
    (typeName : Str) : Prop :=
  lookUp = .escaped ∨ lookUp = .succeeded ∧
    db.findStream typeName choice = none ∧ create = .escaped

/-- The lookup finds a document with an id, or finds none and creates one. -/
def MongoDb.Identifies (db : MongoDb) (lookUp create : Outcome) (choice : ℕ)
    (typeName uid : Str) : Prop :=
  lookUp = .succeeded ∧
    (∀ doc, db.findStream typeName choice = some doc → doc.id ≠ []) ∧
    (db.findStream typeName choice = none →
      create = .succeeded ∧ db.eventstreams.find uid = none)

theorem perform_createUid (create : Outcome) (typeName uid : Str)
    (db : MongoDb) :
    (createUid create typeName uid).perform db =
      (if create = .escaped then none
        else some (if create = .succeeded ∧ db.eventstreams.find uid = none
          then uid else []),
      if create.Applied then db.created uid typeName else db) := by
  rw [createUid, perform_guardedCall]
  unfold MongoDb.created MongoDb.insertStream
  by_cases hnew : db.eventstreams.find uid = none
  · simp only [hnew, and_true]
    cases create <;> rfl
  · simp only [hnew, and_false]
    cases create <;> rfl

/-- `getUid` changes the stream documents only, and its id is not empty
exactly when it identifies the type. -/
theorem perform_getUid (lookUp create : Outcome) (choice : ℕ)
    (typeName uid : Str) (huid : uid ≠ []) (db : MongoDb) :
    ∃ result streams, (getUid lookUp create choice typeName uid).perform db =
        (result, { db with eventstreams := streams }) ∧
      (result = none ↔ db.UidEscapes lookUp create choice typeName) ∧
      (∀ id, result = some id →
        (id ≠ [] ↔ db.Identifies lookUp create choice typeName uid)) := by
  rw [getUid, perform_bind, lookUpUid, perform_guardedCall]
  unfold MongoDb.UidEscapes MongoDb.Identifies
  cases lookUp with
  | escaped => exact ⟨none, db.eventstreams, rfl, by simp, by simp⟩
  | refused => exact ⟨some [], db.eventstreams, rfl, by simp, by simp⟩
  | lost => exact ⟨some [], db.eventstreams, rfl, by simp, by simp⟩
  | succeeded =>
      cases hfound : db.findStream typeName choice with
      | some doc =>
          exact ⟨some doc.id, db.eventstreams, rfl, by simp, by simp⟩
      | none =>
          have hafter : ∃ streams,
              (if create.Applied then db.created uid typeName else db) =
                { db with eventstreams := streams } := by
            split_ifs
            · exact db.created_eq uid typeName
            · exact ⟨db.eventstreams, rfl⟩
          obtain ⟨streams, hstreams⟩ := hafter
          simp only [Option.map_none, perform_createUid, hstreams]
          refine ⟨_, streams, rfl, ?_, ?_⟩
          · split_ifs <;> simp [*]
          · intro id hid
            split_ifs at hid with hescaped hcreated
            · cases hid
              simp [huid, hcreated]
            · cases hid
              simp [hcreated]

end StoreCpp
