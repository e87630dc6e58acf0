import StoreCpp.MongoBaseClient
import StoreCpp.StepMachine

/-!
# Saving events in MongoDB

`SaveOne` identifies the stream of a type, takes the next value of the global
counter and of the counter of the type, inserts the event and replaces the
stream document.  Both laws of this file are about calls made one after the
other: the numbering of the events when the calls succeed, and what is left of
it when operations fail.
-/

namespace StoreCpp

open StepMachine

/-- The global counter is a document of the collection that holds the counter
of each type under the name of the type. -/
def allEvents : Str := "all_events".toList

inductive Operation where
  | lookUp
  | create
  | nextSequence
  | nextVersion
  | saveEvent
  | saveStream
  deriving DecidableEq

/-- A call of `SaveOne` with the values it generates. -/
structure SaveOneCall where
  streamType : Str
  streamObj : Json
  newUuid : Str
  newUuid_ne : newUuid ≠ []
  nextuid : Str
  now : Int64

/-- A call, and how each of its operations goes. -/
structure Attempt extends SaveOneCall where
  outcome : Operation → Outcome
  choice : ℕ

def saveOneEvent (outcome : Outcome) (globalseq : Int64)
    (nextuid streamId streamType : Str) (nextver : Int64) (streamObj : Json)
    (now : Int64) : MongoM ℕ :=
  insertOne outcome {
    seqId := globalseq, id := nextuid, streamId, type := streamType
    version := nextver, data := streamObj, timestamp := now }

def saveOneEventStream (outcome : Outcome) (streamId streamType : Str)
    (nextver now : Int64) (snapshot : Json) (snapshotver : Int64) : MongoM ℕ :=
  upsertOne outcome {
    id := streamId, type := streamType, version := nextver, timestamp := now
    snapshot, snapshotVersion := snapshotver } streamId

def saveOne (attempt : Attempt) : MongoM ℕ := do
  let streamId ← getUid (attempt.outcome .lookUp) (attempt.outcome .create)
    attempt.choice attempt.streamType attempt.newUuid
  let globalseq ← getNextSequenceValue (attempt.outcome .nextSequence) allEvents
  let nextver ← getNextSequenceValue (attempt.outcome .nextVersion)
    attempt.streamType
  let saved ← saveOneEvent (attempt.outcome .saveEvent) globalseq
    attempt.nextuid streamId attempt.streamType nextver attempt.streamObj
    attempt.now
  let replaced ← saveOneEventStream (attempt.outcome .saveStream) streamId
    attempt.streamType nextver attempt.now attempt.streamObj nextver
  return saved + replaced

/-! ## What one call does -/

namespace Attempt

variable (attempt : Attempt) (db : MongoDb)

/-- The event of the call reaches the collection. -/
def Stores : Prop :=
  ¬ db.UidEscapes (attempt.outcome .lookUp) (attempt.outcome .create)
    attempt.choice attempt.streamType ∧
  attempt.outcome .nextSequence ≠ .escaped ∧
  attempt.outcome .nextVersion ≠ .escaped ∧
  (attempt.outcome .saveEvent).Applied

def Identifies : Prop :=
  db.Identifies (attempt.outcome .lookUp) (attempt.outcome .create)
    attempt.choice attempt.streamType attempt.newUuid

/-- The value that the counter of the type has when it is updated. -/
def versionBefore : ℕ :=
  (db.counted (attempt.outcome .nextSequence) allEvents).eventsCounter
    attempt.streamType

def globalseq : Int64 :=
  sequenceValue (attempt.outcome .nextSequence) (db.eventsCounter allEvents)

def nextver : Int64 :=
  sequenceValue (attempt.outcome .nextVersion) (attempt.versionBefore db)

def event (streamId : Str) : IEvent where
  seqId := attempt.globalseq db
  id := attempt.nextuid
  streamId := streamId
  type := attempt.streamType
  version := attempt.nextver db
  data := attempt.streamObj
  timestamp := attempt.now

def counted : MongoDb :=
  (db.counted (attempt.outcome .nextSequence) allEvents).counted
    (attempt.outcome .nextVersion) attempt.streamType

end Attempt

theorem Attempt.le_counted (attempt : Attempt) (db : MongoDb) (name : Str) :
    db.eventsCounter name ≤ (attempt.counted db).eventsCounter name :=
  (le_counted_eventsCounter db _ _ name).trans
    (le_counted_eventsCounter _ _ _ name)

/-- The last operation replaces the stream document and adds at most one to
what the call returns. -/
theorem perform_saveOneEventStream {outcome : Outcome}
    {streamId streamType : Str} {nextver now snapshotver : Int64}
    {snapshot : Json} {saved : ℕ} {db next : MongoDb} {result : Option ℕ}
    (hsave : (saveOneEventStream outcome streamId streamType nextver now
      snapshot snapshotver >>= fun replaced =>
        pure (saved + replaced)).perform db = (result, next)) :
    next.events = db.events ∧ next.eventsCounter = db.eventsCounter ∧
      ∀ rc, result = some rc → rc ≤ saved + 1 := by
  rw [perform_bind, saveOneEventStream, perform_upsertOne] at hsave
  by_cases hescaped : outcome = .escaped
  · simp only [if_pos hescaped] at hsave
    cases hsave
    refine ⟨?_, ?_, fun rc hrc => by cases hrc⟩
    · split_ifs <;> rfl
    · split_ifs <;> rfl
  · simp only [if_neg hescaped, perform_pure] at hsave
    cases hsave
    refine ⟨?_, ?_, ?_⟩
    · split_ifs <;> rfl
    · split_ifs <;> rfl
    · intro rc hrc
      rw [← Option.some.inj hrc]
      split_ifs <;> omega

/-- A call that stores its event leaves it at the end of the collection. -/
theorem saveOne_of_stores {attempt : Attempt} {db next : MongoDb}
    {result : Option ℕ} (hstores : attempt.Stores db)
    (hsave : (saveOne attempt).perform db = (result, next)) :
    ∃ streamId, (streamId ≠ [] ↔ attempt.Identifies db) ∧
      next.events = db.events ++ [attempt.event db streamId] ∧
      next.eventsCounter = (attempt.counted db).eventsCounter := by
  obtain ⟨hidentified, hsequence, hversion, hevent⟩ := hstores
  obtain ⟨found, streams, hgetUid, hnone, hsome⟩ := perform_getUid
    (attempt.outcome .lookUp) (attempt.outcome .create) attempt.choice
    attempt.streamType attempt.newUuid attempt.newUuid_ne db
  cases found with
  | none => exact absurd (hnone.mp rfl) hidentified
  | some streamId =>
      have hinserted : attempt.outcome .saveEvent ≠ .escaped := by
        intro hescaped
        rw [hescaped] at hevent
        simp [Outcome.Applied] at hevent
      rw [saveOne, perform_bind, hgetUid] at hsave
      simp only [perform_bind, perform_getNextSequenceValue, if_neg hsequence,
        if_neg hversion, saveOneEvent, perform_insertOne, if_neg hinserted,
        if_pos hevent] at hsave
      obtain ⟨hevents, hcounter, _⟩ :=
        perform_saveOneEventStream ((perform_bind _ _ _).trans hsave)
      exact ⟨streamId, hsome streamId rfl, hevents, hcounter⟩

theorem saveOne_of_not_stores {attempt : Attempt} {db next : MongoDb}
    {result : Option ℕ} (hstores : ¬ attempt.Stores db)
    (hsave : (saveOne attempt).perform db = (result, next)) :
    next.events = db.events ∧
      (∀ name, db.eventsCounter name ≤ next.eventsCounter name) ∧
      result ≠ some 2 := by
  obtain ⟨found, streams, hgetUid, hnone, hsome⟩ := perform_getUid
    (attempt.outcome .lookUp) (attempt.outcome .create) attempt.choice
    attempt.streamType attempt.newUuid attempt.newUuid_ne db
  rw [saveOne, perform_bind, hgetUid] at hsave
  cases found with
  | none =>
      cases hsave
      exact ⟨rfl, fun name => le_refl _, by simp⟩
  | some streamId =>
      have hidentified : ¬ db.UidEscapes (attempt.outcome .lookUp)
          (attempt.outcome .create) attempt.choice attempt.streamType := by
        intro hescapes
        exact absurd (hnone.mpr hescapes) (by simp)
      simp only [perform_bind, perform_getNextSequenceValue] at hsave
      by_cases hsequence : attempt.outcome .nextSequence = .escaped
      · simp only [if_pos hsequence] at hsave
        cases hsave
        exact ⟨rfl, le_counted_eventsCounter db _ _, by simp⟩
      simp only [if_neg hsequence] at hsave
      have hcounted := attempt.le_counted db
      by_cases hversion : attempt.outcome .nextVersion = .escaped
      · simp only [if_pos hversion] at hsave
        cases hsave
        exact ⟨rfl, hcounted, by simp⟩
      simp only [if_neg hversion, saveOneEvent, perform_insertOne] at hsave
      have hevent : ¬ (attempt.outcome .saveEvent).Applied := fun happlied =>
        hstores ⟨hidentified, hsequence, hversion, happlied⟩
      have hfailed : attempt.outcome .saveEvent ≠ .succeeded := fun hsaved =>
        hevent (.inl hsaved)
      by_cases hescaped : attempt.outcome .saveEvent = .escaped
      · simp only [if_pos hescaped, if_neg hevent] at hsave
        cases hsave
        exact ⟨rfl, hcounted, by simp⟩
      simp only [if_neg hescaped, if_neg hevent, if_neg hfailed] at hsave
      obtain ⟨hevents, hcounter, hrc⟩ :=
        perform_saveOneEventStream ((perform_bind _ _ _).trans hsave)
      refine ⟨hevents, ?_, fun htwo => absurd (hrc 2 htwo) (by omega)⟩
      rw [hcounter]
      exact hcounted

/-! ## Calls with failing operations -/

/-- Calls one after the other, whatever becomes of each. -/
def saves : Machine MongoDb Attempt where
  init db := db = MongoDb.empty
  step db attempt := some ((saveOne attempt).perform db).2

structure EventsNumbered (events : List IEvent) : Prop where
  streamId : ∀ e ∈ events, e.streamId ≠ []
  seqId : ∀ e ∈ events, 1 ≤ e.seqId.toInt
  version : ∀ e ∈ events, 1 ≤ e.version.toInt
  seqIds : events.Pairwise fun e e' => e.seqId ≠ e'.seqId
  versions : events.Pairwise fun e e' =>
    e.type = e'.type → e.version ≠ e'.version

/-- If the event of the call is stored at all, then the stream was identified
and both counters were updated. -/
def Attempt.Numbers (attempt : Attempt) (db : MongoDb) : Prop :=
  attempt.Stores db → attempt.Identifies db ∧
    (attempt.outcome .nextSequence).Increments (db.eventsCounter allEvents) ∧
    (attempt.outcome .nextVersion).Increments (attempt.versionBefore db)

/-- No event is ahead of the counters. -/
def MongoDb.Bounded (db : MongoDb) : Prop :=
  ∀ e ∈ db.events, e.seqId.toInt ≤ db.eventsCounter allEvents ∧
    e.version.toInt ≤ db.eventsCounter e.type

theorem MongoDb.Bounded.mono {db next : MongoDb} (hbounded : db.Bounded)
    (hevents : next.events = db.events)
    (hcounters : ∀ name, db.eventsCounter name ≤ next.eventsCounter name) :
    next.Bounded := by
  intro e he
  rw [hevents] at he
  obtain ⟨hseqId, hversion⟩ := hbounded e he
  have hall := hcounters allEvents
  have htype := hcounters e.type
  exact ⟨by omega, by omega⟩

theorem Attempt.globalseq_le_counted (attempt : Attempt) (db : MongoDb) :
    (attempt.globalseq db).toInt ≤
      (attempt.counted db).eventsCounter allEvents := by
  have hvalue := sequenceValue_le_counted db (attempt.outcome .nextSequence)
    allEvents
  have hlater := le_counted_eventsCounter
    (db.counted (attempt.outcome .nextSequence) allEvents)
    (attempt.outcome .nextVersion) attempt.streamType allEvents
  unfold Attempt.globalseq Attempt.counted
  omega

theorem Attempt.nextver_le_counted (attempt : Attempt) (db : MongoDb) :
    (attempt.nextver db).toInt ≤
      (attempt.counted db).eventsCounter attempt.streamType :=
  sequenceValue_le_counted
    (db.counted (attempt.outcome .nextSequence) allEvents)
    (attempt.outcome .nextVersion) attempt.streamType

theorem bounded_saveOne {attempt : Attempt} {db next : MongoDb}
    {result : Option ℕ} (hbounded : db.Bounded)
    (hsave : (saveOne attempt).perform db = (result, next)) :
    next.Bounded := by
  by_cases hstores : attempt.Stores db
  · obtain ⟨streamId, _, hevents, hcounters⟩ := saveOne_of_stores hstores hsave
    intro e he
    rw [hevents] at he
    rw [hcounters]
    rcases List.mem_append.mp he with hold | hnew
    · obtain ⟨hseqId, hversion⟩ := hbounded e hold
      have hall := attempt.le_counted db allEvents
      have htype := attempt.le_counted db e.type
      exact ⟨by omega, by omega⟩
    · rw [List.mem_singleton.mp hnew]
      exact ⟨attempt.globalseq_le_counted db, attempt.nextver_le_counted db⟩
  · obtain ⟨hevents, hcounters, _⟩ := saveOne_of_not_stores hstores hsave
    exact hbounded.mono hevents hcounters

theorem EventsNumbered.of_append {events more : List IEvent}
    (hnumbered : EventsNumbered (events ++ more)) : EventsNumbered events where
  streamId := fun e he => hnumbered.streamId e (List.mem_append_left _ he)
  seqId := fun e he => hnumbered.seqId e (List.mem_append_left _ he)
  version := fun e he => hnumbered.version e (List.mem_append_left _ he)
  seqIds := (List.pairwise_append.mp hnumbered.seqIds).1
  versions := (List.pairwise_append.mp hnumbered.versions).1

/-- A fresh event keeps the numbering exactly when its own numbers count. -/
theorem eventsNumbered_concat_iff {events : List IEvent} {event : IEvent}
    (hnumbered : EventsNumbered events)
    (hseqIds : 1 ≤ event.seqId.toInt → ∀ e ∈ events, e.seqId ≠ event.seqId)
    (hversions : 1 ≤ event.version.toInt →
      ∀ e ∈ events, e.type = event.type → e.version ≠ event.version) :
    EventsNumbered (events ++ [event]) ↔
      event.streamId ≠ [] ∧ 1 ≤ event.seqId.toInt ∧
        1 ≤ event.version.toInt := by
  constructor
  · intro hall
    have hmem : event ∈ events ++ [event] := by simp
    exact ⟨hall.streamId event hmem, hall.seqId event hmem,
      hall.version event hmem⟩
  · rintro ⟨hstreamId, hseqId, hversion⟩
    refine ⟨?_, ?_, ?_, ?_, ?_⟩
    · simpa [or_imp, forall_and] using ⟨hnumbered.streamId, hstreamId⟩
    · simpa [or_imp, forall_and] using ⟨hnumbered.seqId, hseqId⟩
    · simpa [or_imp, forall_and] using ⟨hnumbered.version, hversion⟩
    · rw [List.pairwise_append]
      exact ⟨hnumbered.seqIds, by simp, by simpa using hseqIds hseqId⟩
    · rw [List.pairwise_append]
      exact ⟨hnumbered.versions, by simp, by simpa using hversions hversion⟩

theorem saveOne_events {attempt : Attempt} {db next : MongoDb}
    {result : Option ℕ} (hsave : (saveOne attempt).perform db = (result, next)) :
    ∃ more, next.events = db.events ++ more := by
  by_cases hstores : attempt.Stores db
  · obtain ⟨streamId, _, hevents, _⟩ := saveOne_of_stores hstores hsave
    exact ⟨_, hevents⟩
  · obtain ⟨hevents, _⟩ := saveOne_of_not_stores hstores hsave
    exact ⟨[], by simpa using hevents⟩

theorem Attempt.seqId_ne {attempt : Attempt} {db : MongoDb}
    (hbounded : db.Bounded) (hseqId : 1 ≤ (attempt.globalseq db).toInt) :
    ∀ e ∈ db.events, e.seqId ≠ attempt.globalseq db := by
  intro e he heq
  have hvalue := toInt_sequenceValue (one_le_sequenceValue_iff.mp hseqId)
  obtain ⟨hle, _⟩ := hbounded e he
  rw [heq, Attempt.globalseq, hvalue] at hle
  omega

theorem Attempt.version_ne {attempt : Attempt} {db : MongoDb}
    (hbounded : db.Bounded) (hversion : 1 ≤ (attempt.nextver db).toInt) :
    ∀ e ∈ db.events, e.type = attempt.streamType →
      e.version ≠ attempt.nextver db := by
  intro e he htype heq
  have hvalue := toInt_sequenceValue (one_le_sequenceValue_iff.mp hversion)
  have hbefore := le_counted_eventsCounter db (attempt.outcome .nextSequence)
    allEvents attempt.streamType
  obtain ⟨_, hle⟩ := hbounded e he
  rw [heq, htype, Attempt.nextver, hvalue, Attempt.versionBefore] at hle
  omega

theorem eventsNumbered_saveOne_iff {attempt : Attempt} {db next : MongoDb}
    {result : Option ℕ} (hbounded : db.Bounded)
    (hnumbered : EventsNumbered db.events)
    (hsave : (saveOne attempt).perform db = (result, next)) :
    EventsNumbered next.events ↔ attempt.Numbers db := by
  by_cases hstores : attempt.Stores db
  · obtain ⟨streamId, hidentifies, hevents, _⟩ :=
      saveOne_of_stores hstores hsave
    have hconcat := @eventsNumbered_concat_iff db.events
      (attempt.event db streamId) hnumbered (Attempt.seqId_ne hbounded)
      (Attempt.version_ne hbounded)
    rw [hevents, hconcat, Attempt.Numbers, ← hidentifies,
      ← one_le_sequenceValue_iff, ← one_le_sequenceValue_iff]
    exact ⟨fun h _ => h, fun h => h hstores⟩
  · obtain ⟨hevents, _⟩ := saveOne_of_not_stores hstores hsave
    rw [hevents]
    exact ⟨fun _ h => absurd h hstores, fun _ => hnumbered⟩

theorem bounded_empty : MongoDb.empty.Bounded := by
  intro e he
  exact absurd he List.not_mem_nil

theorem eventsNumbered_empty : EventsNumbered MongoDb.empty.events where
  streamId := fun _ he => absurd he List.not_mem_nil
  seqId := fun _ he => absurd he List.not_mem_nil
  version := fun _ he => absurd he List.not_mem_nil
  seqIds := List.Pairwise.nil
  versions := List.Pairwise.nil

/-- After any calls, whatever failed in them, the events are numbered exactly
when each call that stored its event had identified the stream and updated
both counters. -/
theorem saves_numbered_iff {attempts : List Attempt} {final : MongoDb}
    (hrun : saves.run MongoDb.empty attempts = some final) :
    EventsNumbered final.events ↔
      saves.Guarded (fun db attempt => attempt.Numbers db) MongoDb.empty
        attempts := by
  have hstep : ∀ db attempt next, saves.step db attempt = some next →
      ∃ result, (saveOne attempt).perform db = (result, next) := by
    intro db attempt next hnext
    cases hnext
    exact ⟨_, rfl⟩
  have hback : ∀ db attempt next, saves.step db attempt = some next →
      EventsNumbered next.events → EventsNumbered db.events := by
    intro db attempt next hnext hnumbered
    obtain ⟨result, hsave⟩ := hstep db attempt next hnext
    obtain ⟨more, hmore⟩ := saveOne_events hsave
    rw [hmore] at hnumbered
    exact hnumbered.of_append
  have hiff : ∀ db attempt next, db.Bounded → EventsNumbered db.events →
      saves.step db attempt = some next →
        (EventsNumbered next.events ↔ attempt.Numbers db) := by
    intro db attempt next hbounded hnumbered hnext
    obtain ⟨result, hsave⟩ := hstep db attempt next hnext
    exact eventsNumbered_saveOne_iff hbounded hnumbered hsave
  have hinv : ∀ db attempt next, db.Bounded → attempt.Numbers db →
      saves.step db attempt = some next → next.Bounded := by
    intro db attempt next hbounded _ hnext
    obtain ⟨result, hsave⟩ := hstep db attempt next hnext
    exact bounded_saveOne hbounded hsave
  exact @Machine.good_iff_guarded _ _ saves
    (fun db attempt => attempt.Numbers db) MongoDb.Bounded
    (fun db => EventsNumbered db.events) hback hiff hinv MongoDb.empty final
    attempts hrun bounded_empty eventsNumbered_empty

/-- The first event of a type, with one operation that may fail. -/
def firstSave (failing : Operation) (outcome : Outcome) : Attempt where
  streamType := "DROID".toList
  streamObj := .null
  newUuid := "06606420-0bc4-4661-8f4a-9a04ef7caea1".toList
  newUuid_ne := by decide
  nextuid := "0f0d26e6-2a5e-4ac0-94c5-3d8b9e9a6c11".toList
  now := 1614043464973
  outcome := fun operation => if operation = failing then outcome else .succeeded
  choice := 0

theorem firstSave_numbered :
    ∃ final, saves.run MongoDb.empty [firstSave .saveStream .refused] =
      some final ∧ EventsNumbered final.events := by
  have hguard : saves.Guarded (fun db attempt => attempt.Numbers db)
      MongoDb.empty [firstSave .saveStream .refused] := by
    refine ⟨fun _ => ⟨⟨rfl, ?_, fun _ => ⟨rfl, rfl⟩⟩, ?_, ?_⟩,
      fun _ _ => trivial⟩
    · intro doc hdoc
      cases hdoc
    · decide +kernel
    · decide +kernel
  exact ⟨_, rfl, (@saves_numbered_iff [firstSave .saveStream .refused] _
    rfl).mpr hguard⟩

/-- A failed lookup leaves the event without a stream id. -/
theorem saves_numbered_fails :
    ¬ ∀ attempts final, saves.run MongoDb.empty attempts = some final →
      EventsNumbered final.events := by
  intro hall
  have hnumbered := hall [firstSave .lookUp .refused] _ rfl
  exact hnumbered.streamId _ (List.mem_singleton.mpr rfl) rfl

/-! ## Successful calls -/

/-- Calls one after the other that report both of their writes. -/
def successfulSaves : Machine MongoDb Attempt where
  init db := db = MongoDb.empty
  step db attempt :=
    match (saveOne attempt).perform db with
    | (some 2, next) => some next
    | _ => none

def eventsOf (type : Str) (events : List IEvent) : List IEvent :=
  events.filter fun event => event.type = type

/-- The numbers count the events, overall and for each type, from one. -/
structure SequenceLaw (events : List IEvent) : Prop where
  seqId : ∀ (k : ℕ) e, events[k]? = some e → e.seqId.toInt = k + 1
  version : ∀ type (i : ℕ) e, (eventsOf type events)[i]? = some e →
    e.version.toInt = i + 1

/-- The call is not for the type that shares the document of the global
counter, and both counters are updated. -/
def Attempt.Counts (attempt : Attempt) (db : MongoDb) : Prop :=
  attempt.streamType ≠ allEvents ∧
    (attempt.outcome .nextSequence).Increments (db.eventsCounter allEvents) ∧
    (attempt.outcome .nextVersion).Increments
      (db.eventsCounter attempt.streamType)

instance (attempt : Attempt) (db : MongoDb) : Decidable (attempt.Counts db) :=
  inferInstanceAs (Decidable (_ ∧ _ ∧ _))

/-- The counters hold the numbers of events. -/
structure MongoDb.Tallied (db : MongoDb) : Prop where
  all : db.eventsCounter allEvents = db.events.length
  none : eventsOf allEvents db.events = []
  types : ∀ type, type ≠ allEvents →
    db.eventsCounter type = (eventsOf type db.events).length

theorem successfulSaves_step {db next : MongoDb} {attempt : Attempt}
    (hstep : successfulSaves.step db attempt = some next) :
    ∃ streamId, next.events = db.events ++ [attempt.event db streamId] ∧
      next.eventsCounter = (attempt.counted db).eventsCounter := by
  simp only [successfulSaves] at hstep
  split at hstep
  · rename_i result after hsave
    cases hstep
    by_cases hstores : attempt.Stores db
    · obtain ⟨streamId, _, hevents, hcounters⟩ :=
        saveOne_of_stores hstores hsave
      exact ⟨streamId, hevents, hcounters⟩
    · obtain ⟨_, _, hfailed⟩ := saveOne_of_not_stores hstores hsave
      exact absurd rfl hfailed
  · cases hstep

theorem forall_getElem?_concat_iff {α : Type} {P : ℕ → α → Prop}
    {rows : List α} {row : α} :
    (∀ k other, (rows ++ [row])[k]? = some other → P k other) ↔
      (∀ k other, rows[k]? = some other → P k other) ∧ P rows.length row := by
  constructor
  · intro hall
    refine ⟨fun k other hother => ?_, hall _ _ (by simp)⟩
    obtain ⟨hk, _⟩ := List.getElem?_eq_some_iff.mp hother
    exact hall k other (by rw [List.getElem?_append_left hk, hother])
  · rintro ⟨hrows, hrow⟩ k other hother
    by_cases hk : k < rows.length
    · rw [List.getElem?_append_left hk] at hother
      exact hrows k other hother
    · rw [List.getElem?_append_right (by omega),
        List.getElem?_singleton] at hother
      split_ifs at hother with hzero
      cases hother
      have heq : k = rows.length := by omega
      exact heq ▸ hrow

theorem eventsOf_concat (type : Str) (events : List IEvent) (event : IEvent) :
    eventsOf type (events ++ [event]) =
      if event.type = type then eventsOf type events ++ [event]
      else eventsOf type events := by
  unfold eventsOf
  rw [List.filter_append, List.filter_singleton]
  split_ifs with htype
  · simp [htype]
  · simp [htype]

theorem sequenceLaw_concat_iff {events : List IEvent} {event : IEvent} :
    SequenceLaw (events ++ [event]) ↔ SequenceLaw events ∧
      event.seqId.toInt = events.length + 1 ∧
      event.version.toInt = (eventsOf event.type events).length + 1 := by
  constructor
  · intro hlaw
    obtain ⟨hseqIds, hseqId⟩ := forall_getElem?_concat_iff.mp hlaw.seqId
    have hown := hlaw.version event.type
    rw [eventsOf_concat, if_pos rfl] at hown
    refine ⟨⟨hseqIds, ?_⟩, hseqId, (forall_getElem?_concat_iff.mp hown).2⟩
    intro type
    have hversions := hlaw.version type
    rw [eventsOf_concat] at hversions
    split_ifs at hversions
    · exact (forall_getElem?_concat_iff.mp hversions).1
    · exact hversions
  · rintro ⟨hlaw, hseqId, hversion⟩
    refine ⟨forall_getElem?_concat_iff.mpr ⟨hlaw.seqId, hseqId⟩, ?_⟩
    intro type
    rw [eventsOf_concat]
    split_ifs with htype
    · subst htype
      exact forall_getElem?_concat_iff.mpr ⟨hlaw.version _, hversion⟩
    · exact hlaw.version type

theorem sequenceValue_eq_iff {outcome : Outcome} {value : ℕ} :
    (sequenceValue outcome value).toInt = value + 1 ↔
      outcome.Increments value := by
  constructor
  · intro heq
    exact one_le_sequenceValue_iff.mp (by omega)
  · exact toInt_sequenceValue

theorem Attempt.versionBefore_of_ne {attempt : Attempt} (db : MongoDb)
    (htype : attempt.streamType ≠ allEvents) :
    attempt.versionBefore db = db.eventsCounter attempt.streamType := by
  unfold Attempt.versionBefore
  rw [counted_eventsCounter, if_neg htype]

theorem sequenceLaw_save_iff {attempt : Attempt} {db : MongoDb}
    (htallied : db.Tallied) (hlaw : SequenceLaw db.events) (streamId : Str) :
    SequenceLaw (db.events ++ [attempt.event db streamId]) ↔
      attempt.Counts db := by
  have hseqId : (attempt.globalseq db).toInt = db.events.length + 1 ↔
      (attempt.outcome .nextSequence).Increments
        (db.eventsCounter allEvents) := by
    rw [Attempt.globalseq, htallied.all, sequenceValue_eq_iff]
  rw [sequenceLaw_concat_iff]
  change _ ∧ (attempt.globalseq db).toInt = _ ∧ (attempt.nextver db).toInt =
    (eventsOf attempt.streamType db.events).length + 1 ↔ _
  rw [hseqId, Attempt.Counts]
  by_cases htype : attempt.streamType = allEvents
  · constructor
    · rintro ⟨_, hincrements, hversion⟩
      have hvalue : 1 ≤ (attempt.nextver db).toInt := by omega
      have hnext := toInt_sequenceValue (one_le_sequenceValue_iff.mp hvalue)
      rw [htype, htallied.none] at hversion
      rw [Attempt.nextver, hnext, Attempt.versionBefore, htype,
        counted_eventsCounter, if_pos rfl,
        counterValue_of_increments hincrements] at hversion
      simp only [List.length_nil] at hversion
      omega
    · rintro ⟨hne, _⟩
      exact absurd htype hne
  · rw [Attempt.nextver, Attempt.versionBefore_of_ne db htype,
      ← htallied.types _ htype, sequenceValue_eq_iff]
    exact ⟨fun h => ⟨htype, h.2⟩, fun h => ⟨hlaw, h.2⟩⟩

theorem tallied_save {attempt : Attempt} {db next : MongoDb} {streamId : Str}
    (htallied : db.Tallied) (hcounts : attempt.Counts db)
    (hevents : next.events = db.events ++ [attempt.event db streamId])
    (hcounters : next.eventsCounter = (attempt.counted db).eventsCounter) :
    next.Tallied := by
  obtain ⟨htype, hsequence, hversion⟩ := hcounts
  have hafter : ∀ name, next.eventsCounter name =
      if name = attempt.streamType then
        db.eventsCounter attempt.streamType + 1
      else if name = allEvents then db.eventsCounter allEvents + 1
      else db.eventsCounter name := by
    intro name
    rw [hcounters, Attempt.counted, counted_eventsCounter,
      counted_eventsCounter, counted_eventsCounter, if_neg htype,
      counterValue_of_increments hsequence,
      counterValue_of_increments hversion]
  have hothers : ∀ type, eventsOf type next.events =
      if attempt.streamType = type then
        eventsOf type db.events ++ [attempt.event db streamId]
      else eventsOf type db.events := by
    intro type
    rw [hevents, eventsOf_concat]
    rfl
  refine ⟨?_, ?_, ?_⟩
  · rw [hafter, if_neg htype.symm, if_pos rfl, htallied.all, hevents]
    simp
  · rw [hothers, if_neg htype]
    exact htallied.none
  · intro type hne
    rw [hafter, hothers]
    by_cases hown : type = attempt.streamType
    · subst hown
      rw [if_pos rfl, if_pos rfl, htallied.types _ hne]
      simp
    · rw [if_neg hown, if_neg hne, if_neg (Ne.symm hown)]
      exact htallied.types type hne

theorem SequenceLaw.of_append {events more : List IEvent}
    (hlaw : SequenceLaw (events ++ more)) : SequenceLaw events := by
  induction more using List.reverseRecOn with
  | nil => simpa using hlaw
  | append_singleton more event ih =>
      rw [← List.append_assoc] at hlaw
      exact ih (sequenceLaw_concat_iff.mp hlaw).1

theorem tallied_empty : MongoDb.empty.Tallied where
  all := rfl
  none := rfl
  types := fun _ _ => rfl

theorem sequenceLaw_empty : SequenceLaw MongoDb.empty.events where
  seqId := by simp [MongoDb.empty]
  version := by simp [MongoDb.empty, eventsOf]

/-- Calls that report success number the events from one, overall and for
each type, exactly when no call is for the type `all_events` and every call
updates both counters. -/
theorem successfulSaves_sequenceLaw_iff {attempts : List Attempt}
    {final : MongoDb}
    (hrun : successfulSaves.run MongoDb.empty attempts = some final) :
    SequenceLaw final.events ↔
      successfulSaves.Guarded (fun db attempt => attempt.Counts db)
        MongoDb.empty attempts := by
  have hback : ∀ db attempt next,
      successfulSaves.step db attempt = some next →
        SequenceLaw next.events → SequenceLaw db.events := by
    intro db attempt next hnext hlaw
    obtain ⟨streamId, hevents, _⟩ := successfulSaves_step hnext
    rw [hevents] at hlaw
    exact hlaw.of_append
  have hiff : ∀ db attempt next, db.Tallied → SequenceLaw db.events →
      successfulSaves.step db attempt = some next →
        (SequenceLaw next.events ↔ attempt.Counts db) := by
    intro db attempt next htallied hlaw hnext
    obtain ⟨streamId, hevents, _⟩ := successfulSaves_step hnext
    rw [hevents]
    exact sequenceLaw_save_iff htallied hlaw streamId
  have hinv : ∀ db attempt next, db.Tallied → attempt.Counts db →
      successfulSaves.step db attempt = some next → next.Tallied := by
    intro db attempt next htallied hcounts hnext
    obtain ⟨streamId, hevents, hcounters⟩ := successfulSaves_step hnext
    exact tallied_save htallied hcounts hevents hcounters
  exact @Machine.good_iff_guarded _ _ successfulSaves
    (fun db attempt => attempt.Counts db) MongoDb.Tallied
    (fun db => SequenceLaw db.events) hback hiff hinv MongoDb.empty final
    attempts hrun tallied_empty sequenceLaw_empty

/-- A save of an event of the given type in which nothing fails. -/
def plainSave (streamType : Str) : Attempt :=
  { firstSave .lookUp .succeeded with streamType }

theorem threeSaves_sequenceLaw :
    ∃ final, successfulSaves.run MongoDb.empty
      [plainSave "DROID".toList, plainSave "USER".toList,
        plainSave "DROID".toList] = some final ∧
      SequenceLaw final.events :=
  ⟨_, rfl, (@successfulSaves_sequenceLaw_iff
    [plainSave "DROID".toList, plainSave "USER".toList,
      plainSave "DROID".toList] _ rfl).mpr (by decide +kernel)⟩

/-- The first event of the type `all_events` gets version `2`. -/
theorem successfulSaves_sequenceLaw_fails :
    ¬ ∀ attempts final,
      successfulSaves.run MongoDb.empty attempts = some final →
        SequenceLaw final.events := by
  intro hall
  have hlaw := hall [plainSave allEvents] _ rfl
  have hversion := hlaw.version allEvents 0 _ rfl
  exact absurd hversion (by decide +kernel)

end StoreCpp
