import StoreCpp.StreamLog
import Mathlib.Data.List.ReduceOption

/-!
# Publishing pipelines

A pipeline turns each object of a source into an event of one type, appends
the events to an event store and saves the store when the source completes.
Missing objects are skipped.  The stream of a type is named by the name-based
uuid of the type, and nobody looks at what `Save` returns.
-/

namespace StoreCpp

namespace Rx

open StepMachine

variable {α : Type*}

/-- What the pipelines call: the conversion of an object to JSON, and the
library's uuid of a name in the URL namespace. -/
structure Library (α : Type*) where
  toJson : α → Json
  uuidV3 : Str → Uuid

def Library.generateUuidV3 (library : Library α) (url : Str) : Str :=
  uuidOut (library.uuidV3 (Printf.cstr url))

/-- `make_shared` sets the fields of the new event to zero first. -/
def generateEvent [Inhabited α] (library : Library α) (streamType : Str)
    (e : Option α) : Option (Event α) :=
  e.map fun object => {
    seqId := 0
    id := []
    streamId := library.generateUuidV3 streamType
    type := streamType
    version := 0
    data := library.toJson object
    timestamp := 0
    model := default }

def onNextEvent (publisher : EventStore) : Option (Event α) → EventStore
  | some ev => publisher.append ev
  | none => publisher

def onAllEventsCompleted (texts : Texts) (attempt : SaveAttempt)
    (publisher : EventStore) (tables : Tables) : EventStore × Tables :=
  (save texts attempt publisher tables).2

structure Pipeline (α : Type*) where
  streamType : Str
  source : List (Option α)
  attempt : SaveAttempt

structure Publishing where
  publisher : EventStore
  tables : Tables

def Pipeline.append [Inhabited α] (library : Library α) (pipeline : Pipeline α)
    (publisher : EventStore) : EventStore :=
  (pipeline.source.map (generateEvent library pipeline.streamType)).foldl
    onNextEvent publisher

def Pipeline.perform [Inhabited α] (texts : Texts) (library : Library α)
    (pipeline : Pipeline α) (publishing : Publishing) : Publishing :=
  let result := onAllEventsCompleted texts pipeline.attempt
    (pipeline.append library publishing.publisher) publishing.tables
  ⟨result.1, result.2⟩

/-- The same with the calls that the statements mean. -/
def Pipeline.performCalls [Inhabited α] (library : Library α)
    (pipeline : Pipeline α) (publishing : Publishing) : Publishing :=
  let result := (saveCalls pipeline.attempt
    (pipeline.append library publishing.publisher) publishing.tables).2
  ⟨result.1, result.2⟩

/-- One pipeline after another on the same event store. -/
def pipelines [Inhabited α] (texts : Texts) (library : Library α) :
    Machine Publishing (Pipeline α) where
  init publishing :=
    publishing.publisher.pending = [] ∧ publishing.tables.Ordered
  step publishing pipeline := some (pipeline.perform texts library publishing)

def pipelineCalls [Inhabited α] (library : Library α) :
    Machine Publishing (Pipeline α) where
  init publishing :=
    publishing.publisher.pending = [] ∧ publishing.tables.Ordered
  step publishing pipeline := some (pipeline.performCalls library publishing)

/-- The entries that the pipelines emit for a stream. -/
def emitted (library : Library α) (done : List (Pipeline α))
    (stream : Uuid) : List (Str × Json) :=
  (done.filter fun pipeline =>
      library.uuidV3 (Printf.cstr pipeline.streamType) = stream).flatMap
    fun pipeline => pipeline.source.reduceOption.map fun object =>
      (pipeline.streamType, library.toJson object)

/-- The texts of the pipeline's `Save` are read as they were meant. -/
def ReadPipeline [Inhabited α] (texts : Texts) (library : Library α)
    (publishing : Publishing) (pipeline : Pipeline α) : Prop :=
  SaveReads texts pipeline.attempt
    (pipeline.append library publishing.publisher).dbSchema 0
    (pipeline.append library publishing.publisher).groups

instance [Inhabited α] (texts : Texts) (library : Library α)
    (publishing : Publishing) (pipeline : Pipeline α) :
    Decidable (ReadPipeline texts library publishing pipeline) :=
  inferInstanceAs (Decidable (SaveReads ..))

/-- No statement of the pipeline's `Save` fails after another has been
executed. -/
def CleanPipeline [Inhabited α] (library : Library α) (publishing : Publishing)
    (pipeline : Pipeline α) : Prop :=
  CleanSave pipeline.attempt publishing.tables
    (pipeline.append library publishing.publisher).groups

def StoredPipeline [Inhabited α] (library : Library α) (publishing : Publishing)
    (pipeline : Pipeline α) : Prop :=
  AllExecuted pipeline.attempt 0
    (pipeline.append library publishing.publisher).groups publishing.tables

/-! ## One pipeline -/

theorem foldl_onNextEvent (publisher : EventStore)
    (events : List (Option (Event α))) :
    (events.foldl onNextEvent publisher).pending =
      publisher.pending ++ events.reduceOption.map Event.toIEvent := by
  induction events generalizing publisher with
  | nil => simp
  | cons ev events ih =>
      rw [List.foldl_cons, ih]
      cases ev with
      | none => rfl
      | some ev => simp [onNextEvent, EventStore.append, EventStore.push]

theorem emitted_append (library : Library α) (done more : List (Pipeline α))
    (stream : Uuid) :
    emitted library (done ++ more) stream =
      emitted library done stream ++ emitted library more stream := by
  simp [emitted]

variable [Inhabited α]

theorem Pipeline.append_pending (library : Library α) (pipeline : Pipeline α)
    (publisher : EventStore) :
    (pipeline.append library publisher).pending = publisher.pending ++
      pipeline.source.reduceOption.map fun object => {
        seqId := 0
        id := []
        streamId := library.generateUuidV3 pipeline.streamType
        type := pipeline.streamType
        version := 0
        data := library.toJson object
        timestamp := 0 } := by
  unfold Pipeline.append generateEvent
  rw [foldl_onNextEvent, List.reduceOption_map, List.map_map]
  rfl

theorem Pipeline.append_canonical {library : Library α}
    (pipeline : Pipeline α) {publisher : EventStore}
    (hpublisher : publisher.Canonical) :
    (pipeline.append library publisher).Canonical := by
  intro event hevent
  rw [Pipeline.append_pending, List.mem_append, List.mem_map] at hevent
  rcases hevent with hevent | ⟨object, _, hevent⟩
  · exact hpublisher event hevent
  · refine ⟨library.uuidV3 (Printf.cstr pipeline.streamType), ?_⟩
    rw [← hevent]
    rfl

theorem Pipeline.append_pendingLog (library : Library α)
    (pipeline : Pipeline α) (publisher : EventStore) (stream : Uuid) :
    (pipeline.append library publisher).pendingLog stream =
      publisher.pendingLog stream ++ emitted library [pipeline] stream := by
  rw [EventStore.pendingLog, Pipeline.append_pending, List.filter_append,
    List.map_append, List.filter_map, List.map_map]
  unfold emitted EventStore.pendingLog
  by_cases hstream :
      library.uuidV3 (Printf.cstr pipeline.streamType) = stream
  · simp [hstream, Library.generateUuidV3, uuidIn_uuidOut, Function.comp_def,
      IEvent.payload]
  · simp [hstream, Library.generateUuidV3, uuidIn_uuidOut, Function.comp_def]

theorem Pipeline.performCalls_logs (library : Library α) (pipeline : Pipeline α)
    {publishing : Publishing}
    (hcanonical : publishing.publisher.Canonical) :
    let next := pipeline.performCalls library publishing
    (publishing.tables.Ordered → next.tables.Ordered) ∧
      next.publisher.Canonical ∧
      (CleanPipeline library publishing pipeline → ∀ stream,
        next.tables.log stream ++ next.publisher.pendingLog stream =
          publishing.tables.log stream ++
            publishing.publisher.pendingLog stream ++
            emitted library [pipeline] stream) ∧
      (StoredPipeline library publishing pipeline →
        next.publisher.pending = []) := by
  obtain ⟨hordered, hnext, hlogged, hcleared⟩ :=
    saveCalls_logs pipeline.attempt publishing.tables
      (@Pipeline.append_canonical α _ library pipeline _ hcanonical)
  refine ⟨hordered, hnext, fun hclean stream => ?_, hcleared⟩
  have hmoved := hlogged hclean stream
  rw [Pipeline.append_pendingLog, ← List.append_assoc] at hmoved
  exact hmoved

/-! ## Runs -/

theorem pipelines_ordered {library : Library α} {start final : Publishing}
    {done : List (Pipeline α)} (hordered : start.tables.Ordered)
    (hcanonical : start.publisher.Canonical)
    (hrun : (pipelineCalls library).run start done = some final) :
    final.tables.Ordered := by
  have hinv : final.tables.Ordered ∧ final.publisher.Canonical := by
    refine @Machine.run_invariant _ _ (pipelineCalls library)
      (fun publishing => publishing.tables.Ordered ∧
        publishing.publisher.Canonical)
      ?_ start final done hrun ⟨hordered, hcanonical⟩
    rintro publishing pipeline next ⟨hbefore, hnames⟩ hnext
    cases hnext
    obtain ⟨hafter, hkept, _, _⟩ := pipeline.performCalls_logs library hnames
    exact ⟨hafter hbefore, hkept⟩
  exact hinv.1

theorem pipelines_logged {library : Library α} {start final : Publishing}
    {done : List (Pipeline α)} (hcanonical : start.publisher.Canonical)
    (hclean : (pipelineCalls library).Guarded (CleanPipeline library) start
      done)
    (hrun : (pipelineCalls library).run start done = some final)
    (stream : Uuid) :
    final.tables.log stream ++ final.publisher.pendingLog stream =
      start.tables.log stream ++ start.publisher.pendingLog stream ++
        emitted library done stream := by
  induction done generalizing start with
  | nil =>
      have heq : start = final := by simpa using hrun
      rw [heq]
      exact (List.append_nil _).symm
  | cons pipeline done ih =>
      obtain ⟨next, hnext, hrest⟩ := Machine.run_cons_eq_some.mp hrun
      obtain ⟨_, hkept, hlogged, _⟩ :=
        pipeline.performCalls_logs library hcanonical
      cases hnext
      rw [ih hkept (hclean.2 _ rfl) hrest, hlogged hclean.1 stream,
        List.append_assoc, ← emitted_append]
      rfl

theorem pipelines_cleared {library : Library α} {start final : Publishing}
    {done : List (Pipeline α)} (hcanonical : start.publisher.Canonical)
    (hpending : start.publisher.pending = [])
    (hstored : (pipelineCalls library).Guarded (StoredPipeline library) start
      done)
    (hrun : (pipelineCalls library).run start done = some final) :
    final.publisher.pending = [] := by
  have hinv : final.publisher.Canonical ∧ final.publisher.pending = [] := by
    refine @Machine.run_invariant_of_guarded _ _ (pipelineCalls library)
      (StoredPipeline library)
      (fun publishing => publishing.publisher.Canonical ∧
        publishing.publisher.pending = [])
      ?_ start final done hstored hrun ⟨hcanonical, hpending⟩
    rintro publishing pipeline next ⟨hnames, _⟩ hall hnext
    cases hnext
    obtain ⟨_, hkept, _, hcleared⟩ := pipeline.performCalls_logs library hnames
    exact ⟨hkept, hcleared hall⟩
  exact hinv.2

theorem pipelineCalls_run (library : Library α) (start : Publishing)
    (done : List (Pipeline α)) :
    (pipelineCalls library).run start done =
      some (done.foldl (fun publishing pipeline =>
        pipeline.performCalls library publishing) start) := by
  induction done generalizing start with
  | nil => rfl
  | cons pipeline done ih => exact ih (pipeline.performCalls library start)

theorem Pipeline.perform_eq {texts : Texts} {library : Library α}
    {pipeline : Pipeline α} {publishing : Publishing}
    (hread : ReadPipeline texts library publishing pipeline) :
    pipeline.perform texts library publishing =
      pipeline.performCalls library publishing := by
  simp only [Pipeline.perform, Pipeline.performCalls, onAllEventsCompleted]
  rw [save_eq hread]

def namesLibrary : Library ℕ where
  toJson n := .integer (Int64.ofNat n)
  uuidV3 name := BitVec.ofNat 128 name.length

def storingAttempt (firstUuid : ℕ) : SaveAttempt where
  outcome _ := .executed []
  now _ := 0
  generateUuid k i := BitVec.ofNat 128 (firstUuid + 10 * k + i)

def twoTypes : List (Pipeline ℕ) :=
  [⟨"ORDER".toList, [some 1, none, some 2], storingAttempt 100⟩,
    ⟨"PAYMENT".toList, [some 3], storingAttempt 200⟩]

def newPublishing : Publishing where
  publisher := {}
  tables := emptyTables

def twoTypesPublished : Publishing :=
  twoTypes.foldl (fun publishing pipeline =>
    pipeline.performCalls namesLibrary publishing) newPublishing

end Rx

end StoreCpp
