import StoreCpp.ConcurrentSaveOne
import Mathlib.Data.List.MinMax

/-!
# The snapshots of concurrent calls

The version of a snapshot is taken from a counter before the snapshot is
written, and the write does not look at what it overwrites, so a later version
may be overwritten by an earlier one.  As long as the writes for a type come
in the order of the versions, its document ends with the latest event.
-/

namespace StoreCpp

open StepMachine KeyedTable

/-- The document of the type holds the version and the data of the latest of
its events. -/
def MongoDb.LatestSnapshot (db : MongoDb) (type : Str) : Prop :=
  ∀ doc ∈ db.eventstreams.rows, doc.type = type →
    ∀ e ∈ eventsOf type db.events,
      (∀ e' ∈ eventsOf type db.events, e'.version.toInt ≤ e.version.toInt) →
        ∃ stream, doc.content = .saved stream ∧ stream.version = e.version ∧
          stream.snapshotVersion = e.version ∧ stream.snapshot = e.data

/-- The type has one stream document, with a snapshot that is up to date. -/
structure MongoDb.InSync (db : MongoDb) (type uid : Str) : Prop where
  uid_ne : uid ≠ []
  stream : db.streamType uid = some type
  unique : ∀ id, db.streamType id = some type → id = uid
  latest : db.LatestSnapshot type

/-- The lookup and the two writes of the call succeed. -/
def RunningCall.Succeeds (running : RunningCall) (outcome : Outcome) : Prop :=
  match running.progress with
  | .identified _ | .sequenced _ _ => True
  | _ => outcome = .succeeded

def StreamContent.Before : StreamContent → Int64 → Prop
  | .created _, _ => True
  | .saved stream, nextver => stream.version.toInt < nextver.toInt

instance (running : RunningCall) (outcome : Outcome) :
    Decidable (running.Succeeds outcome) :=
  match hprogress : running.progress with
  | .identified _ | .sequenced _ _ =>
      isTrue (by simp [RunningCall.Succeeds, hprogress])
  | .begun | .missing | .versioned _ _ _ | .stored _ _ _ | .finished _
  | .thrown => decidable_of_iff (outcome = .succeeded)
      (by simp [RunningCall.Succeeds, hprogress])

instance (content : StreamContent) (nextver : Int64) :
    Decidable (content.Before nextver) :=
  match content with
  | .created _ => isTrue trivial
  | .saved stream =>
      inferInstanceAs (Decidable (stream.version.toInt < nextver.toInt))

/-- A replacement has a later version than the document it replaces. -/
def RunningCall.WritesLater (running : RunningCall) (db : MongoDb) : Prop :=
  match running.progress with
  | .stored streamId nextver _ =>
      ∀ doc ∈ db.eventstreams.rows, doc.id = streamId →
        doc.content.Before nextver
  | _ => True

instance (running : RunningCall) (db : MongoDb) :
    Decidable (running.WritesLater db) :=
  match hprogress : running.progress with
  | .stored streamId nextver _ =>
      decidable_of_iff (∀ doc ∈ db.eventstreams.rows, doc.id = streamId →
        doc.content.Before nextver)
        (by simp [RunningCall.WritesLater, hprogress])
  | .identified _ | .sequenced _ _ | .begun | .missing | .versioned _ _ _
  | .finished _ | .thrown =>
      isTrue (by simp [RunningCall.WritesLater, hprogress])

/-- The call goes on with the stream of the type exactly when it is a call for
the type. -/
structure RunningCall.Keeps (running : RunningCall) (type uid : Str) :
    Prop where
  missing : running.call.streamType = type → running.progress ≠ .missing
  streamId : ∀ id, running.progress.streamId = some id →
    (id = uid ↔ running.call.streamType = type)

/-- The call has stored an event of the type and is about to write it as the
snapshot. -/
def RunningCall.Writes (running : RunningCall) (type : Str) : Prop :=
  running.call.streamType = type ∧ ∃ streamId nextver saved,
    running.progress = .stored streamId nextver saved

/-- The stream covers an event that is earlier than its snapshot, or is it. -/
def IEventStream.Covers (stream : IEventStream) (e : IEvent) : Prop :=
  e.version.toInt < stream.version.toInt ∨
    e.version = stream.version ∧ e.data = stream.snapshot

namespace SaveOnes

variable {ι : Type} [DecidableEq ι]

def Successful (type : Str) (state : SaveOnes ι) (action : ι × SaveOneStep) :
    Prop :=
  match action.2, state.calls action.1 with
  | .advance outcome _, some running =>
      running.call.streamType = type → running.Succeeds outcome
  | _, _ => True

def InOrder (type : Str) (state : SaveOnes ι) (action : ι × SaveOneStep) :
    Prop :=
  match action.2, state.calls action.1 with
  | .advance _ _, some running =>
      running.call.streamType = type → running.WritesLater state.db
  | _, _ => True

/-- Every call for the type has returned. -/
def Finished (type : Str) (state : SaveOnes ι) : Prop :=
  ∀ i running, state.calls i = some running → running.call.streamType = type →
    ∃ rc, running.progress = .finished rc

/-- A call has stored the event and is about to write it as the snapshot. -/
def Pending (state : SaveOnes ι) (e : IEvent) : Prop :=
  ∃ i call streamId saved,
    state.calls i = some { call, progress := .stored streamId e.version saved } ∧
      call.streamType = e.type ∧ call.streamObj = e.data

/-- The stream is one of the events of its type, and every other one that is
not pending is earlier. -/
structure Snapshots (state : SaveOnes ι) (type : Str)
    (stream : IEventStream) : Prop where
  version : stream.snapshotVersion = stream.version
  event : ∃ e ∈ state.db.events, e.type = type ∧
    e.version = stream.version ∧ e.data = stream.snapshot
  covers : ∀ e ∈ state.db.events, e.type = type →
    state.Pending e ∨ stream.Covers e

structure InSync (state : SaveOnes ι) (type uid : Str) : Prop where
  uid_ne : uid ≠ []
  stream : state.db.streamType uid = some type
  unique : ∀ id, state.db.streamType id = some type → id = uid
  calls : ∀ i running, state.calls i = some running → running.Keeps type uid
  written : ∀ i call streamId nextver saved,
    state.calls i = some { call, progress := .stored streamId nextver saved } →
      call.streamType = type → ∃ e ∈ state.db.events, e.type = type ∧
        e.version = nextver ∧ e.data = call.streamObj
  snapshot : (∀ e ∈ state.db.events, e.type = type → state.Pending e) ∨
    ∃ stream, state.db.eventstreams.find uid =
        some { id := uid, content := .saved stream } ∧
      state.Snapshots type stream

end SaveOnes

theorem mem_eventsOf {type : Str} {events : List IEvent} {e : IEvent} :
    e ∈ eventsOf type events ↔ e ∈ events ∧ e.type = type := by
  unfold eventsOf
  rw [List.mem_filter, decide_eq_true_eq]

namespace SaveOnes

variable {ι : Type} {state : SaveOnes ι} {type uid : Str} {i : ι}

/-- Once nothing is pending, the snapshot is the latest event. -/
theorem InSync.latestSnapshot (hsync : state.InSync type uid)
    (hfinished : state.Finished type) : state.db.LatestSnapshot type := by
  have hidle : ∀ e, e.type = type → ¬ state.Pending e := by
    rintro e rfl ⟨i, call, streamId, saved, hcall, htype, _⟩
    obtain ⟨rc, hrc⟩ := hfinished i _ hcall htype
    cases hrc
  intro doc hdoc hdocType e he hlatest
  obtain ⟨hmem, htype⟩ := mem_eventsOf.mp he
  rcases hsync.snapshot with hpending | ⟨stream, hfind, hsnapshots⟩
  · exact absurd (hpending e hmem htype) (hidle e htype)
  · obtain ⟨last, hlast, hlastType, hlastVersion, _⟩ := hsnapshots.event
    have hid : doc.id = uid := hsync.unique doc.id
      (MongoDb.streamType_eq_some_iff.mpr ⟨doc, hdoc, rfl, hdocType⟩)
    have hdocFind : state.db.eventstreams.find uid = some doc :=
      (Table.find_eq_some_iff _ _ _).mpr ⟨hdoc, hid⟩
    obtain rfl := Option.some.inj (hfind.symm.trans hdocFind)
    have hle := hlatest last (mem_eventsOf.mpr ⟨hlast, hlastType⟩)
    rw [hlastVersion] at hle
    rcases hsnapshots.covers e hmem htype with hpending | hlt | ⟨heq, hdata⟩
    · exact absurd hpending (hidle e htype)
    · omega
    · exact ⟨stream, rfl, heq.symm, hsnapshots.version.trans heq.symm,
        hdata.symm⟩

theorem not_writes {call : SaveOneCall} {progress : Progress}
    (hcall : state.calls i = some { call, progress })
    (hprogress : ∀ streamId nextver saved,
      progress = .stored streamId nextver saved → call.streamType ≠ type) :
    ∀ old, state.calls i = some old → ¬ old.Writes type := by
  rintro old hold ⟨htype, streamId, nextver, saved, hstored⟩
  rw [hcall] at hold
  cases hold
  exact hprogress streamId nextver saved hstored htype

theorem InSync.find_ne_none (hsync : state.InSync type uid) :
    state.db.eventstreams.find uid ≠ none := by
  intro hnone
  have hstream := hsync.stream
  unfold MongoDb.streamType at hstream
  rw [hnone] at hstream
  cases hstream

/-- What the lookup of a call returns is the stream of the type exactly when
it is a call for the type. -/
theorem InSync.keeps_begun {call : SaveOneCall} {outcome : Outcome}
    {choice : ℕ} {progress : Progress} {db : MongoDb}
    (hsync : state.InSync type uid)
    (hsuccess : call.streamType = type → outcome = .succeeded)
    (hadvance : call.advance outcome choice .begun state.db =
      some (progress, db)) :
    ({ call, progress } : RunningCall).Keeps type uid := by
  rw [SaveOneCall.advance_begun] at hadvance
  cases hadvance
  cases outcome with
  | escaped => exact ⟨fun _ => by simp, fun id hid => by cases hid⟩
  | succeeded =>
      cases hfound : state.db.findStream call.streamType choice with
      | none =>
          obtain ⟨doc, hdoc, _, htype⟩ :=
            MongoDb.streamType_eq_some_iff.mp hsync.stream
          refine ⟨fun hown => ?_, fun id hid => by cases hid⟩
          rw [← hown] at htype
          exact absurd htype (MongoDb.findStream_eq_none hfound doc hdoc)
      | some doc =>
          obtain ⟨hdoc, htype⟩ := MongoDb.findStream_mem hfound
          have hstream : state.db.streamType doc.id = some call.streamType :=
            MongoDb.streamType_eq_some_iff.mpr ⟨doc, hdoc, rfl, htype⟩
          refine ⟨fun _ => by simp, fun id hid => ?_⟩
          cases hid
          constructor
          · intro hid
            rw [hid, hsync.stream] at hstream
            exact (Option.some.inj hstream).symm
          · intro hown
            rw [hown] at hstream
            exact hsync.unique doc.id hstream
  | refused =>
      refine ⟨fun _ => by simp, fun id hid => ?_⟩
      cases hid
      exact ⟨fun h => absurd h.symm hsync.uid_ne,
        fun hown => by cases hsuccess hown⟩
  | lost =>
      refine ⟨fun _ => by simp, fun id hid => ?_⟩
      cases hid
      exact ⟨fun h => absurd h.symm hsync.uid_ne,
        fun hown => by cases hsuccess hown⟩

end SaveOnes

theorem MongoDb.LatestSnapshot.covers {db : MongoDb} {type : Str}
    {doc : StreamDoc} {stream : IEventStream} {e : IEvent}
    (hlatest : db.LatestSnapshot type) (hdoc : doc ∈ db.eventstreams.rows)
    (htype : doc.type = type) (hcontent : doc.content = .saved stream)
    (hmax : ∀ e ∈ eventsOf type db.events,
      e.version.toInt ≤ stream.version.toInt)
    (he : e ∈ eventsOf type db.events) : stream.Covers e := by
  by_cases heq : e.version = stream.version
  · rw [← heq] at hmax
    obtain ⟨own, hown, _, _, hdata⟩ := hlatest doc hdoc htype e he hmax
    have hsame : StreamContent.saved own = .saved stream :=
      hown.symm.trans hcontent
    cases hsame
    exact .inr ⟨heq, hdata.symm⟩
  · have hle := hmax e he
    have hne : e.version.toInt ≠ stream.version.toInt :=
      fun h => heq (Int64.toInt_inj.mp h)
    left
    omega

theorem exists_latest {events : List IEvent} (hne : events ≠ []) :
    ∃ latest ∈ events, ∀ e ∈ events,
      e.version.toInt ≤ latest.version.toInt := by
  cases hargmax : events.argmax fun e => e.version.toInt with
  | none => exact absurd (List.argmax_eq_none.mp hargmax) hne
  | some latest =>
      refine ⟨latest, List.argmax_mem hargmax, fun e he => ?_⟩
      exact @List.le_of_mem_argmax IEvent ℤ _ (fun e => e.version.toInt) events
        e latest he hargmax

theorem MongoDb.InSync.idle {ι : Type} {db : MongoDb} {type uid : Str}
    (hsync : db.InSync type uid) :
    (SaveOnes.idle ι db).InSync type uid where
  uid_ne := hsync.uid_ne
  stream := hsync.stream
  unique := hsync.unique
  calls := by
    intro i running hrunning
    cases hrunning
  written := by
    intro i call streamId nextver saved hrunning
    cases hrunning
  snapshot := by
    by_cases hnone : eventsOf type db.events = []
    · left
      intro e he htype
      have hmem : e ∈ eventsOf type db.events := mem_eventsOf.mpr ⟨he, htype⟩
      rw [hnone] at hmem
      cases hmem
    · obtain ⟨latest, hmem, hmax⟩ := exists_latest hnone
      obtain ⟨doc, hdoc, hid, htype⟩ :=
        MongoDb.streamType_eq_some_iff.mp hsync.stream
      obtain ⟨stream, hcontent, hversion, hsnapshot, hdata⟩ :=
        hsync.latest doc hdoc htype latest hmem hmax
      have hfind : db.eventstreams.find uid =
          some { id := uid, content := .saved stream } := by
        rw [Table.find_eq_some_iff, ← hid, ← hcontent]
        exact ⟨hdoc, rfl⟩
      obtain ⟨hlatest, hlatestType⟩ := mem_eventsOf.mp hmem
      right
      refine ⟨stream, hfind, hsnapshot.trans hversion.symm,
        ⟨latest, hlatest, hlatestType, hversion.symm, hdata.symm⟩, ?_⟩
      intro e he hetype
      rw [← hversion] at hmax
      exact .inr (hsync.latest.covers hdoc htype hcontent hmax
        (mem_eventsOf.mpr ⟨he, hetype⟩))

theorem RunningCall.Keeps.next {call : SaveOneCall}
    {progress progress' : Progress} {type uid : Str}
    (hkeeps : RunningCall.Keeps { call, progress } type uid)
    (hmissing : progress' ≠ .missing)
    (hstreamId : ∀ id, progress'.streamId = some id →
      progress.streamId = some id) :
    RunningCall.Keeps { call, progress := progress' } type uid where
  missing := fun _ => hmissing
  streamId := fun id hid => hkeeps.streamId id (hstreamId id hid)

namespace SaveOnes

variable {ι : Type} [DecidableEq ι] {state : SaveOnes ι} {type uid : Str}
  {i : ι}

theorem Pending.set {running : RunningCall} {db : MongoDb} {e : IEvent}
    (hpending : state.Pending e)
    (hbefore : ∀ old, state.calls i = some old → ¬ old.Writes e.type) :
    (set { state with db } i running).Pending e := by
  obtain ⟨j, call, streamId, saved, hcall, htype, hdata⟩ := hpending
  refine ⟨j, call, streamId, saved, ?_, htype, hdata⟩
  have hne : j ≠ i := by
    rintro rfl
    exact hbefore _ hcall ⟨htype, streamId, e.version, saved, rfl⟩
  rw [calls_set, if_neg hne]
  exact hcall

theorem InSync.calls_set {running : RunningCall} {db : MongoDb}
    (hsync : state.InSync type uid) (hkeeps : running.Keeps type uid) :
    ∀ j other, (set { state with db } i running).calls j = some other →
      other.Keeps type uid := by
  intro j other hother
  rw [SaveOnes.calls_set] at hother
  split_ifs at hother
  · cases hother
    exact hkeeps
  · exact hsync.calls j other hother

/-- A step that leaves the stream and the events of the type alone, and whose
call neither was nor is about to write a snapshot of it. -/
theorem InSync.frame {running : RunningCall} {db : MongoDb}
    (hsync : state.InSync type uid)
    (hfind : db.eventstreams.find uid = state.db.eventstreams.find uid)
    (hunique : ∀ id, db.streamType id = some type → id = uid)
    (hevents : ∀ e, e.type = type → (e ∈ db.events ↔ e ∈ state.db.events))
    (hbefore : ∀ old, state.calls i = some old → ¬ old.Writes type)
    (hafter : ¬ running.Writes type) (hkeeps : running.Keeps type uid) :
    (set { state with db } i running).InSync type uid where
  uid_ne := hsync.uid_ne
  stream := by
    change (db.eventstreams.find uid).map StreamDoc.type = some type
    rw [hfind]
    exact hsync.stream
  unique := hunique
  calls := hsync.calls_set hkeeps
  written := by
    intro j call streamId nextver saved hcall htype
    rw [SaveOnes.calls_set] at hcall
    split_ifs at hcall
    · cases hcall
      exact absurd ⟨htype, streamId, nextver, saved, rfl⟩ hafter
    · obtain ⟨e, he, hetype, hrest⟩ :=
        hsync.written j call streamId nextver saved hcall htype
      exact ⟨e, (hevents e hetype).mpr he, hetype, hrest⟩
  snapshot := by
    have hpending : ∀ e, e.type = type → state.Pending e →
        (set { state with db } i running).Pending e := by
      rintro e rfl hpending
      exact hpending.set hbefore
    rcases hsync.snapshot with hall | ⟨stream, hstream, hsnapshots⟩
    · left
      intro e he htype
      exact hpending e htype (hall e ((hevents e htype).mp he) htype)
    · right
      refine ⟨stream, hfind.trans hstream, hsnapshots.version, ?_, ?_⟩
      · obtain ⟨last, hlast, htype, hrest⟩ := hsnapshots.event
        exact ⟨last, (hevents last htype).mpr hlast, htype, hrest⟩
      · intro e he htype
        rcases hsnapshots.covers e ((hevents e htype).mp he) htype with
          hold | hcovers
        · exact .inl (hpending e htype hold)
        · exact .inr hcovers

theorem InSync.lookUp {call : SaveOneCall} {outcome : Outcome} {choice : ℕ}
    {progress : Progress} {db : MongoDb} (hsync : state.InSync type uid)
    (hcall : state.calls i = some { call, progress := .begun })
    (hsuccess : call.streamType = type → outcome = .succeeded)
    (hadvance : call.advance outcome choice .begun state.db =
      some (progress, db)) :
    (set { state with db } i { call, progress }).InSync type uid := by
  have hkeeps := hsync.keeps_begun hsuccess hadvance
  rw [SaveOneCall.advance_begun] at hadvance
  cases hadvance
  apply hsync.frame
  · rfl
  · exact hsync.unique
  · exact fun _ _ => Iff.rfl
  · apply not_writes hcall
    intro _ _ _ hstored
    cases hstored
  · rintro ⟨_, streamId, nextver, saved, hstored⟩
    cases hfound : state.db.findStream call.streamType choice with
    | none =>
        rw [hfound] at hstored
        split_ifs at hstored
        cases hstored
    | some doc =>
        rw [hfound] at hstored
        split_ifs at hstored
        cases hstored
  · exact hkeeps

/-- A call that creates a stream is for another type. -/
theorem InSync.create {call : SaveOneCall} {outcome : Outcome} {choice : ℕ}
    {progress : Progress} {db : MongoDb} (hsync : state.InSync type uid)
    (hcall : state.calls i = some { call, progress := .missing })
    (hadvance : call.advance outcome choice .missing state.db =
      some (progress, db)) :
    (set { state with db } i { call, progress }).InSync type uid := by
  have hother : call.streamType ≠ type := fun htype =>
    (hsync.calls i _ hcall).missing htype rfl
  have hfresh : ¬ (uid = call.newUuid ∧
      state.db.eventstreams.find call.newUuid = none) := by
    rintro ⟨rfl, hnone⟩
    exact hsync.find_ne_none hnone
  obtain ⟨streams, hstreams⟩ :=
    state.db.created_eq call.newUuid call.streamType
  rw [SaveOneCall.advance_missing] at hadvance
  cases hadvance
  apply hsync.frame
  · split_ifs
    · rw [MongoDb.find_created, if_neg hfresh]
    · rfl
  · intro id hid
    split_ifs at hid
    · rw [MongoDb.streamType_created] at hid
      split_ifs at hid
      · exact absurd (Option.some.inj hid) hother
      · exact hsync.unique id hid
    · exact hsync.unique id hid
  · intro e _
    split_ifs
    · rw [hstreams]
    · exact Iff.rfl
  · exact not_writes hcall fun _ _ _ _ => hother
  · exact fun hwrites => hother hwrites.1
  · refine ⟨fun htype => absurd htype hother, fun id hid => ?_⟩
    refine ⟨fun heq => ?_, fun htype => absurd htype hother⟩
    subst heq
    split_ifs at hid with hescaped hcreated
    · cases hid
    · cases hid
      exact absurd ⟨rfl, hcreated.2⟩ hfresh
    · cases hid
      exact absurd rfl hsync.uid_ne

/-- A counter update leaves the streams and the events alone. -/
theorem InSync.count {call : SaveOneCall} {outcome : Outcome}
    {progress progress' : Progress} {sequenceName : Str}
    (hsync : state.InSync type uid)
    (hcall : state.calls i = some { call, progress })
    (hbefore : ∀ streamId nextver saved,
      progress ≠ .stored streamId nextver saved)
    (hafter : ∀ streamId nextver saved,
      progress' ≠ .stored streamId nextver saved)
    (hmissing : progress' ≠ .missing)
    (hstreamId : ∀ id, progress'.streamId = some id →
      progress.streamId = some id) :
    (set { state with db := state.db.counted outcome sequenceName } i
      { call, progress := progress' }).InSync type uid := by
  apply hsync.frame
  · rfl
  · exact hsync.unique
  · exact fun _ _ => Iff.rfl
  · apply not_writes hcall
    intro streamId nextver saved hstored
    exact absurd hstored (hbefore streamId nextver saved)
  · rintro ⟨_, streamId, nextver, saved, hstored⟩
    exact hafter streamId nextver saved hstored
  · exact (hsync.calls i _ hcall).next hmissing hstreamId

/-- The event of a call that has stored it is pending. -/
theorem Pending.of_stored {call : SaveOneCall} {streamId : Str}
    {globalseq nextver : Int64} {saved : ℕ} {db : MongoDb} :
    (SaveOnes.set { state with db } i
      { call, progress := .stored streamId nextver saved }).Pending
        (call.event streamId globalseq nextver) := by
  refine ⟨i, call, streamId, saved, ?_, rfl, rfl⟩
  rw [SaveOnes.calls_set, if_pos rfl]
  rfl

/-- A call that stores its event is about to write the snapshot. -/
theorem InSync.store {call : SaveOneCall} {streamId : Str}
    {globalseq nextver : Int64} {saved : ℕ} (hsync : state.InSync type uid)
    (hcall : state.calls i =
      some { call, progress := .versioned streamId globalseq nextver })
    (htype : call.streamType = type) :
    (set { state with
        db := state.db.insertEvent (call.event streamId globalseq nextver) }
      i { call, progress := .stored streamId nextver saved }).InSync
        type uid where
  uid_ne := hsync.uid_ne
  stream := hsync.stream
  unique := hsync.unique
  calls := hsync.calls_set
    ((hsync.calls i _ hcall).next (by simp) fun _ hid => hid)
  written := by
    intro j other otherId otherver otherSaved hother hotherType
    rw [SaveOnes.calls_set] at hother
    split_ifs at hother
    · cases hother
      exact ⟨call.event streamId globalseq nextver,
        List.mem_append_right _ (List.mem_singleton.mpr rfl), htype, rfl, rfl⟩
    · obtain ⟨e, he, hrest⟩ :=
        hsync.written j other otherId otherver otherSaved hother hotherType
      exact ⟨e, List.mem_append_left _ he, hrest⟩
  snapshot := by
    have hbefore : ∀ type old, state.calls i = some old →
        ¬ old.Writes type := by
      intro type
      apply not_writes hcall
      intro _ _ _ hstored
      cases hstored
    rcases hsync.snapshot with hall | ⟨stream, hstream, hsnapshots⟩
    · left
      intro e he hetype
      rcases List.mem_append.mp he with hmem | hmem
      · exact (hall e hmem hetype).set (hbefore e.type)
      · rw [List.mem_singleton.mp hmem]
        exact Pending.of_stored
    · right
      refine ⟨stream, hstream, hsnapshots.version, ?_, ?_⟩
      · obtain ⟨last, hlast, hrest⟩ := hsnapshots.event
        exact ⟨last, List.mem_append_left _ hlast, hrest⟩
      · intro e he hetype
        rcases List.mem_append.mp he with hmem | hmem
        · rcases hsnapshots.covers e hmem hetype with hpending | hcovers
          · exact .inl (hpending.set (hbefore e.type))
          · exact .inr hcovers
        · rw [List.mem_singleton.mp hmem]
          exact .inl Pending.of_stored

theorem InSync.storeOther {call : SaveOneCall} {outcome : Outcome}
    {progress : Progress} {streamId : Str} {globalseq nextver : Int64}
    (hsync : state.InSync type uid)
    (hcall : state.calls i =
      some { call, progress := .versioned streamId globalseq nextver })
    (htype : call.streamType ≠ type) (hmissing : progress ≠ .missing)
    (hstreamId : ∀ id, progress.streamId = some id → streamId = id) :
    (set { state with
        db := if outcome.Applied then
          state.db.insertEvent (call.event streamId globalseq nextver)
        else state.db } i { call, progress }).InSync type uid := by
  apply hsync.frame
  · split_ifs <;> rfl
  · intro id hid
    split_ifs at hid <;> exact hsync.unique id hid
  · intro e hetype
    have hne : e ≠ call.event streamId globalseq nextver := by
      rintro rfl
      exact htype hetype
    split_ifs
    · simp [MongoDb.insertEvent, hne]
    · exact Iff.rfl
  · exact not_writes hcall fun _ _ _ _ => htype
  · exact fun hwrites => htype hwrites.1
  · exact (hsync.calls i _ hcall).next hmissing fun id hid =>
      congrArg some (hstreamId id hid)

/-- A pending event stays pending, or the call that had it pending writes it
as the snapshot. -/
theorem Pending.replace {call : SaveOneCall} {streamId : Str}
    {nextver : Int64} {saved rc : ℕ} {db : MongoDb} {e : IEvent}
    (hpending : state.Pending e)
    (hcall : state.calls i =
      some { call, progress := .stored streamId nextver saved }) :
    (SaveOnes.set { state with db } i
      { call, progress := .finished rc }).Pending e ∨
        (call.stream streamId nextver).Covers e := by
  obtain ⟨j, other, otherId, otherSaved, hother, hotherType, hdata⟩ := hpending
  by_cases hj : j = i
  · subst hj
    have hsame := Option.some.inj (hother.symm.trans hcall)
    cases hsame
    exact .inr (.inr ⟨rfl, hdata.symm⟩)
  · refine .inl ⟨j, other, otherId, otherSaved, ?_, hotherType, hdata⟩
    rw [SaveOnes.calls_set, if_neg hj]
    exact hother

theorem covers_of_lt {stream later : IEventStream} {e : IEvent}
    (hcovers : stream.Covers e)
    (hlt : stream.version.toInt < later.version.toInt) : later.Covers e := by
  left
  rcases hcovers with hbefore | ⟨heq, _⟩
  · omega
  · rw [heq]
    exact hlt

/-- A call that writes a later version covers what was covered before, and
the events that it had pending itself. -/
theorem InSync.replace {call : SaveOneCall} {streamId : Str}
    {nextver : Int64} {saved rc : ℕ} (hsync : state.InSync type uid)
    (hcall : state.calls i =
      some { call, progress := .stored streamId nextver saved })
    (htype : call.streamType = type)
    (hlater : ∀ doc ∈ state.db.eventstreams.rows, doc.id = streamId →
      doc.content.Before nextver) :
    (set { state with
        db := state.db.replaceStream streamId (call.stream streamId nextver) }
      i { call, progress := .finished rc }).InSync type uid := by
  have huid : streamId = uid :=
    ((hsync.calls i _ hcall).streamId streamId rfl).mpr htype
  subst huid
  have hown : state.db.streamType streamId = some call.streamType := by
    rw [htype]
    exact hsync.stream
  have hstreamType : (state.db.replaceStream streamId
      (call.stream streamId nextver)).streamType = state.db.streamType :=
    state.db.streamType_replaceStream_of_eq hown
  have hwritten := hsync.written i call streamId nextver saved hcall htype
  refine ⟨hsync.uid_ne, ?_, ?_, ?_, ?_, .inr ⟨call.stream streamId nextver,
    ?_, rfl, hwritten, ?_⟩⟩
  · change (state.db.replaceStream _ _).streamType streamId = some type
    rw [hstreamType]
    exact hsync.stream
  · change ∀ id, (state.db.replaceStream _ _).streamType id = some type → _
    rw [hstreamType]
    exact hsync.unique
  · apply hsync.calls_set
    apply (hsync.calls i _ hcall).next (by simp)
    intro id hid
    cases hid
  · intro j other otherId otherver otherSaved hother hotherType
    rw [SaveOnes.calls_set] at hother
    split_ifs at hother
    · cases hother
    · exact hsync.written j other otherId otherver otherSaved hother hotherType
  · change (state.db.replaceStream _ _).eventstreams.find streamId = _
    rw [MongoDb.find_replaceStream, if_pos rfl]
  · intro e he hetype
    rcases hsync.snapshot with hall | ⟨stream, hfind, hsnapshots⟩
    · exact (hall e he hetype).replace hcall
    · rcases hsnapshots.covers e he hetype with hold | hcovers
      · exact hold.replace hcall
      · obtain ⟨hdoc, hid⟩ := (Table.find_eq_some_iff _ _ _).mp hfind
        have hbefore : stream.version.toInt < nextver.toInt :=
          hlater _ hdoc hid
        exact .inr (covers_of_lt hcovers hbefore)

theorem InSync.replaceOther {call : SaveOneCall} {outcome : Outcome}
    {progress : Progress} {streamId : Str} {nextver : Int64} {saved : ℕ}
    (hsync : state.InSync type uid)
    (hcall : state.calls i =
      some { call, progress := .stored streamId nextver saved })
    (htype : call.streamType ≠ type) (hmissing : progress ≠ .missing)
    (hstreamId : progress.streamId = none) :
    (set { state with
        db := if outcome.Applied then
          state.db.replaceStream streamId (call.stream streamId nextver)
        else state.db } i { call, progress }).InSync type uid := by
  have hne : streamId ≠ uid := fun heq =>
    htype (((hsync.calls i _ hcall).streamId streamId rfl).mp heq)
  apply hsync.frame
  · split_ifs
    · rw [MongoDb.find_replaceStream, if_neg hne.symm]
    · rfl
  · intro id hid
    split_ifs at hid
    · rw [MongoDb.streamType_replaceStream] at hid
      split_ifs at hid
      · exact absurd (Option.some.inj hid) htype
      · exact hsync.unique id hid
    · exact hsync.unique id hid
  · intro e _
    split_ifs <;> exact Iff.rfl
  · exact not_writes hcall fun _ _ _ _ => htype
  · exact fun hwrites => htype hwrites.1
  · apply (hsync.calls i _ hcall).next hmissing
    intro id hid
    rw [hstreamId] at hid
    cases hid

/-- One operation of a call, when the writes of the type succeed in order. -/
theorem InSync.advance {call : SaveOneCall} {outcome : Outcome} {choice : ℕ}
    {progress progress' : Progress} {db : MongoDb}
    (hsync : state.InSync type uid)
    (hcall : state.calls i = some { call, progress })
    (hsuccess : call.streamType = type →
      RunningCall.Succeeds { call, progress } outcome)
    (horder : call.streamType = type →
      RunningCall.WritesLater { call, progress } state.db)
    (hadvance : call.advance outcome choice progress state.db =
      some (progress', db)) :
    (set { state with db } i { call, progress := progress' }).InSync
      type uid := by
  cases progress with
  | begun => exact hsync.lookUp hcall hsuccess hadvance
  | missing => exact hsync.create hcall hadvance
  | identified streamId =>
      rw [SaveOneCall.advance_identified] at hadvance
      cases hadvance
      apply hsync.count hcall
      · simp
      · split_ifs <;> simp
      · split_ifs <;> simp
      · exact fun id hid => Progress.streamId_of_ite hid rfl
  | sequenced streamId globalseq =>
      rw [SaveOneCall.advance_sequenced] at hadvance
      cases hadvance
      apply hsync.count hcall
      · simp
      · split_ifs <;> simp
      · split_ifs <;> simp
      · exact fun id hid => Progress.streamId_of_ite hid rfl
  | versioned streamId globalseq nextver =>
      rw [SaveOneCall.advance_versioned] at hadvance
      by_cases htype : call.streamType = type
      · obtain rfl : outcome = .succeeded := hsuccess htype
        cases hadvance
        exact hsync.store hcall htype
      · cases hadvance
        apply hsync.storeOther hcall htype
        · split_ifs <;> simp
        · intro id hid
          have hsame := Progress.streamId_of_ite hid
            (rfl : _ = (Progress.versioned streamId globalseq nextver).streamId)
          exact Option.some.inj hsame
  | stored streamId nextver saved =>
      rw [SaveOneCall.advance_stored] at hadvance
      by_cases htype : call.streamType = type
      · obtain rfl : outcome = .succeeded := hsuccess htype
        cases hadvance
        exact hsync.replace hcall htype (horder htype)
      · cases hadvance
        apply hsync.replaceOther hcall htype
        · split_ifs <;> simp
        · split_ifs <;> rfl
  | finished rc => cases hadvance
  | thrown => cases hadvance

theorem InSync.step {next : SaveOnes ι} {action : SaveOneStep}
    (hsync : state.InSync type uid)
    (hsuccess : state.Successful type (i, action))
    (horder : state.InOrder type (i, action))
    (hstep : state.perform i action = some next) : next.InSync type uid := by
  cases action with
  | begin call =>
      obtain ⟨hnone, rfl⟩ := perform_begin hstep
      apply hsync.frame
      · rfl
      · exact hsync.unique
      · exact fun _ _ => Iff.rfl
      · intro old hold
        rw [hnone] at hold
        cases hold
      · rintro ⟨_, streamId, nextver, saved, hstored⟩
        cases hstored
      · exact ⟨fun _ => by simp, fun id hid => by cases hid⟩
  | advance outcome choice =>
      obtain ⟨running, progress, db, hrunning, hadvance, rfl⟩ :=
        perform_advance hstep
      simp only [Successful, hrunning] at hsuccess
      simp only [InOrder, hrunning] at horder
      exact hsync.advance hrunning hsuccess horder hadvance

instance (type : Str) (state : SaveOnes ι) (action : ι × SaveOneStep) :
    Decidable (state.Successful type action) :=
  match haction : action.2, hrunning : state.calls action.1 with
  | .advance outcome _, some running =>
      decidable_of_iff (running.call.streamType = type →
        running.Succeeds outcome) (by simp [Successful, haction, hrunning])
  | .advance _ _, none | .begin _, _ =>
      isTrue (by simp [Successful, haction, hrunning])

instance (type : Str) (state : SaveOnes ι) (action : ι × SaveOneStep) :
    Decidable (state.InOrder type action) :=
  match haction : action.2, hrunning : state.calls action.1 with
  | .advance _ _, some running =>
      decidable_of_iff (running.call.streamType = type →
        running.WritesLater state.db) (by simp [InOrder, haction, hrunning])
  | .advance _ _, none | .begin _, _ =>
      isTrue (by simp [InOrder, haction, hrunning])

end SaveOnes

/-- As long as each snapshot of the type is written over an earlier one, the
stream document holds the latest event once the calls for the type have
returned. -/
theorem concurrentSaveOne_latestSnapshot {ι : Type} [DecidableEq ι]
    {type : Str} {state : SaveOnes ι}
    (hreach : (concurrentSaveOne ι fun db =>
      ∃ uid, db.InSync type uid).ReachableUnder
        (fun current action => current.Successful type action ∧
          current.InOrder type action) state)
    (hfinished : state.Finished type) :
    ∃ uid, state.db.InSync type uid := by
  have hinit : ∀ start, (concurrentSaveOne ι fun db =>
      ∃ uid, db.InSync type uid).init start →
        ∃ uid, start.InSync type uid := by
    rintro start ⟨⟨uid, hdb⟩, hcalls⟩
    have hidle : start = .idle ι start.db := by
      cases start
      simp only [SaveOnes.idle, SaveOnes.mk.injEq, true_and]
      funext i
      exact hcalls i
    exact ⟨uid, hidle ▸ hdb.idle⟩
  obtain ⟨uid, hsync⟩ := hreach.invariant hinit
    fun current action next ⟨uid, hcurrent⟩ ⟨hsuccess, horder⟩ hnext =>
      ⟨uid, hcurrent.step hsuccess horder hnext⟩
  exact ⟨uid, hsync.uid_ne, hsync.stream, hsync.unique,
    hsync.latestSnapshot hfinished⟩

/-- What a first save of the type leaves. -/
def savedOnce : MongoDb where
  eventstreams := {
    rows := [{
      id := (droidCall false).newUuid
      content := .saved ((droidCall false).stream (droidCall false).newUuid 1) }]
    keyed := List.nodup_singleton _ }
  eventsCounter := fun name =>
    if name = allEvents ∨ name = "DROID".toList then 1 else 0
  events := [(droidCall false).event (droidCall false).newUuid 1 1]

theorem savedOnce_inSync :
    savedOnce.InSync "DROID".toList (droidCall false).newUuid where
  uid_ne := (droidCall false).newUuid_ne
  stream := by decide +kernel
  unique := by
    intro id hid
    obtain ⟨doc, hdoc, rfl, _⟩ := MongoDb.streamType_eq_some_iff.mp hid
    rw [List.mem_singleton.mp hdoc]
  latest := by
    intro doc hdoc _ e he _
    rw [List.mem_singleton.mp hdoc,
      List.mem_singleton.mp (mem_eventsOf.mp he).1]
    exact ⟨_, rfl, rfl, rfl, rfl⟩

/-- Both calls take their versions, then write in the order of the calls. -/
def saveInOrder (firstWriter : Bool) : List (Bool × SaveOneStep) :=
  [beginSave false, beginSave true, nextOperation false, nextOperation true,
    nextOperation false, nextOperation false, nextOperation true,
    nextOperation true, nextOperation firstWriter, nextOperation firstWriter,
    nextOperation !firstWriter, nextOperation !firstWriter]

theorem finished_of_progress {state : SaveOnes Bool} {type : Str} {rc : ℕ}
    (hends : ((state.calls false).map RunningCall.progress,
      (state.calls true).map RunningCall.progress) =
        (some (.finished rc), some (.finished rc))) :
    state.Finished type := by
  obtain ⟨hfirst, hsecond⟩ := Prod.mk.inj hends
  intro i running hrunning _
  cases i with
  | false =>
      rw [hrunning] at hfirst
      exact ⟨rc, Option.some.inj hfirst⟩
  | true =>
      rw [hrunning] at hsecond
      exact ⟨rc, Option.some.inj hsecond⟩

theorem saveInOrder_inSync :
    ∃ state, (concurrentSaveOne Bool fun db =>
      ∃ uid, db.InSync "DROID".toList uid).run (.idle Bool savedOnce)
        (saveInOrder false) = some state ∧
      ∃ uid, state.db.InSync "DROID".toList uid := by
  have hends : ((concurrentSaveOne Bool fun db =>
      ∃ uid, db.InSync "DROID".toList uid).run (.idle Bool savedOnce)
        (saveInOrder false)).map
      (fun state => ((state.calls false).map RunningCall.progress,
        (state.calls true).map RunningCall.progress)) =
      some (some (.finished 2), some (.finished 2)) := by decide +kernel
  obtain ⟨state, hrun, hprogress⟩ := Option.map_eq_some_iff.mp hends
  exact ⟨state, hrun, concurrentSaveOne_latestSnapshot
    ⟨.idle Bool savedOnce, saveInOrder false,
      ⟨⟨_, savedOnce_inSync⟩, fun _ => rfl⟩, by decide +kernel, hrun⟩
    (finished_of_progress hprogress)⟩

def StreamDoc.version (doc : StreamDoc) : Option Int64 :=
  match doc.content with
  | .created _ => none
  | .saved stream => some stream.version

/-- The first call writes version `2` over version `3`. -/
theorem concurrentSaveOne_latestSnapshot_fails :
    ¬ ∀ state : SaveOnes Bool,
      (concurrentSaveOne Bool fun db =>
        ∃ uid, db.InSync "DROID".toList uid).ReachableUnder
          (fun current action => current.Successful "DROID".toList action)
          state →
        state.Finished "DROID".toList →
          state.db.LatestSnapshot "DROID".toList := by
  intro hall
  have hends : ((concurrentSaveOne Bool fun db =>
      ∃ uid, db.InSync "DROID".toList uid).run (.idle Bool savedOnce)
        (saveInOrder true)).map
      (fun state => ((state.calls false).map RunningCall.progress,
        (state.calls true).map RunningCall.progress)) =
      some (some (.finished 2), some (.finished 2)) := by decide +kernel
  have hdata : ((concurrentSaveOne Bool fun db =>
      ∃ uid, db.InSync "DROID".toList uid).run (.idle Bool savedOnce)
        (saveInOrder true)).map
      (fun state => (
        state.db.eventstreams.rows.map fun doc => (doc.type, doc.version),
        state.db.events.map fun e => (e.type, e.version))) =
      some ([("DROID".toList, some 2)],
        [("DROID".toList, 1), ("DROID".toList, 3), ("DROID".toList, 2)]) := by
    decide +kernel
  obtain ⟨state, hrun, hprogress⟩ := Option.map_eq_some_iff.mp hends
  rw [hrun, Option.map_some, Option.some.injEq, Prod.mk.injEq] at hdata
  obtain ⟨hrows, hevents⟩ := hdata
  have hlatest := hall state
    ⟨.idle Bool savedOnce, saveInOrder true,
      ⟨⟨_, savedOnce_inSync⟩, fun _ => rfl⟩, by decide +kernel, hrun⟩
    (finished_of_progress hprogress)
  have hpairs : ∀ pair ∈ state.db.eventstreams.rows.map
      (fun doc => (doc.type, doc.version)), pair.1 = "DROID".toList →
      ∀ event ∈ state.db.events.map (fun e => (e.type, e.version)),
        event.1 = "DROID".toList →
        (∀ other ∈ state.db.events.map (fun e => (e.type, e.version)),
          other.2.toInt ≤ event.2.toInt) → pair.2 = some event.2 := by
    intro pair hpair hpairType event hevent heventType hmax
    obtain ⟨doc, hdoc, rfl⟩ := List.mem_map.mp hpair
    obtain ⟨e, he, rfl⟩ := List.mem_map.mp hevent
    obtain ⟨stream, hcontent, hversion, _⟩ := hlatest doc hdoc hpairType e
      (mem_eventsOf.mpr ⟨he, heventType⟩) fun e' he' =>
        hmax _ (List.mem_map_of_mem (mem_eventsOf.mp he').1)
    simp only [StreamDoc.version, hcontent, hversion]
  rw [hrows, hevents] at hpairs
  exact absurd hpairs (by decide +kernel)

end StoreCpp
