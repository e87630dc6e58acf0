import StoreCpp.ConcurrentSaveOne

/-!
# The streams of concurrent calls

The lookup and the insert of `getUid` are separate operations, so two first
calls for a type may both create its stream.  As long as an insert still finds
what the lookup of its call has seen, every type has one stream.
-/

namespace StoreCpp

open StepMachine

/-- The documents of a type have one `_id`, and its events carry it. -/
structure MongoDb.OneStreamEach (db : MongoDb) : Prop where
  streams : ∀ doc ∈ db.eventstreams.rows, ∀ other ∈ db.eventstreams.rows,
    doc.type = other.type → doc.id = other.id
  events : ∀ e ∈ db.events, ∀ e' ∈ db.events,
    e.type = e'.type → e.streamId = e'.streamId

/-- No two streams have one type, and every event belongs to a stream of its
type. -/
structure MongoDb.Identified (db : MongoDb) : Prop where
  unique : ∀ id id' type, db.streamType id = some type →
    db.streamType id' = some type → id = id'
  events : ∀ e ∈ db.events, db.streamType e.streamId = some e.type

theorem MongoDb.Identified.oneStreamEach {db : MongoDb}
    (hidentified : db.Identified) : db.OneStreamEach where
  streams := by
    intro doc hdoc other hother htype
    exact hidentified.unique doc.id other.id other.type
      (streamType_eq_some_iff.mpr ⟨doc, hdoc, rfl, htype⟩)
      (streamType_eq_some_iff.mpr ⟨other, hother, rfl, rfl⟩)
  events := by
    intro e he e' he' htype
    have hstream := hidentified.events e he
    rw [htype] at hstream
    exact hidentified.unique _ _ _ hstream (hidentified.events e' he')

theorem MongoDb.Identified.congr {db next : MongoDb}
    (hidentified : db.Identified) (hstreams : next.streamType = db.streamType)
    (hevents : ∀ e ∈ next.events, e ∈ db.events ∨
      db.streamType e.streamId = some e.type) : next.Identified where
  unique := by
    rw [hstreams]
    exact hidentified.unique
  events := by
    intro e he
    rw [hstreams]
    rcases hevents e he with hold | hnew
    · exact hidentified.events e hold
    · exact hnew

/-- A stream is created only where its type has none yet. -/
theorem MongoDb.Identified.created {db : MongoDb} {uid typeName : Str}
    (hidentified : db.Identified) (hnew : db.eventstreams.find uid = none)
    (hmissing : ∀ doc ∈ db.eventstreams.rows, doc.type ≠ typeName) :
    (db.created uid typeName).Identified := by
  have hnone : ∀ id, db.streamType id ≠ some typeName := by
    intro id hid
    obtain ⟨doc, hdoc, _, htype⟩ := streamType_eq_some_iff.mp hid
    exact hmissing doc hdoc htype
  have hold : db.streamType uid = none := by
    unfold streamType
    rw [hnew]
    rfl
  constructor
  · intro id id' type hid hid'
    rw [streamType_created] at hid hid'
    split_ifs at hid hid' with huid huid' huid'
    · exact huid.1.trans huid'.1.symm
    · cases hid
      exact absurd hid' (hnone id')
    · cases hid'
      exact absurd hid (hnone id)
    · exact hidentified.unique id id' type hid hid'
  · intro e he
    obtain ⟨streams, hstreams⟩ := db.created_eq uid typeName
    rw [hstreams] at he
    have hstream := hidentified.events e he
    rw [streamType_created, if_neg]
    · exact hstream
    · rintro ⟨heq, _⟩
      rw [heq, hold] at hstream
      cases hstream

/-- The stream id that the call goes on with is that of its type. -/
def Progress.Names (progress : Progress) (db : MongoDb) (type : Str) : Prop :=
  ∀ id, progress.streamId = some id → db.streamType id = some type

/-- What a step of a call for the type leaves behind. -/
structure StepIdentified (db next : MongoDb) (progress : Progress)
    (type : Str) : Prop where
  identified : next.Identified
  names : progress.Names next type
  kept : ∀ id type, db.streamType id = some type →
    next.streamType id = some type

theorem MongoDb.Identified.frame {db next : MongoDb}
    {progress progress' : Progress} {type : Str}
    (hidentified : db.Identified) (hnames : progress.Names db type)
    (hstreams : next.streamType = db.streamType)
    (hevents : ∀ e ∈ next.events, e ∈ db.events ∨
      db.streamType e.streamId = some e.type)
    (hstreamId : ∀ id, progress'.streamId = some id →
      progress.streamId = some id) :
    StepIdentified db next progress' type where
  identified := hidentified.congr hstreams hevents
  names := by
    intro id hid
    rw [hstreams]
    exact hnames id (hstreamId id hid)
  kept := by
    intro id type hid
    rw [hstreams]
    exact hid

/-- Both operations of `getUid` get through, and the insert finds the type
still without a stream. -/
def RunningCall.CreatesOnce (running : RunningCall) (db : MongoDb)
    (outcome : Outcome) : Prop :=
  match running.progress with
  | .begun => ¬ outcome.Caught
  | .missing => ¬ outcome.Caught ∧
      db.eventstreams.find running.call.newUuid = none ∧
      ∀ doc ∈ db.eventstreams.rows, doc.type ≠ running.call.streamType
  | _ => True

/-- What the lookup finds is a stream of the type. -/
theorem MongoDb.Identified.lookUp {call : SaveOneCall} {outcome : Outcome}
    {choice : ℕ} {progress : Progress} {db next : MongoDb}
    (hidentified : db.Identified) (hcaught : ¬ outcome.Caught)
    (hadvance : call.advance outcome choice .begun db =
      some (progress, next)) :
    StepIdentified db next progress call.streamType := by
  rw [SaveOneCall.advance_begun] at hadvance
  cases hadvance
  refine ⟨hidentified, ?_, fun _ _ hid => hid⟩
  intro id hid
  cases outcome with
  | succeeded =>
      cases hfound : db.findStream call.streamType choice with
      | none =>
          rw [hfound] at hid
          cases hid
      | some doc =>
          rw [hfound] at hid
          cases hid
          obtain ⟨hmem, htype⟩ := findStream_mem hfound
          exact streamType_eq_some_iff.mpr ⟨doc, hmem, rfl, htype⟩
  | refused => exact absurd (.inl rfl) hcaught
  | lost => exact absurd (.inr rfl) hcaught
  | escaped => cases hid

theorem MongoDb.Identified.create {call : SaveOneCall} {outcome : Outcome}
    {choice : ℕ} {progress : Progress} {db next : MongoDb}
    (hidentified : db.Identified) (hcaught : ¬ outcome.Caught)
    (hnew : db.eventstreams.find call.newUuid = none)
    (hmissing : ∀ doc ∈ db.eventstreams.rows, doc.type ≠ call.streamType)
    (hadvance : call.advance outcome choice .missing db =
      some (progress, next)) :
    StepIdentified db next progress call.streamType := by
  have hstreamType := db.streamType_created call.newUuid call.streamType
  simp only [hnew, and_true] at hstreamType
  rw [SaveOneCall.advance_missing] at hadvance
  cases outcome with
  | succeeded =>
      obtain ⟨rfl, rfl⟩ := Prod.mk.inj (Option.some.inj hadvance)
      have happlied : Outcome.succeeded.Applied := .inl rfl
      rw [if_pos happlied]
      refine ⟨hidentified.created hnew hmissing, ?_, ?_⟩
      · intro id hid
        simp only [reduceCtorEq, if_false, hnew, and_self, if_true] at hid
        cases hid
        rw [hstreamType, if_pos rfl]
      · intro id type hid
        have hne : id ≠ call.newUuid := by
          rintro rfl
          unfold streamType at hid
          rw [hnew] at hid
          cases hid
        rw [hstreamType, if_neg hne]
        exact hid
  | refused => exact absurd (.inl rfl) hcaught
  | lost => exact absurd (.inr rfl) hcaught
  | escaped =>
      cases hadvance
      refine ⟨hidentified, ?_, fun _ _ hid => hid⟩
      intro id hid
      cases hid

theorem MongoDb.Identified.advance {call : SaveOneCall} {outcome : Outcome}
    {choice : ℕ} {progress progress' : Progress} {db next : MongoDb}
    (hidentified : db.Identified)
    (hnames : progress.Names db call.streamType)
    (hguard : RunningCall.CreatesOnce { call, progress } db outcome)
    (hadvance : call.advance outcome choice progress db =
      some (progress', next)) :
    StepIdentified db next progress' call.streamType := by
  cases progress with
  | begun => exact hidentified.lookUp hguard hadvance
  | missing =>
      exact hidentified.create hguard.1 hguard.2.1 hguard.2.2 hadvance
  | identified streamId =>
      rw [SaveOneCall.advance_identified] at hadvance
      cases hadvance
      apply hidentified.frame hnames
      · rfl
      · exact fun e he => .inl he
      · exact fun id hid => Progress.streamId_of_ite hid rfl
  | sequenced streamId globalseq =>
      rw [SaveOneCall.advance_sequenced] at hadvance
      cases hadvance
      apply hidentified.frame hnames
      · rfl
      · exact fun e he => .inl he
      · exact fun id hid => Progress.streamId_of_ite hid rfl
  | versioned streamId globalseq nextver =>
      rw [SaveOneCall.advance_versioned] at hadvance
      cases hadvance
      apply hidentified.frame hnames
      · split_ifs <;> rfl
      · intro e he
        split_ifs at he
        · rcases List.mem_append.mp he with hold | hnew
          · exact .inl hold
          · rw [List.mem_singleton.mp hnew]
            exact .inr (hnames streamId rfl)
        · exact .inl he
      · exact fun id hid => Progress.streamId_of_ite hid rfl
  | stored streamId nextver saved =>
      rw [SaveOneCall.advance_stored] at hadvance
      cases hadvance
      apply hidentified.frame hnames
      · split_ifs
        · exact db.streamType_replaceStream_of_eq (hnames streamId rfl)
        · rfl
      · intro e he
        split_ifs at he <;> exact .inl he
      · intro id hid
        split_ifs at hid <;> cases hid
  | finished rc => cases hadvance
  | thrown => cases hadvance

instance (running : RunningCall) (db : MongoDb) (outcome : Outcome) :
    Decidable (running.CreatesOnce db outcome) :=
  match hprogress : running.progress with
  | .begun => decidable_of_iff (¬ outcome.Caught)
      (by simp [RunningCall.CreatesOnce, hprogress])
  | .missing => decidable_of_iff
      (¬ outcome.Caught ∧
        db.eventstreams.find running.call.newUuid = none ∧
        ∀ doc ∈ db.eventstreams.rows, doc.type ≠ running.call.streamType)
      (by simp [RunningCall.CreatesOnce, hprogress])
  | .identified _ | .sequenced _ _ | .versioned _ _ _ | .stored _ _ _
  | .finished _ | .thrown =>
      isTrue (by simp [RunningCall.CreatesOnce, hprogress])

namespace SaveOnes

variable {ι : Type} [DecidableEq ι]

/-- The call that takes the step creates its stream only once. -/
def CreatesOnce (state : SaveOnes ι) (action : ι × SaveOneStep) : Prop :=
  match action.2, state.calls action.1 with
  | .advance outcome _, some running => running.CreatesOnce state.db outcome
  | _, _ => True

instance (state : SaveOnes ι) (action : ι × SaveOneStep) :
    Decidable (state.CreatesOnce action) :=
  match haction : action.2, hrunning : state.calls action.1 with
  | .advance outcome _, some running =>
      decidable_of_iff (running.CreatesOnce state.db outcome)
        (by simp [CreatesOnce, haction, hrunning])
  | .advance _ _, none | .begin _, _ =>
      isTrue (by simp [CreatesOnce, haction, hrunning])

structure Identified (state : SaveOnes ι) : Prop where
  db : state.db.Identified
  calls : ∀ i running, state.calls i = some running →
    running.progress.Names state.db running.call.streamType

theorem Identified.step {state next : SaveOnes ι} {i : ι}
    {action : SaveOneStep} (hidentified : state.Identified)
    (hguard : state.CreatesOnce (i, action))
    (hstep : state.perform i action = some next) : next.Identified := by
  cases action with
  | begin call =>
      obtain ⟨_, rfl⟩ := perform_begin hstep
      refine ⟨hidentified.db, fun j running hrunning => ?_⟩
      rw [calls_set] at hrunning
      split_ifs at hrunning
      · cases hrunning
        intro id hid
        cases hid
      · exact hidentified.calls j running hrunning
  | advance outcome choice =>
      obtain ⟨running, progress, db, hrunning, hadvance, rfl⟩ :=
        perform_advance hstep
      have hcreates : running.CreatesOnce state.db outcome := by
        simpa [CreatesOnce, hrunning] using hguard
      obtain ⟨hdb, hnames, hkept⟩ := hidentified.db.advance
        (hidentified.calls i running hrunning) hcreates hadvance
      refine ⟨hdb, fun j other hother => ?_⟩
      rw [calls_set] at hother
      split_ifs at hother
      · cases hother
        exact hnames
      · intro id hid
        exact hkept _ _ (hidentified.calls j other hother id hid)

end SaveOnes

/-- As long as each call that creates a stream finds its type without one at
the insert, and no failure is caught in `getUid`, every type has one stream,
whatever the order of the operations. -/
theorem concurrentSaveOne_oneStreamEach {ι : Type} [DecidableEq ι]
    {state : SaveOnes ι}
    (hreach : (concurrentSaveOne ι MongoDb.Identified).ReachableUnder
      SaveOnes.CreatesOnce state) :
    state.db.OneStreamEach := by
  have hinit : ∀ start, (concurrentSaveOne ι MongoDb.Identified).init start →
      start.Identified := by
    rintro start ⟨hdb, hcalls⟩
    refine ⟨hdb, fun i running hrunning => ?_⟩
    rw [hcalls i] at hrunning
    cases hrunning
  have hinvariant := hreach.invariant hinit
    fun current action next hcurrent hguard hnext =>
      hcurrent.step hguard hnext
  exact hinvariant.db.oneStreamEach

theorem MongoDb.identified_empty : MongoDb.empty.Identified where
  unique := by
    intro id id' type hid
    cases hid
  events := fun _ he => absurd he List.not_mem_nil

/-- The second call looks the type up after the first has created it. -/
def lateLookUp : List (Bool × SaveOneStep) :=
  [beginSave false, beginSave true, nextOperation false, nextOperation false,
    nextOperation true, nextOperation true, nextOperation false]

theorem lateLookUp_oneStreamEach :
    ∃ state, (concurrentSaveOne Bool MongoDb.Identified).run
      (.idle Bool MongoDb.empty) lateLookUp = some state ∧
        state.db.OneStreamEach := by
  have hsome : ((concurrentSaveOne Bool MongoDb.Identified).run
      (.idle Bool MongoDb.empty) lateLookUp).isSome := by decide +kernel
  obtain ⟨state, hrun⟩ := Option.isSome_iff_exists.mp hsome
  exact ⟨state, hrun, concurrentSaveOne_oneStreamEach
    ⟨.idle Bool MongoDb.empty, lateLookUp,
      ⟨MongoDb.identified_empty, fun _ => rfl⟩, by decide +kernel, hrun⟩⟩

/-- Both calls look the type up before either creates it. -/
theorem concurrentSaveOne_oneStreamEach_fails :
    ¬ ∀ state : SaveOnes Bool,
      (concurrentSaveOne Bool MongoDb.Identified).Reachable state →
        state.db.OneStreamEach := by
  intro hall
  have hdocs : ((concurrentSaveOne Bool MongoDb.Identified).run
      (.idle Bool MongoDb.empty)
      [beginSave false, beginSave true, nextOperation false,
        nextOperation true, nextOperation false, nextOperation true]).map
      (fun state => state.db.eventstreams.rows.map fun doc =>
        (doc.id, doc.type)) =
      some [((droidCall false).newUuid, "DROID".toList),
        ((droidCall true).newUuid, "DROID".toList)] := by decide +kernel
  obtain ⟨state, hrun, hrows⟩ := Option.map_eq_some_iff.mp hdocs
  have hone := (hall state ⟨.idle Bool MongoDb.empty, _,
    ⟨MongoDb.identified_empty, fun _ => rfl⟩, hrun⟩).streams
  have hpairs : ∀ pair ∈ state.db.eventstreams.rows.map
      (fun doc => (doc.id, doc.type)), ∀ other ∈
      state.db.eventstreams.rows.map (fun doc => (doc.id, doc.type)),
      pair.2 = other.2 → pair.1 = other.1 := by
    intro pair hpair other hother htype
    obtain ⟨doc, hdoc, rfl⟩ := List.mem_map.mp hpair
    obtain ⟨doc', hdoc', rfl⟩ := List.mem_map.mp hother
    exact hone doc hdoc doc' hdoc' htype
  rw [hrows] at hpairs
  exact absurd hpairs (by decide +kernel)

end StoreCpp
