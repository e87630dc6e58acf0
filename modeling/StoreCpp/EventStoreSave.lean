import StoreCpp.AppendEvent
import StoreCpp.StepMachine

/-!
# Saving the pending events of one event store

`Save` groups the pending events by stream id, sends one independently
committed statement per stream in key order, returns at the first statement
that throws and clears the pending events only after the last one.  This
module is about the calls of `mt_append_event` that the statements mean;
`SaveStatements` puts their texts above it.  A session is a sequence of
`append` and `save` calls on one store, with every choice of what each
statement does.
-/

namespace StoreCpp

open StepMachine

inductive ErrorType where
  | none
  | connection
  | execution
  | unknown
  deriving DecidableEq

def ErrorType.code : ErrorType → ℕ
  | .none => 200
  | .connection => 503
  | .execution => 400
  | .unknown => 500

structure EventStore where
  pending : List IEvent := []
  dbSchema : Str := "dwh".toList

/-- The typed event of a caller; only its `IEvent` part is stored. -/
structure Event (υ : Type*) extends IEvent where
  model : υ

def EventStore.push (store : EventStore) (event : IEvent) : EventStore :=
  { store with pending := store.pending ++ [event] }

def EventStore.append {υ : Type*} (store : EventStore) (doc : Event υ) :
    EventStore :=
  store.push doc.toIEvent

def EventStore.reset (store : EventStore) : EventStore :=
  { store with pending := [] }

/-- What the driver call of one statement does.  An executed statement takes
effect unless the server raises an error, which then has the given message. -/
inductive StatementOutcome where
  | executed (message : Str)
  | connectionException (what : Str)
  | executionException (what : Str)
  | otherException
  deriving DecidableEq

/-- `regex_search` for `^server closed the connection unexpectedly`. -/
def unexpectedDisconnection (what : Str) : Bool :=
  "server closed the connection unexpectedly".toList.isPrefixOf what

def executionError (what : Str) : ErrorType × Str :=
  (if unexpectedDisconnection what then .connection else .execution, what)

/-- The choices of one `save` call: the outcome and time of its k-th
statement and the uuids it generates. -/
structure SaveAttempt where
  outcome : ℕ → StatementOutcome
  now : ℕ → Int64
  generateUuid : ℕ → ℕ → Uuid

def SaveAttempt.eventIds (attempt : SaveAttempt) (k : ℕ)
    (events : List IEvent) : List Uuid :=
  (List.range events.length).map (attempt.generateUuid k)

/-- What the client sees of the k-th statement, given what the statement does
to the tables if it is executed. -/
def SaveAttempt.answer (attempt : SaveAttempt) (k : ℕ)
    (effect : Option Tables) : Except (ErrorType × Str) Tables :=
  match attempt.outcome k with
  | .executed message =>
      match effect with
      | some next => .ok next
      | none => .error (executionError message)
  | .connectionException what => .error (.connection, what)
  | .executionException what => .error (executionError what)
  | .otherException => .error (.unknown, "std::exception".toList)

/-- What the statement of a group means: the call of `mt_append_event`. -/
def SaveAttempt.groupEffect (attempt : SaveAttempt) (k : ℕ)
    (group : Str × List IEvent) (tables : Tables) : Option Tables :=
  (uuidIn group.1).bind fun stream =>
    mtAppendEvent (groupCall stream group.2 (attempt.eventIds k group.2))
      (attempt.now k) tables

/-- One statement that the server reads as it was meant. -/
def appendGroup (attempt : SaveAttempt) (k : ℕ) (group : Str × List IEvent)
    (tables : Tables) : Except (ErrorType × Str) Tables :=
  attempt.answer k (attempt.groupEffect k group tables)

def appendGroups (attempt : SaveAttempt) :
    ℕ → List (Str × List IEvent) → Tables →
      Option (ErrorType × Str) × Tables
  | _, [], tables => (none, tables)
  | k, group :: rest, tables =>
      match appendGroup attempt k group tables with
      | .ok next => appendGroups attempt (k + 1) rest next
      | .error error => (some error, tables)

def EventStore.groups (store : EventStore) : List (Str × List IEvent) :=
  groupBy IEvent.streamId store.pending

def saveCalls (attempt : SaveAttempt) (store : EventStore) (tables : Tables) :
    (ℕ × Str) × EventStore × Tables :=
  match appendGroups attempt 0 store.groups tables with
  | (none, next) =>
      ((ErrorType.none.code, "Succeeded".toList), store.reset, next)
  | (some error, next) => ((error.1.code, error.2), store, next)

/-! ## Sessions -/

inductive Op where
  | append (event : IEvent)
  | save (attempt : SaveAttempt)

/-- A store, the tables, the events passed to `append` so far and what the
last operation returned if it was a `save`. -/
structure Session where
  store : EventStore
  tables : Tables
  appended : List IEvent
  returned : Option (ℕ × Str)

def Session.performCalls (session : Session) : Op → Session
  | .append event => {
      session with
      store := session.store.push event
      appended := session.appended ++ [event]
      returned := none }
  | .save attempt =>
      let result := saveCalls attempt session.store session.tables
      { session with
        store := result.2.1
        tables := result.2.2
        returned := some result.1 }

def callSessions : Machine Session Op where
  init session :=
    session.store.pending = [] ∧ session.appended = [] ∧
      session.returned = none
  step session op := some (session.performCalls op)

abbrev Content := Option Uuid × Str × Json

def IEvent.content (event : IEvent) : Content :=
  (uuidIn event.streamId, event.type, event.data)

def EventRow.content (row : EventRow) : Content :=
  (some row.streamId, row.type, row.data)

def Session.stored (start session : Session) : List Content :=
  (session.tables.mtEvents.drop start.tables.mtEvents.length).map
    EventRow.content

def Session.StoredAtMostOnce (start session : Session) : Prop :=
  (start.stored session).Subperm (session.appended.map IEvent.content)

def Session.StoredExactlyOnce (start session : Session) : Prop :=
  (start.stored session).Perm (session.appended.map IEvent.content)

def Session.Succeeded (session : Session) : Prop :=
  session.returned.map Prod.fst = some 200

def AllExecuted (attempt : SaveAttempt) :
    ℕ → List (Str × List IEvent) → Tables → Prop
  | _, [], _ => True
  | k, group :: rest, tables =>
      ∃ next, appendGroup attempt k group tables = .ok next ∧
        AllExecuted attempt (k + 1) rest next

/-- A `save` is clean when a statement that fails, if there is one, is the
first that it sends. -/
def CleanSave (attempt : SaveAttempt) (tables : Tables) :
    List (Str × List IEvent) → Prop
  | [] => True
  | group :: rest =>
      (∃ error, appendGroup attempt 0 group tables = .error error) ∨
        AllExecuted attempt 0 (group :: rest) tables

def CleanStep (session : Session) : Op → Prop
  | .append _ => True
  | .save attempt => CleanSave attempt session.tables session.store.groups

/-! ## What one `save` stores -/

theorem eventIds_length (attempt : SaveAttempt) (k : ℕ)
    (events : List IEvent) :
    (attempt.eventIds k events).length = events.length := by
  simp [SaveAttempt.eventIds]

theorem SaveAttempt.answer_eq_ok {attempt : SaveAttempt} {k : ℕ}
    {effect : Option Tables} {next : Tables}
    (hanswer : attempt.answer k effect = .ok next) : effect = some next := by
  unfold SaveAttempt.answer at hanswer
  cases houtcome : attempt.outcome k with
  | executed message =>
      rw [houtcome] at hanswer
      cases effect with
      | none => cases hanswer
      | some result =>
          cases hanswer
          rfl
  | connectionException what => simp [houtcome] at hanswer
  | executionException what => simp [houtcome] at hanswer
  | otherException => simp [houtcome] at hanswer

theorem appendGroup_ok {attempt : SaveAttempt} {k : ℕ}
    {group : Str × List IEvent} {tables next : Tables}
    (hgroup : ∀ event ∈ group.2, event.streamId = group.1)
    (hsend : appendGroup attempt k group tables = .ok next) :
    ∃ rows, next.mtEvents = tables.mtEvents ++ rows ∧
      rows.map EventRow.content = group.2.map IEvent.content := by
  obtain ⟨stream, hstream, happend⟩ :=
    Option.bind_eq_some_iff.mp (SaveAttempt.answer_eq_ok hsend)
  obtain ⟨rows, hevents, hstreams, hrows⟩ := mtAppendEvent_mtEvents
    (groupCall_aligned (eventIds_length attempt k group.2)) happend
  refine ⟨rows, hevents, ?_⟩
  rw [groupCall_payloads] at hrows
  have hcontent : rows.map EventRow.content =
      (rows.map fun row => (row.type, row.data)).map
        fun payload => (some stream, payload) := by
    rw [List.map_map]
    apply List.map_congr_left
    intro row hrow
    have hrowStream : row.streamId = stream := hstreams row hrow
    simp [EventRow.content, hrowStream]
  rw [hcontent, hrows, List.map_map]
  apply List.map_congr_left
  intro event hevent
  simp [IEvent.content, hgroup event hevent, hstream]

theorem executionError_code (what : Str) :
    (executionError what).1.code ≠ 200 := by
  unfold executionError
  split_ifs <;> simp [ErrorType.code]

theorem SaveAttempt.answer_error {attempt : SaveAttempt} {k : ℕ}
    {effect : Option Tables} {error : ErrorType × Str}
    (hanswer : attempt.answer k effect = .error error) :
    error.1.code ≠ 200 := by
  unfold SaveAttempt.answer at hanswer
  cases houtcome : attempt.outcome k with
  | executed message =>
      rw [houtcome] at hanswer
      cases effect with
      | some result => cases hanswer
      | none =>
          cases hanswer
          exact executionError_code message
  | connectionException what =>
      rw [houtcome] at hanswer
      cases hanswer
      simp [ErrorType.code]
  | executionException what =>
      rw [houtcome] at hanswer
      cases hanswer
      exact executionError_code what
  | otherException =>
      rw [houtcome] at hanswer
      cases hanswer
      simp [ErrorType.code]

theorem appendGroup_error {attempt : SaveAttempt} {k : ℕ}
    {group : Str × List IEvent} {tables : Tables} {error : ErrorType × Str}
    (hsend : appendGroup attempt k group tables = .error error) :
    error.1.code ≠ 200 :=
  SaveAttempt.answer_error hsend

theorem appendGroups_stored {attempt : SaveAttempt} {k : ℕ}
    {groups : List (Str × List IEvent)} {tables next : Tables}
    {error : Option (ErrorType × Str)}
    (hgroups : ∀ group ∈ groups, ∀ event ∈ group.2, event.streamId = group.1)
    (hsend : appendGroups attempt k groups tables = (error, next)) :
    ∃ rows sent unsent, groups = sent ++ unsent ∧
      next.mtEvents = tables.mtEvents ++ rows ∧
      rows.map EventRow.content =
        (sent.flatMap Prod.snd).map IEvent.content ∧
      (error = none ↔ unsent = []) ∧
      (∀ failure, error = some failure → failure.1.code ≠ 200) ∧
      ∀ group rest, groups = group :: rest →
        (sent = [] ↔ ∃ failure, appendGroup attempt k group tables =
          .error failure) := by
  induction groups generalizing k tables with
  | nil =>
      cases hsend
      exact ⟨[], [], [], by simp⟩
  | cons group rest ih =>
      rw [appendGroups] at hsend
      cases hgroup : appendGroup attempt k group tables with
      | error failure =>
          rw [hgroup] at hsend
          cases hsend
          refine ⟨[], [], group :: rest, by simp, by simp, by simp, by simp,
            ?_, ?_⟩
          · intro other hother
            cases hother
            exact appendGroup_error hgroup
          · intro head tail heq
            cases heq
            simp [hgroup]
      | ok middle =>
          rw [hgroup] at hsend
          obtain ⟨first, hfirst, hcontent⟩ :=
            appendGroup_ok (hgroups group List.mem_cons_self) hgroup
          obtain ⟨rows, sent, unsent, rfl, hrows, hsent, hunsent, hcode, _⟩ :=
            ih (fun g hg => hgroups g (List.mem_cons_of_mem _ hg)) hsend
          refine ⟨first ++ rows, group :: sent, unsent, rfl, ?_, ?_, hunsent,
            hcode, ?_⟩
          · rw [hrows, hfirst, List.append_assoc]
          · simp [hcontent, hsent]
          · intro head tail heq
            cases heq
            simp [hgroup]

theorem allExecuted_iff {attempt : SaveAttempt} {k : ℕ}
    {groups : List (Str × List IEvent)} {tables : Tables} :
    AllExecuted attempt k groups tables ↔
      (appendGroups attempt k groups tables).1 = none := by
  induction groups generalizing k tables with
  | nil => simp [AllExecuted, appendGroups]
  | cons group rest ih =>
      cases hgroup : appendGroup attempt k group tables with
      | error failure => simp [AllExecuted, appendGroups, hgroup]
      | ok middle => simp [AllExecuted, appendGroups, hgroup, ih]

theorem store_groups_streamId (store : EventStore) :
    ∀ group ∈ store.groups, ∀ event ∈ group.2,
      event.streamId = group.1 := by
  rintro ⟨streamId, events⟩ hgroup event hevent
  have hfilter := eq_filter_of_mem_groupBy hgroup
  rw [hfilter] at hevent
  simpa using (List.mem_filter.mp hevent).2

theorem store_groups_flatten (store : EventStore) :
    (store.groups.flatMap Prod.snd).Perm store.pending :=
  groupBy_flatten_perm IEvent.streamId store.pending

theorem store_groups_nonempty (store : EventStore) :
    ∀ group ∈ store.groups, group.2 ≠ [] :=
  (wellGrouped_groupBy IEvent.streamId store.pending).nonempty

/-- What a `save` does to the rows and to the pending events.  It stores and
clears all of them, or it stores and clears nothing, or it stores some and
clears nothing; the last happens exactly when it is not clean. -/
inductive SaveEffect (attempt : SaveAttempt) (store : EventStore)
    (tables : Tables) (rows : List EventRow)
    (result : (ℕ × Str) × EventStore × Tables) : Prop where
  | complete (code : result.1.1 = 200) (cleared : result.2.1.pending = [])
      (stored : (rows.map EventRow.content).Perm
        (store.pending.map IEvent.content))
      (clean : CleanSave attempt tables store.groups)
  | nothing (code : result.1.1 ≠ 200) (kept : result.2.1 = store)
      (stored : rows = []) (clean : CleanSave attempt tables store.groups)
  | partly (code : result.1.1 ≠ 200) (kept : result.2.1 = store)
      (stored : rows ≠ []) (dirty : ¬ CleanSave attempt tables store.groups)

/-- The groups of a store have events, so sent groups leave content. -/
theorem eq_nil_of_flatMap_content {store : EventStore}
    {sent : List (Str × List IEvent)}
    (hsent : ∀ group ∈ sent, group ∈ store.groups)
    (hcontent : (sent.flatMap Prod.snd).map IEvent.content = []) :
    sent = [] := by
  cases sent with
  | nil => rfl
  | cons first others =>
      have hempty : first.2 = [] := by
        rw [List.flatMap_cons, List.map_append] at hcontent
        exact List.map_eq_nil_iff.mp (List.append_eq_nil_iff.mp hcontent).1
      have hfirst := hsent first List.mem_cons_self
      exact absurd hempty (store_groups_nonempty store first hfirst)

theorem save_effect (attempt : SaveAttempt) (store : EventStore)
    (tables : Tables) :
    ∃ rows, (saveCalls attempt store tables).2.2.mtEvents =
        tables.mtEvents ++ rows ∧
      SaveEffect attempt store tables rows (saveCalls attempt store tables) := by
  cases hsend : appendGroups attempt 0 store.groups tables with
  | mk error next =>
      obtain ⟨rows, sent, unsent, hgroups, hrows, hcontent, hunsent, hcode,
        hfirst⟩ := appendGroups_stored (store_groups_streamId store) hsend
      refine ⟨rows, ?_⟩
      simp only [saveCalls, hsend]
      cases error with
      | none =>
          have hall : unsent = [] := hunsent.mp rfl
          have hflatten := store_groups_flatten store
          rw [hgroups, hall, List.append_nil] at hflatten
          have hexecuted : AllExecuted attempt 0 store.groups tables := by
            rw [allExecuted_iff, hsend]
          refine ⟨hrows, .complete rfl rfl ?_ ?_⟩
          · rw [hcontent]
            exact hflatten.map IEvent.content
          · cases hstore : store.groups with
            | nil => trivial
            | cons group rest => exact Or.inr (hstore ▸ hexecuted)
      | some failure =>
          have hexecuted : ¬ AllExecuted attempt 0 store.groups tables := by
            rw [allExecuted_iff, hsend]
            simp
          refine ⟨hrows, ?_⟩
          cases hstore : store.groups with
          | nil => exact absurd (hstore ▸ trivial) hexecuted
          | cons group rest =>
              have hsent := hfirst group rest hstore
              by_cases hnil : sent = []
              · refine .nothing (hcode failure rfl) rfl ?_ ?_
                · simpa [hnil] using hcontent
                · rw [hstore]
                  exact Or.inl (hsent.mp hnil)
              · refine .partly (hcode failure rfl) rfl ?_ ?_
                · rintro rfl
                  have hsentGroups : ∀ first ∈ sent, first ∈ store.groups := by
                    intro first hmem
                    rw [hgroups]
                    exact List.mem_append_left _ hmem
                  exact hnil (eq_nil_of_flatMap_content hsentGroups
                    hcontent.symm)
                · rw [hstore]
                  rintro (herror | hall)
                  · exact hnil (hsent.mpr herror)
                  · exact hexecuted (hstore ▸ hall)

/-! ## Runs of a session -/

/-- The rows a session has added and its pending events are together the
events it was given. -/
def Session.Balanced (start session : Session) : Prop :=
  (start.stored session ++ session.store.pending.map IEvent.content).Perm
    (session.appended.map IEvent.content)

def Session.Grown (start session : Session) : Prop :=
  start.tables.mtEvents.length ≤ session.tables.mtEvents.length

def Session.surplus (start session : Session) : ℤ :=
  (start.stored session).length + session.store.pending.length -
    session.appended.length

theorem Session.stored_append {start session : Session} {next : Tables}
    {rows : List EventRow} (hgrown : start.Grown session)
    (hrows : next.mtEvents = session.tables.mtEvents ++ rows) :
    start.stored { session with tables := next } =
      start.stored session ++ rows.map EventRow.content := by
  unfold Session.stored
  rw [hrows, List.drop_append_of_le_length hgrown, List.map_append]

theorem Session.Grown.perform {start session : Session}
    (hgrown : start.Grown session) (op : Op) :
    start.Grown (session.performCalls op) := by
  cases op with
  | append event => exact hgrown
  | save attempt =>
      obtain ⟨rows, hrows, _⟩ :=
        save_effect attempt session.store session.tables
      simp only [Session.Grown, Session.performCalls, hrows, List.length_append]
      exact Nat.le_add_right_of_le hgrown

theorem Session.stored_save {start session : Session} {attempt : SaveAttempt}
    {rows : List EventRow} (hgrown : start.Grown session)
    (hrows : (saveCalls attempt session.store session.tables).2.2.mtEvents
      = session.tables.mtEvents ++ rows) :
    start.stored (session.performCalls (.save attempt)) =
      start.stored session ++ rows.map EventRow.content :=
  Session.stored_append hgrown hrows

theorem Session.Balanced.perform {start session : Session}
    (hgrown : start.Grown session) (hbalanced : start.Balanced session)
    {op : Op} (hclean : CleanStep session op) :
    start.Balanced (session.performCalls op) := by
  cases op with
  | append event =>
      unfold Session.Balanced at hbalanced ⊢
      have hstored : start.stored (session.performCalls (.append event)) =
          start.stored session := rfl
      rw [hstored]
      simp only [Session.performCalls, EventStore.push, List.map_append]
      rw [← List.append_assoc]
      exact hbalanced.append_right _
  | save attempt =>
      obtain ⟨rows, hrows, heffect⟩ :=
        save_effect attempt session.store session.tables
      have hstored := Session.stored_save hgrown hrows
      unfold Session.Balanced at hbalanced ⊢
      rw [hstored]
      cases heffect with
      | complete _ hcleared hperm _ =>
          simp only [Session.performCalls, hcleared, List.map_nil,
            List.append_nil]
          exact (hperm.append_left _).trans hbalanced
      | nothing _ hkept hnone _ =>
          simpa [Session.performCalls, hkept, hnone] using hbalanced
      | partly _ _ _ hdirty => exact absurd hclean hdirty

/-- No step makes the surplus smaller, and one that is not clean makes it
larger. -/
theorem Session.surplus_perform {start session : Session}
    (hgrown : start.Grown session) (op : Op) :
    start.surplus session ≤ start.surplus (session.performCalls op) ∧
      (¬ CleanStep session op →
        start.surplus session < start.surplus (session.performCalls op)) := by
  cases op with
  | append event =>
      have hstored : start.stored (session.performCalls (.append event)) =
          start.stored session := rfl
      simp only [Session.surplus, hstored]
      simp [Session.performCalls, EventStore.push, CleanStep]
      omega
  | save attempt =>
      obtain ⟨rows, hrows, heffect⟩ :=
        save_effect attempt session.store session.tables
      have hstored := Session.stored_save hgrown hrows
      simp only [Session.surplus, hstored, List.length_append,
        List.length_map]
      cases heffect with
      | complete _ hcleared hperm hclean =>
          have hlength := hperm.length_eq
          rw [List.length_map, List.length_map] at hlength
          simp only [Session.performCalls, hcleared, List.length_nil]
          refine ⟨by omega, fun hdirty => absurd hclean hdirty⟩
      | nothing _ hkept hnone hclean =>
          simp only [Session.performCalls, hkept, hnone, List.length_nil]
          refine ⟨by omega, fun hdirty => absurd hclean hdirty⟩
      | partly _ hkept hsome _ =>
          have hpos := List.length_pos_iff.mpr hsome
          simp only [Session.performCalls, hkept]
          constructor <;> omega

theorem Session.returned_pending {session : Session} {op : Op}
    (hsucceeded : (session.performCalls op).Succeeded) :
    (session.performCalls op).store.pending = [] := by
  cases op with
  | append event => simp [Session.Succeeded, Session.performCalls] at hsucceeded
  | save attempt =>
      have hcode :
          (saveCalls attempt session.store session.tables).1.1 = 200 := by
        simpa [Session.Succeeded, Session.performCalls] using hsucceeded
      obtain ⟨rows, _, heffect⟩ :=
        save_effect attempt session.store session.tables
      cases heffect with
      | complete _ hcleared _ _ => exact hcleared
      | nothing hfailed _ _ _ => exact absurd hcode hfailed
      | partly hfailed _ _ _ => exact absurd hcode hfailed

theorem Session.surplus_run {start session final : Session} {ops : List Op}
    (hgrown : start.Grown session)
    (hrun : callSessions.run session ops = some final) :
    start.surplus session ≤ start.surplus final ∧
      (¬ callSessions.Guarded CleanStep session ops →
        start.surplus session < start.surplus final) := by
  induction ops generalizing session with
  | nil =>
      have heq : session = final := by simpa using hrun
      rw [heq]
      exact ⟨le_refl _, fun hdirty => absurd trivial hdirty⟩
  | cons op ops ih =>
      obtain ⟨next, hnext, hrest⟩ := Machine.run_cons_eq_some.mp hrun
      have hperform : session.performCalls op = next := by
        simpa [callSessions] using hnext
      obtain ⟨hle, hlt⟩ := Session.surplus_perform hgrown op
      have hgrownNext := hgrown.perform op
      rw [hperform] at hle hlt hgrownNext
      obtain ⟨hleRest, hltRest⟩ := ih hgrownNext hrest
      refine ⟨le_trans hle hleRest, fun hdirty => ?_⟩
      by_cases hclean : CleanStep session op
      · refine lt_of_le_of_lt hle (hltRest fun hguarded => hdirty ?_)
        refine ⟨hclean, fun other hother => ?_⟩
        have heq : next = other := Option.some.inj (hnext.symm.trans hother)
        exact heq ▸ hguarded
      · exact lt_of_lt_of_le (hlt hclean) hleRest

theorem Session.balanced_run {start final : Session} {ops : List Op}
    (hstart : callSessions.init start)
    (hclean : callSessions.Guarded CleanStep start ops)
    (hrun : callSessions.run start ops = some final) :
    start.Balanced final := by
  have hstep : ∀ session op next,
      start.Grown session ∧ start.Balanced session → CleanStep session op →
        callSessions.step session op = some next →
          start.Grown next ∧ start.Balanced next := by
    rintro session op next ⟨hgrown, hbalanced⟩ hop hnext
    have hperform : session.performCalls op = next := by
      simpa [callSessions] using hnext
    rw [← hperform]
    exact ⟨hgrown.perform op, hbalanced.perform hgrown hop⟩
  have hinit : start.Grown start ∧ start.Balanced start := by
    obtain ⟨hpending, happended, _⟩ := hstart
    refine ⟨le_refl _, ?_⟩
    simp [Session.Balanced, Session.stored, hpending, happended]
  exact (Machine.run_invariant_of_guarded hstep hclean hrun hinit).2

theorem Session.succeeded_pending {start final : Session} {ops : List Op}
    (hstart : callSessions.init start)
    (hrun : callSessions.run start ops = some final)
    (hsucceeded : final.Succeeded) : final.store.pending = [] := by
  rcases List.eq_nil_or_concat ops with rfl | ⟨before, op, rfl⟩
  · have heq : start = final := by simpa using hrun
    rw [← heq]
    exact hstart.1
  · rw [List.concat_eq_append] at hrun
    obtain ⟨session, _, hstep⟩ := Machine.run_concat_eq_some.mp hrun
    have hperform : session.performCalls op = final := by
      simpa [callSessions] using hstep
    rw [← hperform] at hsucceeded ⊢
    exact Session.returned_pending hsucceeded

/-- A session whose saves are all clean stores each event at most once, and
exactly once when a `save` has just succeeded; a session that has just
succeeded and stored each event at most once had only clean saves. -/
theorem callSessions_storedOnce {start final : Session} {ops : List Op}
    (hstart : callSessions.init start)
    (hrun : callSessions.run start ops = some final) :
    (callSessions.Guarded CleanStep start ops →
      start.StoredAtMostOnce final ∧
        (final.Succeeded → start.StoredExactlyOnce final)) ∧
    (final.Succeeded → start.StoredAtMostOnce final →
      callSessions.Guarded CleanStep start ops) := by
  constructor
  · intro hclean
    have hbalanced := Session.balanced_run hstart hclean hrun
    constructor
    · exact (List.sublist_append_left _ _).subperm.trans hbalanced.subperm
    · intro hsucceeded
      have hpending := Session.succeeded_pending hstart hrun hsucceeded
      simpa [Session.Balanced, Session.StoredExactlyOnce, hpending]
        using hbalanced
  · intro hsucceeded honce
    by_contra hdirty
    have hpending := Session.succeeded_pending hstart hrun hsucceeded
    have hlength := honce.length_le
    rw [List.length_map] at hlength
    have hlt := (Session.surplus_run (le_refl _) hrun).2 hdirty
    simp [Session.surplus, Session.stored, hstart.1, hstart.2.1,
      hpending] at hlt hlength
    omega

def orderPlaced : IEvent where
  seqId := 0
  id := []
  streamId := "00000000-0000-0000-0000-0000000000a1".toList
  type := "OrderPlaced".toList
  version := 0
  data := .null
  timestamp := 0

def orderShipped : IEvent := {
  orderPlaced with
  streamId := "00000000-0000-0000-0000-0000000000b2".toList
  type := "OrderShipped".toList }

def emptySession : Session where
  store := {}
  tables := emptyTables
  appended := []
  returned := none

def attemptFailingAt (failing : Option ℕ) (firstUuid : ℕ) : SaveAttempt where
  outcome k := if some k = failing
    then .executionException "canceling statement".toList
    else .executed []
  now _ := 0
  generateUuid k i := BitVec.ofNat 128 (firstUuid + 10 * k + i)

def retriedOps (failing : ℕ) : List Op :=
  [.append orderPlaced, .append orderShipped,
    .save (attemptFailingAt (some failing) 100),
    .save (attemptFailingAt none 200)]

end StoreCpp
