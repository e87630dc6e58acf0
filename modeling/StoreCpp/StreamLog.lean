import StoreCpp.AppendTransaction
import StoreCpp.SaveStatements

/-!
# Streams as logs

What the event tables are for: each stream is a log that only grows at its
end, and the version of a row is its place in the log of its stream.  One
`mt_append_event` that returns appends the events it was given to one log, and
a `save` appends to each log the pending events of that stream.
-/

namespace StoreCpp

def Tables.rowsAt (tables : Tables) (stream : Uuid) : List EventRow :=
  tables.mtEvents.filter fun row => row.streamId = stream

def Tables.log (tables : Tables) (stream : Uuid) : List (Str × Json) :=
  (tables.rowsAt stream).map EventRow.payload

/-- The rows of each stream have, in the order in which they were inserted,
the versions from 1 to the version of the stream. -/
def Tables.Ordered (tables : Tables) : Prop :=
  ∀ stream, versionsOf tables.mtEvents stream =
    List.range' 1 (tables.version stream)

/-- The tables after the events were appended to the log of a stream. -/
structure Tables.Appends (tables : Tables) (stream : Uuid)
    (events : List IEvent) (next : Tables) : Prop where
  ordered : tables.Ordered → next.Ordered
  appended : next.log stream = tables.log stream ++ events.map IEvent.payload
  others : ∀ other, other ≠ stream → next.log other = tables.log other

/-- The rows that the loop inserts, and the version that it leaves. -/
theorem appendLoop_rows {call : AppendCall} {now : Int64}
    {remaining index version : ℕ} {tables next : Tables}
    (hloop : appendLoop call now remaining index version tables = some next) :
    ∃ rows, next.mtEvents = tables.mtEvents ++ rows ∧
      (∀ row ∈ rows, row.streamId = call.stream) ∧
      rows.map EventRow.version = List.range' (version + 1) remaining ∧
      rows.map EventRow.payload =
        (call.payloads.drop index).take remaining ∧
      ∀ stream, next.mtStreams stream = if stream = call.stream
        then (tables.mtStreams stream).map fun row =>
          { row with version := version + remaining, timestamp := now }
        else tables.mtStreams stream := by
  induction remaining generalizing index version tables with
  | zero =>
      simp only [appendLoop, Option.some.injEq] at hloop
      subst next
      refine ⟨[], by simp, by simp, by simp, by simp, fun stream => ?_⟩
      by_cases hstream : stream = call.stream
      · rw [if_pos hstream, hstream]
        exact Function.update_self ..
      · rw [if_neg hstream]
        exact Function.update_of_ne hstream _ _
  | succ remaining ih =>
      simp only [appendLoop, Option.bind_eq_bind,
        Option.bind_eq_some_iff] at hloop
      obtain ⟨row, hrow, hloop⟩ := hloop
      obtain ⟨_, hpayload, _, hstream, hversion⟩ :=
        AppendCall.row_eq_some hrow
      split_ifs at hloop with hunique
      obtain ⟨rows, hevents, hstreams, hversions, hpayloads, hmtStreams⟩ :=
        ih hloop
      refine ⟨row :: rows, by simp [hevents], ?_, ?_, ?_, ?_⟩
      · exact List.forall_mem_cons.mpr ⟨hstream, hstreams⟩
      · rw [List.map_cons, hversions, hversion, List.range'_succ]
      · obtain ⟨hlt, hget⟩ := List.getElem?_eq_some_iff.mp hpayload
        rw [List.drop_eq_getElem_cons hlt, List.take_succ_cons, hget,
          List.map_cons, hpayloads]
        rfl
      · intro stream
        rw [hmtStreams stream, Nat.add_right_comm, Nat.add_assoc]

theorem rowsAt_append {tables next : Tables} {rows : List EventRow}
    (hrows : next.mtEvents = tables.mtEvents ++ rows) (stream : Uuid) :
    next.rowsAt stream =
      tables.rowsAt stream ++ rows.filter fun row => row.streamId = stream := by
  rw [Tables.rowsAt, hrows, List.filter_append]
  rfl

/-- The tables in which the loop starts: the stream has a row, and nothing
else differs. -/
structure Tables.Opened (tables : Tables) (stream : Uuid)
    (opened : Tables) : Prop where
  events : opened.mtEvents = tables.mtEvents
  present : (opened.mtStreams stream).isSome
  others : ∀ other, other ≠ stream →
    opened.mtStreams other = tables.mtStreams other

theorem appendLoop_opened {stream : Uuid} {events : List IEvent}
    {eventIds : List Uuid} {now : Int64} {tables opened next : Tables}
    (hlength : eventIds.length = events.length)
    (hopened : tables.Opened stream opened)
    (hloop : appendLoop (groupCall stream events eventIds) now
      eventIds.length 0 (tables.version stream) opened = some next) :
    ∃ rows, next.mtEvents = tables.mtEvents ++ rows ∧
      RowsOf stream (tables.version stream) events rows ∧
      next.version stream = tables.version stream + rows.length ∧
      ∀ other, other ≠ stream → next.version other = tables.version other := by
  obtain ⟨rows, hevents, hstreams, hversions, hpayloads, hmtStreams⟩ :=
    appendLoop_rows hloop
  have hcount : rows.length = eventIds.length := by
    simpa using congrArg List.length hversions
  refine ⟨rows, by rw [hevents, hopened.events], ⟨hstreams, ?_, ?_⟩, ?_, ?_⟩
  · rw [hversions, hcount]
  · rw [hpayloads, groupCall_payloads, List.drop_zero,
      List.take_of_length_le (by simp [hlength])]
    rfl
  · obtain ⟨row, hrow⟩ := Option.isSome_iff_exists.mp hopened.present
    have hstream := (hmtStreams stream).trans (if_pos rfl)
    rw [hrow] at hstream
    rw [Tables.version, hstream, hcount]
    rfl
  · intro other hother
    have hstream := (hmtStreams other).trans (if_neg hother)
    rw [hopened.others other hother] at hstream
    rw [Tables.version, hstream]
    rfl

theorem mtAppendEvent_rows {stream : Uuid} {events : List IEvent}
    {eventIds : List Uuid} {now : Int64} {tables next : Tables}
    (hlength : eventIds.length = events.length)
    (happend : mtAppendEvent (groupCall stream events eventIds) now tables =
      some next) :
    ∃ rows, next.mtEvents = tables.mtEvents ++ rows ∧
      RowsOf stream (tables.version stream) events rows ∧
      next.version stream = tables.version stream + rows.length ∧
      ∀ other, other ≠ stream → next.version other = tables.version other := by
  unfold mtAppendEvent at happend
  cases hrow : tables.mtStreams stream with
  | some row =>
      have hversion : tables.version stream = row.version := by
        rw [Tables.version, hrow]
        rfl
      have hopened : tables.Opened stream tables :=
        ⟨rfl, by rw [hrow]; rfl, fun _ _ => rfl⟩
      simp only [groupCall, hrow] at happend
      rw [← hversion] at happend
      exact appendLoop_opened hlength hopened happend
  | none =>
      have hversion : tables.version stream = 0 := by
        rw [Tables.version, hrow]
        rfl
      simp only [groupCall, hrow] at happend
      let opened : Tables := { tables with
        mtStreams := Function.update tables.mtStreams stream (some {
          type := (events.map IEvent.type).headD []
          version := 0
          timestamp := now }) }
      have hopened : tables.Opened stream opened := by
        refine ⟨rfl, by simp [opened], fun other hother => ?_⟩
        exact Function.update_of_ne hother _ _
      have hloop : appendLoop (groupCall stream events eventIds) now
          eventIds.length 0 (tables.version stream) opened = some next := by
        rw [hversion]
        exact happend
      exact appendLoop_opened hlength hopened hloop

theorem mtAppendEvent_appends {stream : Uuid} {events : List IEvent}
    {eventIds : List Uuid} {now : Int64} {tables next : Tables}
    (hlength : eventIds.length = events.length)
    (happend : mtAppendEvent (groupCall stream events eventIds) now tables =
      some next) : tables.Appends stream events next := by
  obtain ⟨rows, hevents, hrows, hversion, hothers⟩ :=
    mtAppendEvent_rows hlength happend
  have hlog : ∀ other, next.log other = tables.log other ++
      (rows.filter fun row => row.streamId = other).map EventRow.payload := by
    intro other
    rw [Tables.log, rowsAt_append hevents, List.map_append]
    rfl
  constructor
  · intro hordered other
    rw [hevents, versionsOf_append, hordered other]
    by_cases hother : other = stream
    · subst other
      rw [hrows.versionsOf_self, hversion, Nat.add_comm _ 1,
        List.range'_append_1]
    · rw [hrows.versionsOf_other hother, hothers other hother,
        List.append_nil]
  · have hall : (rows.filter fun row => row.streamId = stream) = rows := by
      rw [List.filter_eq_self]
      intro row hrow
      simpa using hrows.streams row hrow
    rw [hlog, hall, hrows.payloads]
  · intro other hother
    have hnone : (rows.filter fun row => row.streamId = other) = [] := by
      rw [List.filter_eq_nil_iff]
      intro row hrow
      simpa [hrows.streams row hrow] using hother.symm
    rw [hlog, hnone]
    simp

/-! ## Saving pending events -/

/-- The pending events of one stream, whichever way their texts spell it. -/
def EventStore.pendingLog (store : EventStore) (stream : Uuid) :
    List (Str × Json) :=
  (store.pending.filter fun event => uuidIn event.streamId = some stream).map
    IEvent.payload

/-- Streams are named as the client's uuid library prints them. -/
def EventStore.Canonical (store : EventStore) : Prop :=
  ∀ event ∈ store.pending, ∃ stream, event.streamId = uuidOut stream

def sentLog (groups : List (Str × List IEvent)) (stream : Uuid) :
    List (Str × Json) :=
  (groups.filter fun group => uuidIn group.1 = some stream).flatMap
    fun group => group.2.map IEvent.payload

theorem appendGroup_appends {attempt : SaveAttempt} {k : ℕ}
    {group : Str × List IEvent} {tables next : Tables}
    (hsend : appendGroup attempt k group tables = .ok next) :
    ∃ stream, uuidIn group.1 = some stream ∧
      tables.Appends stream group.2 next := by
  obtain ⟨stream, hstream, happend⟩ :=
    Option.bind_eq_some_iff.mp (SaveAttempt.answer_eq_ok hsend)
  exact ⟨stream, hstream, mtAppendEvent_appends
    (eventIds_length attempt k group.2) happend⟩

/-- The statements of a save keep the versions in order, and the ones that
were executed append their events to the logs. -/
theorem appendGroups_appends {attempt : SaveAttempt} {k : ℕ}
    {groups : List (Str × List IEvent)} {tables next : Tables}
    {error : Option (ErrorType × Str)}
    (hsend : appendGroups attempt k groups tables = (error, next)) :
    (tables.Ordered → next.Ordered) ∧
      (AllExecuted attempt k groups tables → ∀ stream,
        next.log stream = tables.log stream ++ sentLog groups stream) := by
  induction groups generalizing k tables with
  | nil =>
      cases hsend
      exact ⟨id, fun _ stream => (List.append_nil _).symm⟩
  | cons group rest ih =>
      rw [appendGroups] at hsend
      cases hgroup : appendGroup attempt k group tables with
      | error failure =>
          rw [hgroup] at hsend
          cases hsend
          refine ⟨id, ?_⟩
          rintro ⟨middle, hmiddle, _⟩
          rw [hgroup] at hmiddle
          cases hmiddle
      | ok middle =>
          rw [hgroup] at hsend
          obtain ⟨hordered, hlog⟩ := ih hsend
          obtain ⟨stream, hstream, happends⟩ := appendGroup_appends hgroup
          refine ⟨hordered ∘ happends.ordered, ?_⟩
          rintro ⟨after, hafter, hall⟩ other
          rw [hgroup] at hafter
          cases hafter
          rw [hlog hall other]
          by_cases hother : other = stream
          · subst other
            rw [happends.appended, List.append_assoc]
            simp [sentLog, hstream]
          · rw [happends.others other hother]
            simp [sentLog, hstream, Ne.symm hother]

theorem WellGrouped.flatMap_filter {ν : Type*}
    {groups : List (Str × List ν)} (hgroups : WellGrouped groups) (key : Str) :
    (groups.filter fun group => group.1 = key).flatMap Prod.snd =
      groupAt key groups := by
  induction groups with
  | nil => rfl
  | cons group rest ih =>
      obtain ⟨hhead, htail⟩ := List.pairwise_cons.mp hgroups.sorted
      have hrest : WellGrouped rest :=
        ⟨htail, fun g hg => hgroups.nonempty g (List.mem_cons_of_mem _ hg)⟩
      by_cases hkey : group.1 = key
      · have hnone : (rest.filter fun g => g.1 = key) = [] := by
          rw [List.filter_eq_nil_iff]
          intro g hg
          simpa [← hkey] using (hhead g hg).ne'
        simp [hkey, hnone, groupAt]
      · have hne : key ≠ group.1 := fun heq => hkey heq.symm
        simp only [List.filter_cons, hkey, decide_false, groupAt, if_neg hne]
        exact ih hrest

theorem EventStore.Canonical.streamId_iff {store : EventStore}
    (hstore : store.Canonical) {event : IEvent} (hevent : event ∈ store.pending)
    (stream : Uuid) :
    uuidIn event.streamId = some stream ↔ event.streamId = uuidOut stream := by
  obtain ⟨other, hother⟩ := hstore event hevent
  constructor
  · intro hstream
    rw [hother, uuidIn_uuidOut] at hstream
    rw [hother, Option.some.inj hstream]
  · intro hstream
    rw [hstream, uuidIn_uuidOut]

/-- With one text for each stream, the groups hold the pending events of each
stream in their order. -/
theorem EventStore.Canonical.sentLog_groups {store : EventStore}
    (hstore : store.Canonical) (stream : Uuid) :
    sentLog store.groups stream = store.pendingLog stream := by
  have hkeys : (store.groups.filter fun group =>
        uuidIn group.1 = some stream) =
      store.groups.filter fun group => group.1 = uuidOut stream := by
    apply List.filter_congr
    intro group hgroup
    obtain ⟨event, hevent⟩ :=
      List.exists_mem_of_ne_nil _ (store_groups_nonempty store group hgroup)
    have hkey := store_groups_streamId store group hgroup event hevent
    have hpending : event ∈ store.pending :=
      (store_groups_flatten store).subset
        (List.mem_flatMap.mpr ⟨group, hgroup, hevent⟩)
    rw [← hkey]
    simpa using hstore.streamId_iff hpending stream
  have hevents : (store.pending.filter fun event =>
        uuidIn event.streamId = some stream) =
      store.pending.filter fun event => event.streamId = uuidOut stream := by
    apply List.filter_congr
    intro event hevent
    simpa using hstore.streamId_iff hevent stream
  have hgrouped : WellGrouped store.groups :=
    wellGrouped_groupBy IEvent.streamId store.pending
  have hgroup : groupAt (uuidOut stream) store.groups =
      store.pending.filter fun event => event.streamId = uuidOut stream := by
    refine (groupAt_groupBy _ _ _).trans (List.filter_congr fun _ _ => ?_)
    exact decide_eq_decide.mpr Iff.rfl
  rw [sentLog, hkeys, EventStore.pendingLog, hevents, ← hgroup,
    ← hgrouped.flatMap_filter, List.map_flatMap]

theorem appendGroups_of_cleanSave {attempt : SaveAttempt} {tables next : Tables}
    {groups : List (Str × List IEvent)} {failure : ErrorType × Str}
    (hclean : CleanSave attempt tables groups)
    (hsend : appendGroups attempt 0 groups tables = (some failure, next)) :
    next = tables := by
  cases groups with
  | nil => cases hsend
  | cons group rest =>
      rcases hclean with ⟨error, herror⟩ | hall
      · rw [appendGroups, herror] at hsend
        cases hsend
        rfl
      · rw [allExecuted_iff, hsend] at hall
        cases hall

theorem cleanSave_of_allExecuted {attempt : SaveAttempt} {tables : Tables}
    {groups : List (Str × List IEvent)}
    (hall : AllExecuted attempt 0 groups tables) :
    CleanSave attempt tables groups := by
  cases groups with
  | nil => trivial
  | cons group rest => exact Or.inr hall

/-- A save keeps the versions in order.  If it is clean it moves the pending
events of every stream to the end of its log or leaves everything as it was,
and if every statement is executed none stays pending. -/
theorem saveCalls_logs (attempt : SaveAttempt) {store : EventStore}
    (tables : Tables) (hstore : store.Canonical) :
    (tables.Ordered → (saveCalls attempt store tables).2.2.Ordered) ∧
      (saveCalls attempt store tables).2.1.Canonical ∧
      (CleanSave attempt tables store.groups → ∀ stream,
        (saveCalls attempt store tables).2.2.log stream ++
            (saveCalls attempt store tables).2.1.pendingLog stream =
          tables.log stream ++ store.pendingLog stream) ∧
      (AllExecuted attempt 0 store.groups tables →
        (saveCalls attempt store tables).2.1.pending = []) := by
  cases hsend : appendGroups attempt 0 store.groups tables with
  | mk error next =>
      obtain ⟨hordered, hlog⟩ := appendGroups_appends hsend
      cases error with
      | none =>
          have hall : AllExecuted attempt 0 store.groups tables := by
            rw [allExecuted_iff, hsend]
          simp only [saveCalls, hsend]
          refine ⟨hordered, by simp [EventStore.Canonical, EventStore.reset],
            fun _ stream => ?_, fun _ => rfl⟩
          rw [hlog hall stream, hstore.sentLog_groups]
          simp [EventStore.pendingLog, EventStore.reset]
      | some failure =>
          simp only [saveCalls, hsend]
          refine ⟨hordered, hstore, fun hclean stream => ?_, fun hall => ?_⟩
          · rw [appendGroups_of_cleanSave hclean hsend]
          · rw [allExecuted_iff, hsend] at hall
            cases hall

/-! ## Copying events to another store -/

def EventStore.appendAll (store : EventStore) (events : List IEvent) :
    EventStore :=
  events.foldl EventStore.push store

theorem appendAll_pending (store : EventStore) (events : List IEvent) :
    (store.appendAll events).pending = store.pending ++ events := by
  induction events generalizing store with
  | nil => exact (List.append_nil _).symm
  | cons event events ih =>
      have hpush := ih (store.push event)
      rw [EventStore.push, List.append_assoc] at hpush
      exact hpush

def copyAttempt : SaveAttempt where
  outcome _ := .executed []
  now _ := 0
  generateUuid _ i := BitVec.ofNat 128 (500 + i)

end StoreCpp
