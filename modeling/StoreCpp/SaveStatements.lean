import StoreCpp.QuotedStatements
import StoreCpp.UuidText

/-!
# The statements of `Save` as texts

`Save` sends texts.  It dumps the JSON of a group's events, which may throw,
quotes every value with `$Q$` and splices the literals into one statement; the
server reads the literals back and calls `mt_append_event` with them.  A text
that is not read as it was meant is some other statement.  Where every text is
read as it was meant, `Save` does what `saveCalls` does.
-/

namespace StoreCpp

open Printf DollarQuote StepMachine

/-- What the program leaves to others: `dump()`, `none` where it throws, and
what the server does with a statement other than the one that was meant. -/
structure Texts where
  dump : Json → Option Str
  otherStatement : Str → Tables → Option Tables

theorem uuidDigit_mem (u : Uuid) (k : ℕ) :
    uuidDigit u k ∈ "0123456789abcdefABCDEF-".toList := by
  have hall : ∀ i < 16, hexDigits.getD i '0' ∈
      "0123456789abcdefABCDEF-".toList := by
    decide +kernel
  exact hall _ (Nat.mod_lt _ (by omega))

theorem uuidTail_wellFormed (u : Uuid) (count : ℕ) :
    ∀ c ∈ uuidTail u count, c ∈ "0123456789abcdefABCDEF-".toList := by
  induction count with
  | zero => simp [uuidTail]
  | succ count ih =>
      have hhyphen : '-' ∈ "0123456789abcdefABCDEF-".toList := by decide
      intro c hc
      rw [uuidTail, List.mem_cons, List.mem_cons, List.mem_append] at hc
      rcases hc with rfl | rfl | hc | hc
      · exact uuidDigit_mem u _
      · exact uuidDigit_mem u _
      · split_ifs at hc
        · rw [List.mem_singleton.mp hc]
          exact hhyphen
        · cases hc
      · exact ih c hc

/-- `generate_uuid`, as its library prints it. -/
def uuidText (u : Uuid) : UuidText where
  text := uuidOut u
  wellFormed := uuidTail_wellFormed u 16

namespace Texts

def body (texts : Texts) (j : Json) : Str := (texts.dump j).getD []

/-- The text of the statement for a group; `none` where `dump()` or
`string_format` throws. -/
def statement (texts : Texts) (generateUuid : ℕ → Uuid) (dbSchema : Str)
    (group : Str × List IEvent) : Option Str :=
  if group.2.all fun event => (texts.dump event.data).isSome then
    appendStatement texts.body (fun i => uuidText (generateUuid i)) dbSchema
      group.1 group.2
  else none

/-- The server finds the literals that were meant. -/
def ReadAsMeant (texts : Texts) (generateUuid : ℕ → Uuid) (dbSchema : Str)
    (group : Str × List IEvent) (sql : Str) : Prop :=
  lex dollarQ sql = some
    ((Statement.append dbSchema group.1 group.2).pieces texts.body
        (fun i => uuidText (generateUuid i)),
      (Statement.append dbSchema group.1 group.2).tail)

instance (texts : Texts) (generateUuid : ℕ → Uuid) (dbSchema : Str)
    (group : Str × List IEvent) (sql : Str) :
    Decidable (texts.ReadAsMeant generateUuid dbSchema group sql) :=
  inferInstanceAs (Decidable (_ = _))

/-- What a group must be for that: a statement of it can be built, and neither
the schema nor the values interfere with the quoting. -/
structure Reads (texts : Texts) (generateUuid : ℕ → Uuid) (dbSchema : Str)
    (group : Str × List IEvent) : Prop where
  built : (texts.statement generateUuid dbSchema group).isSome
  schema : ¬ dollarQ.text <:+: cstr dbSchema
  streamId : Readable group.1
  events : ∀ event ∈ group.2,
    Readable event.type ∧ Readable (texts.body event.data)

instance (texts : Texts) (generateUuid : ℕ → Uuid) (dbSchema : Str)
    (group : Str × List IEvent) :
    Decidable (texts.Reads generateUuid dbSchema group) :=
  decidable_of_iff
    ((texts.statement generateUuid dbSchema group).isSome ∧
      ¬ dollarQ.text <:+: cstr dbSchema ∧ Readable group.1 ∧
      ∀ event ∈ group.2,
        Readable event.type ∧ Readable (texts.body event.data))
    ⟨fun h => ⟨h.1, h.2.1, h.2.2.1, h.2.2.2⟩,
      fun h => ⟨h.built, h.schema, h.streamId, h.events⟩⟩

theorem reads_iff (texts : Texts) (generateUuid : ℕ → Uuid) (dbSchema : Str)
    (group : Str × List IEvent) :
    texts.Reads generateUuid dbSchema group ↔
      ∃ sql, texts.statement generateUuid dbSchema group = some sql ∧
        texts.ReadAsMeant generateUuid dbSchema group sql := by
  have hlex : ∀ sql, texts.statement generateUuid dbSchema group = some sql →
      (texts.ReadAsMeant generateUuid dbSchema group sql ↔
        ¬ dollarQ.text <:+: cstr dbSchema ∧ Readable group.1 ∧
          ∀ event ∈ group.2,
            Readable event.type ∧ Readable (texts.body event.data)) := by
    intro sql hsql
    unfold statement at hsql
    split_ifs at hsql
    have happend : (Statement.append dbSchema group.1 group.2).sql texts.body
        (fun i => uuidText (generateUuid i)) = some sql := hsql
    unfold ReadAsMeant
    rw [lex_eq_some_iff (nul_notMem_append hsql) (append_eq_render hsql)
      (Statement.tail_noDelimiter _), Statement.readable_pieces_iff happend,
      Statement.closed_pieces_iff]
    simp only [Statement.names, Statement.values, List.forall_mem_cons,
      List.forall_mem_flatMap, List.not_mem_nil, false_implies, implies_true,
      and_true]
  constructor
  · intro hreads
    obtain ⟨sql, hsql⟩ := Option.isSome_iff_exists.mp hreads.built
    exact ⟨sql, hsql, (hlex sql hsql).mpr
      ⟨hreads.schema, hreads.streamId, hreads.events⟩⟩
  · rintro ⟨sql, hsql, hmeant⟩
    obtain ⟨hschema, hstreamId, hevents⟩ := (hlex sql hsql).mp hmeant
    exact ⟨by rw [hsql]; rfl, hschema, hstreamId, hevents⟩

end Texts

/-! ## `Save` -/

/-- The exception that left `Save`, or what a handler made of the one that it
caught. -/
abbrev SaveFailure := Option (ErrorType × Str)

def sendGroup (texts : Texts) (attempt : SaveAttempt) (k : ℕ)
    (dbSchema : Str) (group : Str × List IEvent) (tables : Tables) :
    Except SaveFailure Tables :=
  match texts.statement (attempt.generateUuid k) dbSchema group with
  -- the statement is built outside of the `try` block
  | none => .error none
  | some sql =>
      let effect :=
        if texts.ReadAsMeant (attempt.generateUuid k) dbSchema group sql then
          attempt.groupEffect k group tables
        else texts.otherStatement sql tables
      (attempt.answer k effect).mapError some

def sendGroups (texts : Texts) (attempt : SaveAttempt) (dbSchema : Str) :
    ℕ → List (Str × List IEvent) → Tables → Option SaveFailure × Tables
  | _, [], tables => (none, tables)
  | k, group :: rest, tables =>
      match sendGroup texts attempt k dbSchema group tables with
      | .ok next => sendGroups texts attempt dbSchema (k + 1) rest next
      | .error failure => (some failure, tables)

/-- What the call returns, `none` where an exception leaves it, with the store
and the tables after it. -/
def save (texts : Texts) (attempt : SaveAttempt) (store : EventStore)
    (tables : Tables) : Option (ℕ × Str) × EventStore × Tables :=
  match sendGroups texts attempt store.dbSchema 0 store.groups tables with
  | (none, next) =>
      (some (ErrorType.none.code, "Succeeded".toList), store.reset, next)
  | (some failure, next) =>
      (failure.map fun error => (error.1.code, error.2), store, next)

/-- Every statement that a `save` may send is read as it was meant. -/
def SaveReads (texts : Texts) (attempt : SaveAttempt) (dbSchema : Str) :
    ℕ → List (Str × List IEvent) → Prop
  | _, [] => True
  | k, group :: rest =>
      texts.Reads (attempt.generateUuid k) dbSchema group ∧
        SaveReads texts attempt dbSchema (k + 1) rest

def decideSaveReads (texts : Texts) (attempt : SaveAttempt)
    (dbSchema : Str) : ∀ k groups,
      Decidable (SaveReads texts attempt dbSchema k groups)
  | _, [] => isTrue trivial
  | k, _ :: rest =>
      have := decideSaveReads texts attempt dbSchema (k + 1) rest
      inferInstanceAs (Decidable (_ ∧ _))

instance (texts : Texts) (attempt : SaveAttempt) (dbSchema : Str) (k : ℕ)
    (groups : List (Str × List IEvent)) :
    Decidable (SaveReads texts attempt dbSchema k groups) :=
  decideSaveReads texts attempt dbSchema k groups

section Refinement

variable {texts : Texts} {attempt : SaveAttempt} {dbSchema : Str}

theorem sendGroup_eq {k : ℕ} {group : Str × List IEvent}
    (hreads : texts.Reads (attempt.generateUuid k) dbSchema group)
    (tables : Tables) :
    sendGroup texts attempt k dbSchema group tables =
      (appendGroup attempt k group tables).mapError some := by
  obtain ⟨sql, hsql, hmeant⟩ := (Texts.reads_iff _ _ _ _).mp hreads
  unfold sendGroup appendGroup
  rw [hsql]
  dsimp only
  rw [if_pos hmeant]

theorem sendGroups_eq {k : ℕ} {groups : List (Str × List IEvent)}
    (hreads : SaveReads texts attempt dbSchema k groups) (tables : Tables) :
    sendGroups texts attempt dbSchema k groups tables =
      ((appendGroups attempt k groups tables).1.map some,
        (appendGroups attempt k groups tables).2) := by
  induction groups generalizing k tables with
  | nil => rfl
  | cons group rest ih =>
      rw [sendGroups, appendGroups, sendGroup_eq hreads.1]
      cases appendGroup attempt k group tables with
      | ok next => exact ih hreads.2 next
      | error error => rfl

/-- `Save` on texts refines `Save` on calls. -/
theorem save_eq {store : EventStore}
    (hreads : SaveReads texts attempt store.dbSchema 0 store.groups)
    (tables : Tables) :
    save texts attempt store tables =
      (some (saveCalls attempt store tables).1,
        (saveCalls attempt store tables).2) := by
  unfold save saveCalls
  rw [sendGroups_eq hreads]
  obtain ⟨error, next⟩ := appendGroups attempt 0 store.groups tables
  cases error with
  | none => rfl
  | some error => rfl

end Refinement

/-! ## Sessions -/

def Session.perform (texts : Texts) (session : Session) : Op → Session
  | .append event => {
      session with
      store := session.store.push event
      appended := session.appended ++ [event]
      returned := none }
  | .save attempt =>
      let result := StoreCpp.save texts attempt session.store session.tables
      { session with
        store := result.2.1
        tables := result.2.2
        returned := result.1 }

def sessions (texts : Texts) : Machine Session Op where
  init := callSessions.init
  step session op := some (session.perform texts op)

/-- The texts of a `save` are read as they were meant. -/
def ReadStep (texts : Texts) (session : Session) : Op → Prop
  | .append _ => True
  | .save attempt =>
      SaveReads texts attempt session.store.dbSchema 0 session.store.groups

instance (texts : Texts) (session : Session) :
    ∀ op, Decidable (ReadStep texts session op)
  | .append _ => isTrue trivial
  | .save _ => inferInstanceAs (Decidable (SaveReads ..))

theorem Session.perform_eq {texts : Texts} {session : Session} {op : Op}
    (hread : ReadStep texts session op) :
    session.perform texts op = session.performCalls op := by
  cases op with
  | append event => rfl
  | save attempt =>
      simp only [Session.perform, Session.performCalls]
      rw [save_eq hread]

theorem sessions_run_eq {texts : Texts} {session : Session} {ops : List Op}
    (hread : (sessions texts).Guarded (ReadStep texts) session ops) :
    (sessions texts).run session ops = callSessions.run session ops ∧
      ∀ guard, (sessions texts).Guarded guard session ops ↔
        callSessions.Guarded guard session ops :=
  Machine.run_eq_of_guarded
    (fun _ _ hstep => congrArg some (Session.perform_eq hstep)) hread

/-- A session whose saves are all clean and send only texts that are read as
they were meant stores each event at most once, and exactly once when a `save`
has just succeeded.  A session of such texts that has just succeeded and
stored each event at most once had only clean saves. -/
theorem storedOnce_of_clean {texts : Texts} {start final : Session}
    {ops : List Op} (hstart : (sessions texts).init start)
    (hrun : (sessions texts).run start ops = some final) :
    ((sessions texts).Guarded
        (fun session op => ReadStep texts session op ∧ CleanStep session op)
        start ops →
      start.StoredAtMostOnce final ∧
        (final.Succeeded → start.StoredExactlyOnce final)) ∧
    ((sessions texts).Guarded (ReadStep texts) start ops →
      final.Succeeded → start.StoredAtMostOnce final →
        (sessions texts).Guarded CleanStep start ops) := by
  constructor
  · intro hguard
    have hread := (sessions texts).guarded_mono (fun _ _ => And.left) hguard
    have hclean := (sessions texts).guarded_mono (fun _ _ => And.right) hguard
    obtain ⟨hsame, hguards⟩ := sessions_run_eq hread
    rw [hsame] at hrun
    exact (callSessions_storedOnce hstart hrun).1
      ((hguards CleanStep).mp hclean)
  · intro hread hsucceeded honce
    obtain ⟨hsame, hguards⟩ := sessions_run_eq hread
    rw [hsame] at hrun
    exact (hguards CleanStep).mpr
      ((callSessions_storedOnce hstart hrun).2 hsucceeded honce)

/-- Every document is dumped as `null`, and any other statement fails. -/
def nullTexts : Texts where
  dump _ := some "null".toList
  otherStatement _ _ := none

def retriedSession (failing : ℕ) : Session :=
  (retriedOps failing).foldl Session.performCalls emptySession

theorem retriedOps_read :
    ∀ failing < 2, (sessions nullTexts).Guarded (ReadStep nullTexts)
      emptySession (retriedOps failing) := by
  have hcalls : ∀ failing < 2, callSessions.Guarded (ReadStep nullTexts)
      emptySession (retriedOps failing) := by
    decide +kernel
  have hstep : ∀ session op, ReadStep nullTexts session op →
      callSessions.step session op = (sessions nullTexts).step session op :=
    fun _ _ hread => congrArg some (Session.perform_eq hread).symm
  intro failing hlt
  have hsame := Machine.run_eq_of_guarded hstep (hcalls failing hlt)
  exact (hsame.2 (ReadStep nullTexts)).mp (hcalls failing hlt)

theorem retriedSession_zero_storedOnce :
    (sessions nullTexts).run emptySession (retriedOps 0) =
        some (retriedSession 0) ∧
      emptySession.StoredAtMostOnce (retriedSession 0) ∧
      emptySession.StoredExactlyOnce (retriedSession 0) := by
  have hclean : callSessions.Guarded CleanStep emptySession (retriedOps 0) := by
    refine ⟨trivial, ?_⟩
    rintro _ ⟨⟩
    refine ⟨trivial, ?_⟩
    rintro _ ⟨⟩
    refine ⟨Or.inl ⟨_, rfl⟩, ?_⟩
    rintro _ ⟨⟩
    refine ⟨Or.inr ⟨_, rfl, _, rfl, trivial⟩, ?_⟩
    rintro _ ⟨⟩
    trivial
  have hread := retriedOps_read 0 (by decide)
  obtain ⟨hsame, hguards⟩ := sessions_run_eq hread
  have hrun : (sessions nullTexts).run emptySession (retriedOps 0) =
      some (retriedSession 0) := hsame
  have hguard := (sessions nullTexts).guarded_and hread
    ((hguards CleanStep).mpr hclean)
  have hstored := (storedOnce_of_clean ⟨rfl, rfl, rfl⟩ hrun).1 hguard
  exact ⟨hrun, hstored.1, hstored.2 rfl⟩

/-- The second statement of the first `Save` fails, so the retry stores the
first stream's event again. -/
theorem retriedSession_one_storedTwice :
    ¬ ∀ (texts : Texts) (start final : Session) (ops : List Op),
      (sessions texts).init start →
        (sessions texts).run start ops = some final →
          start.StoredAtMostOnce final ∧
            (final.Succeeded → start.StoredExactlyOnce final) := by
  intro hclaim
  have hrun : (sessions nullTexts).run emptySession (retriedOps 1) =
      some (retriedSession 1) :=
    (sessions_run_eq (retriedOps_read 1 (by decide))).1
  have honce := (hclaim nullTexts emptySession (retriedSession 1)
    (retriedOps 1) ⟨rfl, rfl, rfl⟩ hrun).1
  have hlength := honce.length_le
  have hstored : (emptySession.stored (retriedSession 1)).length = 3 := rfl
  have happended :
      ((retriedSession 1).appended.map IEvent.content).length = 2 := rfl
  omega

end StoreCpp
