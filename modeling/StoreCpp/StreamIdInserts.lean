import StoreCpp.SaveErrorType

/-!
# The result of `createStreamId`

`createStreamId` issues one insert for each entry of its map and overwrites
its result with that of the insert each time.  What the pool and the driver do
at each insert is part of a run.
-/

namespace StoreCpp

open Printf ResourcePool

/-- A `std::map` from stream types to stream ids. -/
structure StreamIds where
  entries : List (Str × Str)
  sorted : (entries.map Prod.fst).Pairwise (· < ·)

def streamIdFormat : Str :=
  "\n              insert into %s.%s (id, type, version)".toList ++
  "\n              values ('%s', '%s', 0)".toList ++
  "\n              on conflict (id) do nothing".toList ++
  "\n            ".toList

def streamIdStatement (dbSchema : Str) (e : Str × Str) : Option Str :=
  stringFormat streamIdFormat [
    .str dbSchema,
    .str "mt_streams".toList,
    .str e.2,
    .str e.1]

section Runs

variable {σ κ ρ π : Type}

namespace PgClient

/-- The loop of `createStreamId`, with the driver of each insert. -/
def insertStreamIds (pool : ClientPool σ κ) (driver : ℕ → Driver κ ρ π)
    (dbSchema : Str) :
    ℕ → List (Str × Str) → Str → Traced σ κ → Option (Str × Traced σ κ)
  | _, [], retval, state => some (retval, state)
  | k, e :: rest, _, state => do
      let sql ← streamIdStatement dbSchema e
      let (saved, state) ← save pool (driver k) sql none state
      insertStreamIds pool driver dbSchema (k + 1) rest
        (saved.1 ++ ";".toList) state

def createStreamId (pool : ClientPool σ κ) (driver : ℕ → Driver κ ρ π)
    (streamIds : StreamIds) (dbSchema : Str) (state : Traced σ κ) :
    Option (Str × Traced σ κ) :=
  insertStreamIds pool driver dbSchema 0 streamIds.entries [] state

/-- What each insert that is issued throws, if anything. -/
def insertsThrow (pool : ClientPool σ κ) (driver : ℕ → Driver κ ρ π)
    (dbSchema : Str) :
    ℕ → List (Str × Str) → Traced σ κ → List (Option Thrown)
  | _, [], _ => []
  | k, e :: rest, state =>
      (streamIdStatement dbSchema e).elim [] fun sql =>
        saveThrows pool (driver k) sql state ::
          (save pool (driver k) sql none state).elim [] fun left =>
            insertsThrow pool driver dbSchema (k + 1) rest left.2

end PgClient

structure StreamIdRun (σ κ ρ π : Type) where
  pool : ClientPool σ κ
  driver : ℕ → Driver κ ρ π
  state : Traced σ κ

variable (streamIds : StreamIds) (dbSchema : Str)

def StreamIdRun.returned (run : StreamIdRun σ κ ρ π) : Option Str :=
  (PgClient.createStreamId run.pool run.driver streamIds dbSchema
    run.state).map Prod.fst

def StreamIdRun.throws (run : StreamIdRun σ κ ρ π) : List (Option Thrown) :=
  PgClient.insertsThrow run.pool run.driver dbSchema 0 streamIds.entries
    run.state

def StreamIdRun.AllSucceed (run : StreamIdRun σ κ ρ π) : Prop :=
  ∀ outcome ∈ run.throws streamIds dbSchema, outcome = none

/-- What a run with a failed insert returns is returned by no run in which all
inserts succeed. -/
def StreamIdRun.TellsFailure (run : StreamIdRun σ κ ρ π) : Prop :=
  ¬ run.AllSucceed streamIds dbSchema →
    ∀ text, run.returned streamIds dbSchema = some text →
      ∀ {σ' κ' ρ' π' : Type} (other : StreamIdRun σ' κ' ρ' π'),
        other.AllSucceed streamIds dbSchema →
          other.returned streamIds dbSchema ≠ some text

/-- The last insert fails, with another message than that of a success. -/
def StreamIdRun.LastFails (run : StreamIdRun σ κ ρ π) : Prop :=
  ∃ thrown, (run.throws streamIds dbSchema).getLast? = some (some thrown) ∧
    thrown.error.2 ≠ "Succeeded".toList

/-- A statement is too long, all inserts succeed, or the last one fails. -/
def StreamIdRun.FailsLast (run : StreamIdRun σ κ ρ π) : Prop :=
  (∃ e ∈ streamIds.entries, streamIdStatement dbSchema e = none) ∨
    run.AllSucceed streamIds dbSchema ∨ run.LastFails streamIds dbSchema

def savedText (outcome : Option Thrown) : Str :=
  outcome.elim "Succeeded".toList fun thrown => thrown.error.2

namespace PgClient

theorem save_eq (pool : ClientPool σ κ) (driver : Driver κ ρ π) (sql : Str)
    (state : Traced σ κ) :
    ∃ left, save pool driver sql none state =
      some ((savedText (saveThrows pool driver sql state), none), left) := by
  unfold save saveThrows Pool.borrowing
  cases pool.take state with
  | error thrown => exact ⟨state, rfl⟩
  | ok taken =>
      refine ⟨pool.give taken.1 taken.2, ?_⟩
      cases hexecute : driver.execute taken.1 (cstr sql) [] with
      | ok rows => simp [hexecute, savedText]
      | error thrown => simp [hexecute, savedText]

/-- The insert of one entry, and the rest of the loop. -/
theorem insertStreamIds_cons (pool : ClientPool σ κ)
    (driver : ℕ → Driver κ ρ π) {dbSchema sql : Str} {e : Str × Str}
    (hsql : streamIdStatement dbSchema e = some sql) (k : ℕ)
    (rest : List (Str × Str)) (retval : Str) (state : Traced σ κ) :
    ∃ left, save pool (driver k) sql none state =
        some ((savedText (saveThrows pool (driver k) sql state), none),
          left) ∧
      insertStreamIds pool driver dbSchema k (e :: rest) retval state =
        insertStreamIds pool driver dbSchema (k + 1) rest
          (savedText (saveThrows pool (driver k) sql state) ++ ";".toList)
          left ∧
      insertsThrow pool driver dbSchema k (e :: rest) state =
        saveThrows pool (driver k) sql state ::
          insertsThrow pool driver dbSchema (k + 1) rest left := by
  obtain ⟨left, hsave⟩ := save_eq pool (driver k) sql state
  refine ⟨left, hsave, ?_, ?_⟩
  · rw [insertStreamIds, hsql]
    simp [hsave]
  · rw [insertsThrow, hsql, Option.elim_some, hsave, Option.elim_some]

/-- Only the last insert counts. -/
theorem insertStreamIds_eq {pool : ClientPool σ κ}
    {driver : ℕ → Driver κ ρ π} {dbSchema : Str} (k : ℕ)
    {entries : List (Str × Str)} (retval : Str) (state : Traced σ κ)
    (hfits : ∀ e ∈ entries, streamIdStatement dbSchema e ≠ none) :
    (insertStreamIds pool driver dbSchema k entries retval state).map
        Prod.fst =
      some ((insertsThrow pool driver dbSchema k entries
        state).getLast?.elim retval fun outcome =>
          savedText outcome ++ ";".toList) := by
  induction entries generalizing k retval state with
  | nil => rfl
  | cons e rest ih =>
      obtain ⟨hfirst, hrest⟩ := List.forall_mem_cons.mp hfits
      obtain ⟨sql, hsql⟩ := Option.ne_none_iff_exists'.mp hfirst
      obtain ⟨left, _, hloop, hthrow⟩ :=
        insertStreamIds_cons pool driver hsql k rest retval state
      rw [hloop, hthrow, ih (k + 1) _ left hrest, List.getLast?_cons]
      cases (insertsThrow pool driver dbSchema (k + 1) rest
        left).getLast? with
      | none => rfl
      | some outcome => rfl

theorem insertStreamIds_eq_none {pool : ClientPool σ κ}
    {driver : ℕ → Driver κ ρ π} {dbSchema : Str} (k : ℕ)
    {entries : List (Str × Str)} (retval : Str) (state : Traced σ κ)
    (hlong : ∃ e ∈ entries, streamIdStatement dbSchema e = none) :
    insertStreamIds pool driver dbSchema k entries retval state = none := by
  induction entries generalizing k retval state with
  | nil =>
      obtain ⟨e, he, _⟩ := hlong
      cases he
  | cons e rest ih =>
      cases hsql : streamIdStatement dbSchema e with
      | none => simp [insertStreamIds, hsql]
      | some sql =>
          have hrest : ∃ other ∈ rest,
              streamIdStatement dbSchema other = none := by
            obtain ⟨other, hother, hnone⟩ := hlong
            cases List.mem_cons.mp hother with
            | inl hhead =>
                rw [hhead, hsql] at hnone
                cases hnone
            | inr htail => exact ⟨other, htail, hnone⟩
          obtain ⟨left, _, hloop, _⟩ :=
            insertStreamIds_cons pool driver hsql k rest retval state
          rw [hloop]
          exact ih (k + 1) _ left hrest

/-- A driver that never fails, over a pool that has a connection. -/
theorem insertsThrow_of_available {pool : ClientPool σ κ}
    {driver : ℕ → Driver κ ρ π}
    (hdriver : ∀ k conn sql, ∃ rows, (driver k).execute conn sql [] = .ok rows)
    (dbSchema : Str) (k : ℕ) (entries : List (Str × Str))
    {state : Traced σ κ} (havailable : 0 < pool.available state.pool) :
    ∀ outcome ∈ insertsThrow pool driver dbSchema k entries state,
      outcome = none := by
  induction entries generalizing k state with
  | nil =>
      intro outcome houtcome
      cases houtcome
  | cons e rest ih =>
      cases hsql : streamIdStatement dbSchema e with
      | none =>
          rw [insertsThrow, hsql, Option.elim_none]
          intro outcome houtcome
          cases houtcome
      | some sql =>
          have hsucceeds : saveThrows pool (driver k) sql state = none := by
            obtain ⟨conn, next, hborrow⟩ := pool.borrow_of_available havailable
            obtain ⟨rows, hrows⟩ := hdriver k conn (cstr sql)
            simp [saveThrows, Pool.take, hborrow, hrows]
          obtain ⟨left, hsave, _, hthrow⟩ :=
            insertStreamIds_cons pool driver hsql k rest [] state
          have hreturned : pool.available left.pool =
              pool.available state.pool := by
            classical
            exact (Pool.returned_of_borrowing hsave).available
          rw [hthrow, List.forall_mem_cons]
          refine ⟨hsucceeds, ih (k + 1) ?_⟩
          rw [hreturned]
          exact havailable

theorem insertsThrow_ne_nil {pool : ClientPool σ κ}
    {driver : ℕ → Driver κ ρ π} {dbSchema : Str} {k : ℕ}
    {entries : List (Str × Str)} {state : Traced σ κ} (hne : entries ≠ [])
    (hfits : ∀ e ∈ entries, streamIdStatement dbSchema e ≠ none) :
    insertsThrow pool driver dbSchema k entries state ≠ [] := by
  cases entries with
  | nil => exact absurd rfl hne
  | cons e rest =>
      obtain ⟨sql, hsql⟩ :=
        Option.ne_none_iff_exists'.mp (hfits e List.mem_cons_self)
      obtain ⟨left, _, _, hthrow⟩ :=
        insertStreamIds_cons pool driver hsql k rest [] state
      rw [hthrow]
      exact List.cons_ne_nil _ _

end PgClient

variable {streamIds : StreamIds} {dbSchema : Str}

theorem StreamIdRun.returned_eq
    (hfits : ∀ e ∈ streamIds.entries, streamIdStatement dbSchema e ≠ none)
    (run : StreamIdRun σ κ ρ π) :
    run.returned streamIds dbSchema =
      some ((run.throws streamIds dbSchema).getLast?.elim [] fun outcome =>
        savedText outcome ++ ";".toList) :=
  PgClient.insertStreamIds_eq 0 [] run.state hfits

theorem StreamIdRun.returned_of_allSucceed
    (hfits : ∀ e ∈ streamIds.entries, streamIdStatement dbSchema e ≠ none)
    (hne : streamIds.entries ≠ []) {run : StreamIdRun σ κ ρ π}
    (hall : run.AllSucceed streamIds dbSchema) :
    run.returned streamIds dbSchema = some "Succeeded;".toList := by
  have hthrows : run.throws streamIds dbSchema ≠ [] :=
    PgClient.insertsThrow_ne_nil hne hfits
  have hlast := List.getLast?_eq_some_getLast hthrows
  have hnone := hall _ (List.getLast_mem hthrows)
  rw [run.returned_eq hfits, hlast, hnone]
  decide +kernel

/-- Some run of the inserts succeeds. -/
theorem exists_allSucceed (streamIds : StreamIds) (dbSchema : Str) :
    ∃ run : StreamIdRun (List ℕ) ℕ Unit Unit,
      run.AllSucceed streamIds dbSchema :=
  ⟨⟨queuePool, fun _ => answering, ⟨[7], []⟩⟩,
    PgClient.insertsThrow_of_available (fun _ _ _ => ⟨[], rfl⟩) dbSchema 0
      streamIds.entries Nat.one_pos⟩

theorem savedText_eq_iff (text : Str) :
    text ++ ";".toList = "Succeeded;".toList ↔
      text = "Succeeded".toList := by
  have hsplit : "Succeeded;".toList = "Succeeded".toList ++ ";".toList := by
    decide +kernel
  rw [hsplit]
  exact List.append_left_inj _

theorem StreamIdRun.throws_ne_nil {run : StreamIdRun σ κ ρ π}
    (hfails : ¬ run.AllSucceed streamIds dbSchema) :
    run.throws streamIds dbSchema ≠ [] := by
  intro hnil
  apply hfails
  unfold AllSucceed
  rw [hnil]
  intro outcome houtcome
  cases houtcome

theorem StreamIdRun.entries_ne_nil {run : StreamIdRun σ κ ρ π}
    (hthrows : run.throws streamIds dbSchema ≠ []) :
    streamIds.entries ≠ [] := by
  intro hnil
  apply hthrows
  unfold throws
  rw [hnil]
  rfl

theorem StreamIdRun.lastFails_iff {run : StreamIdRun σ κ ρ π}
    {outcome : Option Thrown}
    (hlast : (run.throws streamIds dbSchema).getLast? = some outcome) :
    run.LastFails streamIds dbSchema ↔
      savedText outcome ++ ";".toList ≠ "Succeeded;".toList := by
  rw [ne_eq, savedText_eq_iff]
  unfold LastFails
  rw [hlast]
  cases outcome with
  | none => simp [savedText]
  | some thrown => simp [savedText]

theorem StreamIdRun.tellsFailure_of_fits
    (hfits : ∀ e ∈ streamIds.entries, streamIdStatement dbSchema e ≠ none)
    {run : StreamIdRun σ κ ρ π}
    (hfails : ¬ run.AllSucceed streamIds dbSchema) :
    run.TellsFailure streamIds dbSchema ↔
      run.LastFails streamIds dbSchema := by
  have hthrows := StreamIdRun.throws_ne_nil hfails
  have hne := StreamIdRun.entries_ne_nil hthrows
  have hlast := List.getLast?_eq_some_getLast hthrows
  have hreturned := run.returned_eq hfits
  rw [hlast, Option.elim_some] at hreturned
  rw [run.lastFails_iff hlast]
  constructor
  · intro htells hsame
    obtain ⟨other, hother⟩ := exists_allSucceed streamIds dbSchema
    have hdiffers := htells hfails _ hreturned other hother
    rw [hsame] at hdiffers
    exact hdiffers (other.returned_of_allSucceed hfits hne hother)
  · intro hdiffers _ text hsome σ' κ' ρ' π' other hother hsame
    rw [other.returned_of_allSucceed hfits hne hother, ← hsome, hreturned]
      at hsame
    exact hdiffers (Option.some.inj hsame).symm

/-- The text that comes back shows a failed insert exactly when the last
insert has failed. -/
theorem createStreamId_tellsFailure_iff (streamIds : StreamIds)
    (dbSchema : Str) (run : StreamIdRun σ κ ρ π) :
    run.TellsFailure streamIds dbSchema ↔
      run.FailsLast streamIds dbSchema := by
  unfold StreamIdRun.FailsLast
  by_cases hlong : ∃ e ∈ streamIds.entries,
      streamIdStatement dbSchema e = none
  · refine iff_of_true ?_ (Or.inl hlong)
    intro _ text hreturned
    have hnone : run.returned streamIds dbSchema = none :=
      congrArg (Option.map Prod.fst)
        (PgClient.insertStreamIds_eq_none 0 [] run.state hlong)
    rw [hnone] at hreturned
    cases hreturned
  · have hfits : ∀ e ∈ streamIds.entries,
        streamIdStatement dbSchema e ≠ none := by
      intro e he hnone
      exact hlong ⟨e, he, hnone⟩
    by_cases hall : run.AllSucceed streamIds dbSchema
    · exact iff_of_true (fun hfails => absurd hall hfails)
        (Or.inr (Or.inl hall))
    · rw [StreamIdRun.tellsFailure_of_fits hfits hall]
      simp [hlong, hall]

end Runs

/-- Two stream types, the insert of the first of which is refused. -/
def twoStreamIds : StreamIds where
  entries := [
    ("Order".toList, "00000000-0000-0000-0000-0000000000a1".toList),
    ("Sale".toList, "00000000-0000-0000-0000-0000000000a2".toList)]
  sorted := by decide +kernel

def refusesFirst : StreamIdRun (List ℕ) ℕ Unit Unit where
  pool := queuePool
  driver
    | 0 => { answering with
        execute := fun _ _ _ => .error
          (.executionException "permission denied".toList) }
    | _ => answering
  state := ⟨[7], []⟩

theorem refusesFirst_not_told :
    ¬ ∀ (streamIds : StreamIds) (dbSchema : Str)
      (run : StreamIdRun (List ℕ) ℕ Unit Unit),
      run.TellsFailure streamIds dbSchema := by
  intro hclaim
  have hthrows : refusesFirst.throws twoStreamIds "dwh".toList =
      [some (.executionException "permission denied".toList), none] := by
    decide +kernel
  have hreturned : refusesFirst.returned twoStreamIds "dwh".toList =
      some "Succeeded;".toList := by
    decide +kernel
  have hfails : ¬ refusesFirst.AllSucceed twoStreamIds "dwh".toList := by
    intro hall
    have hfirst := hall _ (hthrows ▸ List.mem_cons_self)
    cases hfirst
  have hfits : ∀ e ∈ twoStreamIds.entries,
      streamIdStatement "dwh".toList e ≠ none := by
    decide +kernel
  obtain ⟨other, hother⟩ := exists_allSucceed twoStreamIds "dwh".toList
  exact hclaim twoStreamIds "dwh".toList refusesFirst hfails _ hreturned other
    hother (other.returned_of_allSucceed hfits (List.cons_ne_nil _ _) hother)

end StoreCpp
