import StoreCpp.CaResourceManager
import StoreCpp.LogCursor

/-!
# The cursor of one purpose

The cursor of a manager is the newest row that is logged for its purpose.
With one manager in the process, no interleaving with writers and no crash
moves it past a row that the handler has not seen.
-/

namespace StoreCpp

open LogCursor StepMachine

/-! ## The tables -/

section Tables

variable {υ : Type} {db : ResourceTables υ} {settings : ManagerSettings}

theorem latestOfEach_toList (row : Option (CaResourceModified υ)) :
    latestOfEach row.toList = row.toList := by
  cases row with
  | none => rfl
  | some row => simp [latestOfEach, groupBy, pushGroup]

theorem CaResourceModified.Keeps.belongsTo
    {row result : CaResourceModified υ} (hkeeps : row.Keeps result)
    (hrow : row.BelongsTo settings) :
    (result.processedFor settings).BelongsTo settings := by
  obtain ⟨henvironment, hstore, htype⟩ := hrow
  exact ⟨hkeeps.environment.trans henvironment, hkeeps.store.trans hstore,
    hkeeps.type.trans htype, rfl⟩

variable [LinearOrder υ]

theorem ResourceTables.mem_loggedUids_insertProcessed
    {row : CaResourceProcessed υ} (hrow : row.BelongsTo settings) {uid : υ} :
    uid ∈ (db.insertProcessed settings.keyspace row).loggedUids settings ↔
      uid ∈ db.loggedUids settings ∨ uid = row.uid := by
  simp only [loggedUids, insertProcessed, if_true, List.mem_map,
    List.mem_filter, List.mem_append, List.mem_singleton,
    decide_eq_true_eq]
  constructor
  · rintro ⟨old, ⟨⟨hold, _⟩ | rfl, hbelongs⟩, rfl⟩
    · exact Or.inl ⟨old, ⟨hold, hbelongs⟩, rfl⟩
    · exact Or.inr rfl
  · rintro (⟨old, ⟨hold, hbelongs⟩, rfl⟩ | rfl)
    · by_cases hkey : old.SameKey row
      · exact ⟨row, ⟨Or.inr rfl, hrow⟩, hkey.2.2.2.2.symm⟩
      · exact ⟨old, ⟨Or.inl ⟨hold, hkey⟩, hbelongs⟩, rfl⟩
    · exact ⟨row, ⟨Or.inr rfl, hrow⟩, rfl⟩

theorem ResourceTables.processedSelect_eq_some {cursor : υ} :
    db.processedSelect settings = some cursor ↔
      cursor ∈ db.loggedUids settings ∧
        ∀ uid ∈ db.loggedUids settings, uid ≤ cursor := by
  constructor
  · intro hselect
    exact ⟨List.argmax_mem hselect,
      fun uid huid => List.le_of_mem_argmax huid hselect⟩
  · rintro ⟨hmem, hmax⟩
    cases hselect : db.processedSelect settings with
    | none =>
        rw [List.argmax_eq_none.mp hselect] at hmem
        cases hmem
    | some other =>
        have hle : cursor ≤ other := List.le_of_mem_argmax hmem hselect
        have hge : other ≤ cursor := hmax other (List.argmax_mem hselect)
        rw [le_antisymm hge hle]

/-- Logging a row beyond the cursor moves the cursor to it. -/
theorem ResourceTables.processedSelect_insertProcessed {cursor : υ}
    {row : CaResourceProcessed υ} (hrow : row.BelongsTo settings)
    (hcursor : db.processedSelect settings = some cursor)
    (hbeyond : cursor < row.uid) :
    (db.insertProcessed settings.keyspace row).processedSelect settings =
      some row.uid := by
  rw [processedSelect_eq_some] at hcursor ⊢
  constructor
  · exact (mem_loggedUids_insertProcessed hrow).mpr (Or.inr rfl)
  · intro uid huid
    cases (mem_loggedUids_insertProcessed hrow).mp huid with
    | inl hold => exact (hcursor.2 uid hold).trans hbeyond.le
    | inr hnew => exact hnew.le

theorem ResourceTables.isNext_of_modifiedSelect {cursor : υ}
    {row : CaResourceModified υ}
    (hselect : db.modifiedSelect settings cursor = some row) :
    IsNext CaResourceModified.uid cursor (db.modifiedRows settings) row := by
  have hmem := List.argmin_mem hselect
  rw [List.mem_filter, decide_eq_true_eq] at hmem
  refine ⟨hmem.1, hmem.2, ?_⟩
  intro other hother hbeyond
  apply List.le_of_mem_argmin ?_ hselect
  exact List.mem_filter.mpr ⟨hother, decide_eq_true hbeyond⟩

end Tables

/-! ## Runs of one manager -/

section Manager

variable {υ : Type}

def FetchEvent.handledRow {ι : Type} :
    FetchEvent ι υ → Option (CaResourceModified υ)
  | .handled _ _ row => some row
  | _ => none

/-- The rows that have been passed to a handler. -/
def ManagerState.handledRows {ι : Type} (s : ManagerState ι υ) :
    List (CaResourceModified υ) :=
  s.history.filterMap FetchEvent.handledRow

variable [LinearOrder υ]

/-- How far a call that began with the cursor has come. -/
def FetchPhase.ContinuesFrom (cursor : υ)
    (rows handled : List (CaResourceModified υ)) : FetchPhase Unit υ → Prop
  | .idle => True
  | .assigned => True
  | .cursorRead _ uid => uid = cursor
  | .handling _ [] [] => True
  | .handling _ [row] [] => IsNext CaResourceModified.uid cursor rows row
  | .handling _ [] [result] =>
      ∃ row ∈ handled, IsNext CaResourceModified.uid cursor rows row ∧
        row.Keeps result
  | .handling _ _ _ => False

structure ManagerState.CursorAt (settings : ManagerSettings)
    (first cursor : υ) (s : ManagerState Unit υ) : Prop where
  selected : s.db.processedSelect settings = some cursor
  upTo : HandledUpTo CaResourceModified.uid first cursor
    (s.db.modifiedRows settings) s.handledRows
  phase : (s.phase ()).ContinuesFrom cursor (s.db.modifiedRows settings)
    s.handledRows

/-- Nothing is handled twice, and what is handled beyond the cursor is about to
be logged. -/
structure ManagerState.HandledOnce (cursor : υ) (s : ManagerState Unit υ) :
    Prop where
  once : s.handledRows.Pairwise fun row later => row.uid < later.uid
  pending : ∀ row ∈ s.handledRows, cursor < row.uid →
    ∃ acting result, s.phase () = .handling acting [] [result]

variable {settings : ManagerSettings} {first cursor : υ}
  {s next : ManagerState Unit υ}

theorem ResourceTables.modifiedRows_write {db : ResourceTables υ}
    {keyspace : Str} {row : CaResourceModified υ}
    (hrow : ∀ other ∈ db.modified keyspace,
      other.environment = row.environment → other.store = row.store →
        other.type = row.type → other.uid < row.uid) :
    ∃ news : List (CaResourceModified υ),
      ResourceTables.modifiedRows
        { db with
          modified := fun other =>
            if other = keyspace then db.modified other ++ [row]
            else db.modified other } settings =
        db.modifiedRows settings ++ news ∧
      (news = [] ∨ news = [row] ∧
        ∀ other ∈ db.modifiedRows settings, other.uid < row.uid) := by
  by_cases hkeyspace : settings.keyspace = keyspace
  · by_cases hbelongs : row.BelongsTo settings
    · refine ⟨[row], by simp [modifiedRows, hkeyspace, hbelongs],
        Or.inr ⟨rfl, ?_⟩⟩
      intro other hother
      rw [modifiedRows, List.mem_filter, decide_eq_true_eq] at hother
      obtain ⟨hmem, henvironment, hstore, htype⟩ := hother
      apply hrow other (hkeyspace ▸ hmem)
      · exact henvironment.trans hbelongs.1.symm
      · exact hstore.trans hbelongs.2.1.symm
      · exact htype.trans hbelongs.2.2.symm
    · exact ⟨[], by simp [modifiedRows, hkeyspace, hbelongs], Or.inl rfl⟩
  · exact ⟨[], by simp [modifiedRows, hkeyspace], Or.inl rfl⟩

theorem FetchPhase.ContinuesFrom.write {phase : FetchPhase Unit υ}
    {rows handled : List (CaResourceModified υ)}
    (hphase : phase.ContinuesFrom cursor rows handled)
    {new : CaResourceModified υ} (hnew : ∀ other ∈ rows, other.uid < new.uid) :
    phase.ContinuesFrom cursor (rows ++ [new]) handled := by
  unfold ContinuesFrom at hphase ⊢
  split at hphase
  · trivial
  · trivial
  · exact hphase
  · trivial
  · exact hphase.write hnew
  · obtain ⟨row, hrow, hnext, hkeeps⟩ := hphase
    exact ⟨row, hrow, hnext.write hnew, hkeeps⟩
  · exact hphase.elim

namespace ManagerState

theorem CursorAt.write {keyspace : Str} {row : CaResourceModified υ}
    (hat : s.CursorAt settings first cursor)
    (hstep : s.write keyspace row = some next) :
    next.CursorAt settings first cursor := by
  obtain ⟨hrow, hnext⟩ := write_eq_some.mp hstep
  obtain ⟨news, hrows, hnews⟩ :=
    @ResourceTables.modifiedRows_write υ _ settings s.db keyspace row hrow
  rw [hnext]
  refine ⟨hat.selected, ?_, ?_⟩
  · rw [hrows]
    cases hnews with
    | inl hnone =>
        rw [hnone, List.append_nil]
        exact hat.upTo
    | inr hone =>
        rw [hone.1]
        exact hat.upTo.write hone.2
  · rw [hrows]
    cases hnews with
    | inl hnone =>
        rw [hnone, List.append_nil]
        exact hat.phase
    | inr hone =>
        rw [hone.1]
        exact hat.phase.write hone.2

theorem HandledOnce.behind (honce : s.HandledOnce cursor)
    (hphase : ∀ acting result, s.phase () ≠ .handling acting [] [result]) :
    ∀ row ∈ s.handledRows, row.uid ≤ cursor := by
  intro row hrow
  by_contra hbeyond
  obtain ⟨acting, result, heq⟩ := honce.pending row hrow (not_le.mp hbeyond)
  exact hphase acting result heq

theorem HandledOnce.of_behind (honce : s.HandledOnce cursor) {later : υ}
    (hhandled : next.handledRows = s.handledRows)
    (hbehind : ∀ row ∈ s.handledRows, row.uid ≤ later) :
    next.HandledOnce later where
  once := hhandled ▸ honce.once
  pending := by
    intro row hrow hbeyond
    rw [hhandled] at hrow
    exact absurd (hbehind row hrow) (not_le.mpr hbeyond)

/-- A step that leaves the tables as they are and hands over no row. -/
theorem CursorAt.quiet (hat : s.CursorAt settings first cursor)
    (news : List (FetchEvent Unit υ)) (hdb : next.db = s.db)
    (hhistory : next.history = s.history ++ news)
    (hnews : news.filterMap FetchEvent.handledRow = [])
    (hbefore : ∀ acting result, s.phase () ≠ .handling acting [] [result])
    (hafter : (next.phase ()).ContinuesFrom cursor
      (s.db.modifiedRows settings) s.handledRows) :
    next.CursorAt settings first cursor ∧
      (s.HandledOnce cursor → next.HandledOnce cursor) := by
  have hhandled : next.handledRows = s.handledRows := by
    rw [handledRows, hhistory, List.filterMap_append, hnews, List.append_nil]
    rfl
  constructor
  · refine ⟨hdb ▸ hat.selected, ?_, ?_⟩
    · rw [hdb, hhandled]
      exact hat.upTo
    · rw [hdb, hhandled]
      exact hafter
  · intro honce
    exact honce.of_behind hhandled (honce.behind hbefore)

theorem CursorAt.assign (hat : s.CursorAt settings first cursor)
    (hstep : s.assign () = some next) :
    next.CursorAt settings first cursor ∧
      (s.HandledOnce cursor → next.HandledOnce cursor) := by
  obtain ⟨hphase, hnext⟩ := assign_eq_some.mp hstep
  have hhistory : next.history = s.history ++ [] := by
    rw [hnext]
    rfl
  apply hat.quiet [] (by rw [hnext]; rfl) hhistory rfl
  · simp [hphase]
  · simp [hnext, FetchPhase.ContinuesFrom]

theorem CursorAt.runProcessed {twoDaysAgo : υ}
    (hat : s.CursorAt settings first cursor)
    (hstep : s.runProcessed (fun _ => settings) () twoDaysAgo = some next) :
    next.CursorAt settings first cursor ∧
      (s.HandledOnce cursor → next.HandledOnce cursor) := by
  obtain ⟨callback, hphase, _, hnext⟩ := runProcessed_eq_some.mp hstep
  have hhistory : next.history = s.history ++ [.queried () callback] := by
    rw [hnext]
    rfl
  apply hat.quiet [.queried () callback] (by rw [hnext]; rfl) hhistory rfl
  · simp [hphase]
  · simp [hnext, FetchPhase.ContinuesFrom, hat.selected]

theorem CursorAt.runModified (hat : s.CursorAt settings first cursor)
    (hstep : s.runModified (fun _ => settings) () = some next) :
    next.CursorAt settings first cursor ∧
      (s.HandledOnce cursor → next.HandledOnce cursor) := by
  obtain ⟨acting, uid, callback, hphase, _, hnext⟩ :=
    runModified_eq_some.mp hstep
  have huid : uid = cursor := by
    have hcontinues := hat.phase
    rw [hphase] at hcontinues
    exact hcontinues
  have hhistory : next.history = s.history ++ [.queried () callback] := by
    rw [hnext]
    rfl
  apply hat.quiet [.queried () callback] (by rw [hnext]; rfl) hhistory rfl
  · simp [hphase]
  · rw [hnext, setPhase_phase_self, huid, latestOfEach_toList]
    cases hselect : s.db.modifiedSelect settings cursor with
    | none => trivial
    | some row => exact ResourceTables.isNext_of_modifiedSelect hselect

theorem CursorAt.handle {result : CaResourceModified υ}
    (hat : s.CursorAt settings first cursor)
    (hstep : s.handle () result = some next) :
    next.CursorAt settings first cursor ∧
      (s.HandledOnce cursor → next.HandledOnce cursor) := by
  obtain ⟨acting, c1, unhandled, processed, hphase, hkeeps, hnext⟩ :=
    handle_eq_some.mp hstep
  have hhistory :
      next.history = s.history ++ [.handled () acting.handler c1] := by
    rw [hnext]
    rfl
  have hhandled : next.handledRows = s.handledRows ++ [c1] := by
    simp [handledRows, hhistory, FetchEvent.handledRow]
  have hcontinues := hat.phase
  rw [hphase] at hcontinues
  cases unhandled with
  | cons other unhandled => exact hcontinues.elim
  | nil =>
      cases processed with
      | cons other processed => exact hcontinues.elim
      | nil =>
          have hrow : IsNext CaResourceModified.uid cursor
            (s.db.modifiedRows settings) c1 := hcontinues
          have hafter : next.phase () = .handling acting [] [result] := by
            rw [hnext]
            simp
          constructor
          · refine ⟨by rw [hnext]; exact hat.selected, ?_, ?_⟩
            · rw [hhandled, hnext]
              exact hat.upTo.handle hrow
            · rw [hafter, hhandled, hnext]
              exact ⟨c1, by simp, hrow, hkeeps⟩
          · intro honce
            have hbehind := honce.behind (by simp [hphase])
            refine ⟨?_, fun _ _ _ => ⟨acting, result, hafter⟩⟩
            rw [hhandled]
            exact HandledUpTo.handle_once hrow honce.once hbehind

theorem CursorAt.log (hat : s.CursorAt settings first cursor)
    (hstep : s.log (fun _ => settings) () = some next) :
    ∃ later, next.CursorAt settings first later ∧
      (s.HandledOnce cursor → next.HandledOnce later) := by
  obtain ⟨acting, processed, hphase, hnext⟩ := log_eq_some.mp hstep
  have hhistory : next.history = s.history ++ processed.map fun c1 =>
      .logged () acting.handler acting.manager c1.uid := by
    rw [hnext]
    rfl
  have hhandled : next.handledRows = s.handledRows := by
    simp [handledRows, hhistory, FetchEvent.handledRow, Function.comp_def]
  have hidle : next.phase () = .idle := by
    rw [hnext]
    simp
  have hcontinues := hat.phase
  rw [hphase] at hcontinues
  cases processed with
  | nil =>
      refine ⟨cursor, hat.quiet [] (by rw [hnext]; rfl) hhistory rfl ?_ ?_⟩
      · simp [hphase]
      · rw [hidle]
        trivial
  | cons result processed =>
      cases processed with
      | cons other processed => exact hcontinues.elim
      | nil =>
          obtain ⟨row, hrow, hisNext, hkeeps⟩ := hcontinues
          have hbelongs : row.BelongsTo settings :=
            of_decide_eq_true (List.mem_filter.mp hisNext.mem).2
          have hbeyond : cursor < result.uid := hkeeps.uid ▸ hisNext.beyond
          have hselected : next.db.processedSelect settings =
              some result.uid := by
            rw [hnext]
            exact ResourceTables.processedSelect_insertProcessed
              (hkeeps.belongsTo hbelongs) hat.selected hbeyond
          refine ⟨row.uid, ⟨hkeeps.uid ▸ hselected, ?_, ?_⟩, fun honce => ?_⟩
          · rw [hhandled, hnext]
            exact hat.upTo.advance hisNext hrow
          · rw [hidle]
            trivial
          · exact honce.of_behind hhandled
              (hat.upTo.key_le_of_isNext hisNext)

theorem CursorAt.crash (hat : s.CursorAt settings first cursor) :
    s.crash.CursorAt settings first cursor :=
  ⟨hat.selected, hat.upTo, trivial⟩

theorem HandledOnce.write {keyspace : Str} {row : CaResourceModified υ}
    (honce : s.HandledOnce cursor)
    (hstep : s.write keyspace row = some next) :
    next.HandledOnce cursor := by
  rw [(write_eq_some.mp hstep).2]
  exact ⟨honce.once, honce.pending⟩

/-- Every step keeps the cursor or moves it to a handled row, and only a crash
makes the manager forget a handled row. -/
theorem CursorAt.perform {step : ManagerStep Unit υ}
    (hat : s.CursorAt settings first cursor)
    (hstep : s.perform (fun _ => settings) step = some next) :
    ∃ later, next.CursorAt settings first later ∧
      (step ≠ .crash → s.HandledOnce cursor → next.HandledOnce later) := by
  cases step with
  | write keyspace row =>
      exact ⟨cursor, hat.write hstep, fun _ honce => honce.write hstep⟩
  | assign m =>
      obtain ⟨hnext, honce⟩ := hat.assign hstep
      exact ⟨cursor, hnext, fun _ => honce⟩
  | runProcessed m twoDaysAgo =>
      obtain ⟨hnext, honce⟩ := hat.runProcessed hstep
      exact ⟨cursor, hnext, fun _ => honce⟩
  | runModified m =>
      obtain ⟨hnext, honce⟩ := hat.runModified hstep
      exact ⟨cursor, hnext, fun _ => honce⟩
  | handle m result =>
      obtain ⟨hnext, honce⟩ := hat.handle hstep
      exact ⟨cursor, hnext, fun _ => honce⟩
  | log m =>
      obtain ⟨later, hnext, honce⟩ := hat.log hstep
      exact ⟨later, hnext, fun _ => honce⟩
  | crash =>
      have hcrash : s.crash = next := Option.some.inj hstep
      exact ⟨cursor, hcrash ▸ hat.crash, fun hne => absurd rfl hne⟩

end ManagerState

section Runs

variable {start final : ManagerState Unit υ}
  {steps : List (ManagerStep Unit υ)}

theorem cursorAt_of_start
    (hstart : (caResourceManagers fun _ => settings).init start)
    (hincreasing : (start.db.modifiedRows settings).Pairwise
      fun row later => row.uid < later.uid)
    (hfirst : start.db.processedSelect settings = some first) :
    start.CursorAt settings first first ∧ start.HandledOnce first := by
  have hnone : start.handledRows = [] := by
    simp [ManagerState.handledRows, hstart.history]
  constructor
  · refine ⟨hfirst, hnone ▸ HandledUpTo.start hincreasing, ?_⟩
    rw [hstart.phase]
    trivial
  · exact ⟨by simp [hnone], by simp [hnone]⟩

theorem cursorAt_of_run
    (hat : start.CursorAt settings first cursor)
    (hrun : (caResourceManagers fun _ => settings).run start steps =
      some final) : ∃ later, final.CursorAt settings first later := by
  apply @Machine.run_invariant _ _ (caResourceManagers fun _ => settings)
    (fun s => ∃ later, s.CursorAt settings first later) ?_ _ _ _ hrun
      ⟨cursor, hat⟩
  intro s step next hcurrent hstep
  obtain ⟨current, hcurrent⟩ := hcurrent
  obtain ⟨later, hnext, _⟩ := hcurrent.perform hstep
  exact ⟨later, hnext⟩

theorem handledOnce_of_run
    (hat : start.CursorAt settings first cursor)
    (honce : start.HandledOnce cursor) (hsteps : .crash ∉ steps)
    (hrun : (caResourceManagers fun _ => settings).run start steps =
      some final) :
    ∃ later, final.CursorAt settings first later ∧
      final.HandledOnce later := by
  have hguarded := (caResourceManagers fun _ => settings).guarded_of_forall_mem
    (fun step hstep => ne_of_mem_of_not_mem hstep hsteps) start
  apply @Machine.run_invariant_of_guarded _ _
    (caResourceManagers fun _ => settings) _
    (fun s => ∃ later, s.CursorAt settings first later ∧ s.HandledOnce later)
    ?_ _ _ _ hguarded hrun ⟨cursor, hat, honce⟩
  intro s step next hcurrent hcrash hstep
  obtain ⟨current, hcurrent, honce⟩ := hcurrent
  obtain ⟨later, hnext, hlater⟩ := hcurrent.perform hstep
  exact ⟨later, hnext, hlater hcrash honce⟩

/-- Every row between the first and the current cursor has been handled, in
the order of the rows, and exactly once without a crash. -/
theorem fetchNextTasks_handles
    (hstart : (caResourceManagers fun _ => settings).init start)
    (hincreasing : (start.db.modifiedRows settings).Pairwise
      fun row later => row.uid < later.uid)
    (hfirst : start.db.processedSelect settings = some first)
    (hrun : (caResourceManagers fun _ => settings).run start steps =
      some final) :
    ∃ cursor, final.db.processedSelect settings = some cursor ∧
      (∀ row ∈ final.db.modifiedRows settings, first < row.uid →
        row.uid ≤ cursor → row ∈ final.handledRows) ∧
      (final.handledRows.Pairwise fun row later => row.uid ≤ later.uid) ∧
      (.crash ∉ steps →
        (final.handledRows.Pairwise fun row later => row.uid < later.uid) ∧
        ∀ row ∈ final.db.modifiedRows settings, first < row.uid →
          row.uid ≤ cursor → final.handledRows.count row = 1) := by
  obtain ⟨hat, honce⟩ := cursorAt_of_start hstart hincreasing hfirst
  obtain ⟨cursor, hcursor⟩ := cursorAt_of_run hat hrun
  refine ⟨cursor, hcursor.selected, hcursor.upTo.covered,
    hcursor.upTo.inOrder, fun hsteps => ?_⟩
  obtain ⟨later, _, hlater⟩ := handledOnce_of_run hat honce hsteps hrun
  refine ⟨hlater.once, fun row hrow hbeyond hle => ?_⟩
  have hnodup : final.handledRows.Nodup :=
    hlater.once.imp fun hlt heq => absurd (heq ▸ hlt) (lt_irrefl _)
  exact List.count_eq_one_of_mem hnodup
    (hcursor.upTo.covered row hrow hbeyond hle)

end Runs

end Manager

/-- Row 3 is logged for the forecast. -/
def forecastStart : ManagerState Unit ℕ where
  db :=
    { modified := fun _ => [salesRow 4, salesRow 6]
      processed := fun _ =>
        [(salesRow 3).processedFor (salesManager forecast)] }
  modifiedCallback := none
  processedCallback := none
  phase _ := .idle
  history := []

/-- The process ends between the handling and the logging of row 4. -/
def forecastWithCrash : List (ManagerStep Unit ℕ) :=
  [.assign (), .runProcessed () 0, .runModified (), .handle () (salesRow 4),
    .crash, .write "dwh".toList (salesRow 7), .assign (), .runProcessed () 0,
    .runModified (), .handle () (salesRow 4), .log (), .assign (),
    .runProcessed () 0, .runModified (), .handle () (salesRow 6), .log ()]

theorem forecastWithCrash_view :
    ((caResourceManagers fun _ => salesManager forecast).run forecastStart
        forecastWithCrash).map (fun s =>
          (s.db.processedSelect (salesManager forecast),
            s.handledRows.map CaResourceModified.uid)) =
      some (some 6, [4, 4, 6]) := by
  decide +kernel

theorem forecastWithCrash_handles : ∃ final,
    (caResourceManagers fun _ => salesManager forecast).run forecastStart
        forecastWithCrash = some final ∧
      ∀ row ∈ final.db.modifiedRows (salesManager forecast),
        3 < row.uid → row.uid ≤ 6 → row ∈ final.handledRows := by
  obtain ⟨final, hrun, hview⟩ :=
    Option.map_eq_some_iff.mp forecastWithCrash_view
  have hselect : final.db.processedSelect (salesManager forecast) = some 6 :=
    congrArg Prod.fst hview
  obtain ⟨cursor, hcursor, hcovered, _⟩ := fetchNextTasks_handles
    ⟨rfl, rfl, fun _ => rfl, rfl⟩ (by decide +kernel)
    (show forecastStart.db.processedSelect (salesManager forecast) = some 3 by
      decide +kernel) hrun
  have hsix : 6 = cursor := Option.some.inj (hselect.symm.trans hcursor)
  refine ⟨final, hrun, ?_⟩
  rw [hsix]
  exact hcovered

end StoreCpp
