import StoreCpp.CaResourceManager

/-!
# The callbacks of several managers

A query is processed by the manager whose callback is in the variable when the
query completes.  Calls of several managers keep apart exactly when no other
manager assigns the variables between a call's own assignment and the
completion of its queries.
-/

namespace StoreCpp

open StepMachine

section Schedules

variable {ι υ : Type}

/-- The event is a matter of one manager: its query, its handler, its purpose,
and the cursor that was read for this purpose. -/
def FetchEvent.OfOneManager : FetchEvent ι υ → Prop
  | .queried manager callback => callback = ⟨manager, manager⟩
  | .handled manager handler _ => handler = manager
  | .logged manager handler purposeOf _ =>
      handler = purposeOf ∧ manager = purposeOf

def ManagerState.KeptApart (s : ManagerState ι υ) : Prop :=
  ∀ event ∈ s.history, event.OfOneManager

/-- The manager that has assigned the callbacks last, after a step of a
process in which it was `last` before. -/
def ManagerStep.lastAssigned (last : Option ι) : ManagerStep ι υ → Option ι
  | .assign m => some m
  | .crash => none
  | _ => last

/-- The manager for whose call a query completes in the step. -/
def ManagerStep.queriedFor : ManagerStep ι υ → Option ι
  | .runProcessed m _ => some m
  | .runModified m => some m
  | _ => none

/-- Whenever a query of a call completes, the call's own manager has assigned
the callbacks last. -/
def Undisturbed : Option ι → List (ManagerStep ι υ) → Prop
  | _, [] => True
  | last, step :: steps =>
      (∀ m ∈ step.queriedFor, last = some m) ∧
        Undisturbed (step.lastAssigned last) steps

end Schedules

section Callbacks

variable {ι υ : Type}

def Callback.own (m : ι) : Callback ι := ⟨m, m⟩

/-- The callbacks are those of the manager that has assigned them last. -/
def ManagerState.AssignedBy (last : Option ι) (s : ManagerState ι υ) : Prop :=
  s.modifiedCallback = last.map Callback.own ∧
    s.processedCallback = last.map Callback.own

/-- The callback that a completing query finds is the one that its own manager
has assigned. -/
def ManagerState.FindsOwn (s : ManagerState ι υ) : ManagerStep ι υ → Prop
  | .runProcessed m _ => s.processedCallback = some (Callback.own m)
  | .runModified m => s.modifiedCallback = some (Callback.own m)
  | _ => True

def FetchPhase.ActsFor (m : ι) : FetchPhase ι υ → Prop
  | .idle => True
  | .assigned => True
  | .cursorRead acting _ => acting = Callback.own m
  | .handling acting _ _ => acting = Callback.own m

/-- Every call is continued by its own manager. -/
def ManagerState.EachActs (s : ManagerState ι υ) : Prop :=
  ∀ m, (s.phase m).ActsFor m

theorem own_eq_iff {last : Option ι} {m : ι} :
    last.map Callback.own = some (Callback.own m) ↔ last = some m := by
  cases last with
  | none => simp
  | some other => simp [Callback.own]

theorem ManagerState.AssignedBy.findsOwn_iff {last : Option ι}
    {s : ManagerState ι υ} (hassigned : s.AssignedBy last)
    (step : ManagerStep ι υ) :
    s.FindsOwn step ↔ ∀ m ∈ step.queriedFor, last = some m := by
  obtain ⟨hmodified, hprocessed⟩ := hassigned
  cases step with
  | runProcessed m twoDaysAgo =>
      simp only [ManagerState.FindsOwn, hprocessed, own_eq_iff]
      simp [ManagerStep.queriedFor]
  | runModified m =>
      simp only [ManagerState.FindsOwn, hmodified, own_eq_iff]
      simp [ManagerStep.queriedFor]
  | _ => simp [ManagerState.FindsOwn, ManagerStep.queriedFor]

variable [DecidableEq ι] {settings : ι → ManagerSettings}
  {s next : ManagerState ι υ} {m : ι}

theorem ManagerState.EachActs.setPhase (hacts : s.EachActs)
    (m : ι) (phase : FetchPhase ι υ) (news : List (FetchEvent ι υ))
    (hphase : phase.ActsFor m) : (s.setPhase m phase news).EachActs := by
  intro other
  by_cases hother : other = m
  · rw [hother, ManagerState.setPhase_phase_self]
    exact hphase
  · rw [ManagerState.setPhase_phase_of_ne s hother]
    exact hacts other

variable [LinearOrder υ] {step : ManagerStep ι υ}

theorem ManagerState.AssignedBy.perform {last : Option ι}
    (hassigned : s.AssignedBy last)
    (hstep : s.perform settings step = some next) :
    next.AssignedBy (step.lastAssigned last) := by
  cases step with
  | write keyspace row =>
      rw [(write_eq_some.mp hstep).2]
      exact hassigned
  | assign m =>
      rw [(assign_eq_some.mp hstep).2]
      exact ⟨rfl, rfl⟩
  | runProcessed m twoDaysAgo =>
      obtain ⟨callback, _, _, hnext⟩ := runProcessed_eq_some.mp hstep
      rw [hnext]
      exact hassigned
  | runModified m =>
      obtain ⟨acting, uid, callback, _, _, hnext⟩ :=
        runModified_eq_some.mp hstep
      rw [hnext]
      exact hassigned
  | handle m result =>
      obtain ⟨acting, c1, unhandled, processed, _, _, hnext⟩ :=
        handle_eq_some.mp hstep
      rw [hnext]
      exact hassigned
  | log m =>
      obtain ⟨acting, processed, _, hnext⟩ := log_eq_some.mp hstep
      rw [hnext]
      exact hassigned
  | crash =>
      have hnext : s.crash = next := Option.some.inj hstep
      rw [← hnext]
      exact ⟨rfl, rfl⟩

/-- What a step adds to the history is kept apart exactly when a completing
query finds its own callback. -/
theorem ManagerState.history_perform
    (hstep : s.perform settings step = some next) :
    ∃ news, next.history = s.history ++ news ∧
      (s.EachActs →
        ((∀ event ∈ news, event.OfOneManager) ↔ s.FindsOwn step)) := by
  cases step with
  | write keyspace row =>
      rw [(write_eq_some.mp hstep).2]
      exact ⟨[], by simp, by simp [FindsOwn]⟩
  | assign m =>
      rw [(assign_eq_some.mp hstep).2]
      exact ⟨[], rfl, by simp [FindsOwn]⟩
  | runProcessed m twoDaysAgo =>
      obtain ⟨callback, _, hcallback, hnext⟩ := runProcessed_eq_some.mp hstep
      rw [hnext]
      exact ⟨_, rfl, by
        simp [FindsOwn, hcallback, FetchEvent.OfOneManager, Callback.own]⟩
  | runModified m =>
      obtain ⟨acting, uid, callback, _, hcallback, hnext⟩ :=
        runModified_eq_some.mp hstep
      rw [hnext]
      exact ⟨_, rfl, by
        simp [FindsOwn, hcallback, FetchEvent.OfOneManager, Callback.own]⟩
  | handle m result =>
      obtain ⟨acting, c1, unhandled, processed, hphase, _, hnext⟩ :=
        handle_eq_some.mp hstep
      rw [hnext]
      refine ⟨_, rfl, fun hacts => ?_⟩
      have hacting : acting = Callback.own m := by
        simpa [hphase, FetchPhase.ActsFor] using hacts m
      simp [FindsOwn, hacting, FetchEvent.OfOneManager, Callback.own]
  | log m =>
      obtain ⟨acting, processed, hphase, hnext⟩ := log_eq_some.mp hstep
      rw [hnext]
      refine ⟨_, rfl, fun hacts => ?_⟩
      have hacting : acting = Callback.own m := by
        simpa [hphase, FetchPhase.ActsFor] using hacts m
      simp [FindsOwn, hacting, FetchEvent.OfOneManager, Callback.own]
  | crash =>
      have hnext : s.crash = next := Option.some.inj hstep
      rw [← hnext]
      exact ⟨[], by simp [ManagerState.crash], by simp [FindsOwn]⟩

theorem ManagerState.EachActs.perform (hacts : s.EachActs)
    (hown : s.FindsOwn step) (hstep : s.perform settings step = some next) :
    next.EachActs := by
  cases step with
  | write keyspace row =>
      rw [(write_eq_some.mp hstep).2]
      exact hacts
  | assign m =>
      rw [(assign_eq_some.mp hstep).2]
      exact hacts.setPhase m .assigned [] trivial
  | runProcessed m twoDaysAgo =>
      obtain ⟨callback, _, hcallback, hnext⟩ := runProcessed_eq_some.mp hstep
      have hfound : callback = Callback.own m :=
        Option.some.inj (hcallback.symm.trans hown)
      rw [hnext]
      exact hacts.setPhase m _ _ hfound
  | runModified m =>
      obtain ⟨acting, uid, callback, _, hcallback, hnext⟩ :=
        runModified_eq_some.mp hstep
      have hfound : callback = Callback.own m :=
        Option.some.inj (hcallback.symm.trans hown)
      rw [hnext]
      exact hacts.setPhase m _ _ hfound
  | handle m result =>
      obtain ⟨acting, c1, unhandled, processed, hphase, _, hnext⟩ :=
        handle_eq_some.mp hstep
      have hacting : acting = Callback.own m := by
        simpa [hphase, FetchPhase.ActsFor] using hacts m
      rw [hnext]
      exact hacts.setPhase m _ _ hacting
  | log m =>
      obtain ⟨acting, processed, _, hnext⟩ := log_eq_some.mp hstep
      rw [hnext]
      exact hacts.setPhase m .idle [] trivial
  | crash =>
      have hnext : s.crash = next := Option.some.inj hstep
      rw [← hnext]
      exact fun m => trivial

theorem ManagerState.keptApart_perform_iff
    (hacts : s.EachActs) (hkept : s.KeptApart)
    (hstep : s.perform settings step = some next) :
    next.KeptApart ↔ s.FindsOwn step := by
  obtain ⟨news, hhistory, hnews⟩ := history_perform hstep
  rw [← hnews hacts, KeptApart, hhistory, List.forall_mem_append]
  exact and_iff_right hkept

theorem ManagerState.KeptApart.of_perform
    (hstep : s.perform settings step = some next) (hkept : next.KeptApart) :
    s.KeptApart := by
  obtain ⟨news, hhistory, _⟩ := history_perform hstep
  intro event hevent
  apply hkept
  rw [hhistory]
  exact List.mem_append_left news hevent

end Callbacks

section Runs

variable {ι υ : Type} [DecidableEq ι] [LinearOrder υ]
  {settings : ι → ManagerSettings} {start final : ManagerState ι υ}
  {steps : List (ManagerStep ι υ)}

theorem guarded_iff_undisturbed {last : Option ι}
    (hassigned : start.AssignedBy last)
    (hrun : (caResourceManagers settings).run start steps = some final) :
    (caResourceManagers settings).Guarded ManagerState.FindsOwn start steps ↔
      Undisturbed last steps := by
  induction steps generalizing start last with
  | nil => exact Iff.rfl
  | cons step steps ih =>
      obtain ⟨next, hnext, hrest⟩ := Machine.run_cons_eq_some.mp hrun
      have hlater := ih (hassigned.perform hnext) hrest
      simp [Machine.Guarded, Undisturbed, hassigned.findsOwn_iff, hnext,
        hlater]

/-- Calls keep apart in a run exactly when no other manager has assigned the
callbacks in the meantime whenever one of their queries completes. -/
theorem fetchNextTasks_keptApart_iff
    (hstart : (caResourceManagers settings).init start)
    (hrun : (caResourceManagers settings).run start steps = some final) :
    final.KeptApart ↔ Undisturbed none steps := by
  have hacts : start.EachActs := by
    intro m
    rw [hstart.phase m]
    trivial
  have hkept : start.KeptApart := by
    simp [ManagerState.KeptApart, hstart.history]
  have hassigned : start.AssignedBy none :=
    ⟨hstart.modifiedCallback, hstart.processedCallback⟩
  rw [← guarded_iff_undisturbed hassigned hrun]
  apply Machine.good_iff_guarded ?_ ?_ ?_ hrun hacts hkept
  · intro state action next hstep hgood
    exact ManagerState.KeptApart.of_perform hstep hgood
  · intro state action next hinv hgood hstep
    exact ManagerState.keptApart_perform_iff hinv hgood hstep
  · intro state action next hinv hguard hstep
    exact hinv.perform hguard hstep

end Runs

/-! ## Two purposes of the same rows -/

def replenish : LiteralText where
  text := "replenish".toList
  noQuote := by decide
  noNul := by decide

def salesManagers (m : Bool) : ManagerSettings :=
  salesManager (if m then forecast else replenish)

/-- Row 5 is logged for the forecast and row 3 for the replenishment. -/
def salesStart : ManagerState Bool ℕ where
  db :=
    { modified := fun _ => [salesRow 4, salesRow 6]
      processed := fun _ =>
        [(salesRow 5).processedFor (salesManager forecast),
          (salesRow 3).processedFor (salesManager replenish)] }
  modifiedCallback := none
  processedCallback := none
  phase _ := .idle
  history := []

theorem salesStart_init : (caResourceManagers salesManagers).init salesStart :=
  ⟨rfl, rfl, fun _ => rfl, rfl⟩

def oneAfterTheOther : List (ManagerStep Bool ℕ) :=
  [.assign true, .runProcessed true 0, .runModified true,
    .handle true (salesRow 6), .log true, .assign false,
    .runProcessed false 0, .runModified false, .handle false (salesRow 4),
    .log false]

theorem oneAfterTheOther_history :
    ((caResourceManagers salesManagers).run salesStart oneAfterTheOther).map
        ManagerState.history =
      some [.queried true ⟨true, true⟩, .queried true ⟨true, true⟩,
        .handled true true (salesRow 6), .logged true true true 6,
        .queried false ⟨false, false⟩, .queried false ⟨false, false⟩,
        .handled false false (salesRow 4), .logged false false false 4] := by
  decide +kernel

theorem oneAfterTheOther_keptApart : ∃ final,
    (caResourceManagers salesManagers).run salesStart oneAfterTheOther =
        some final ∧
      final.history.length = 8 ∧ final.KeptApart := by
  obtain ⟨final, hrun, hhistory⟩ :=
    Option.map_eq_some_iff.mp oneAfterTheOther_history
  have hundisturbed : Undisturbed none oneAfterTheOther := by
    simp [Undisturbed, oneAfterTheOther, ManagerStep.queriedFor,
      ManagerStep.lastAssigned]
  refine ⟨final, hrun, by simp [hhistory], ?_⟩
  exact (fetchNextTasks_keptApart_iff salesStart_init hrun).mpr hundisturbed

def assignedInBetween : List (ManagerStep Bool ℕ) :=
  [.assign true, .assign false, .runProcessed true 0, .runModified true,
    .handle true (salesRow 6), .log true]

theorem assignedInBetween_history :
    ((caResourceManagers salesManagers).run salesStart assignedInBetween).map
        ManagerState.history =
      some [.queried true ⟨false, false⟩, .queried true ⟨false, false⟩,
        .handled true false (salesRow 6), .logged true false false 6] := by
  decide +kernel

/-- The cursor of the forecast advances the one of the replenishment, which
skips row 4. -/
theorem assignedInBetween_not_keptApart :
    ¬ ∀ (settings : Bool → ManagerSettings) (start final : ManagerState Bool ℕ)
      (steps : List (ManagerStep Bool ℕ)),
        (caResourceManagers settings).init start →
          (caResourceManagers settings).run start steps = some final →
            final.KeptApart := by
  intro hclaim
  obtain ⟨final, hrun, hhistory⟩ :=
    Option.map_eq_some_iff.mp assignedInBetween_history
  have hkept := hclaim salesManagers salesStart final assignedInBetween
    salesStart_init hrun
  have hlogged : .logged true false false 6 ∈ final.history := by
    simp [hhistory]
  exact absurd (hkept _ hlogged).2 (by decide)

end StoreCpp
