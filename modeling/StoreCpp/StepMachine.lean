import Mathlib.Data.List.Basic
import Mathlib.Data.List.Induction
import Mathlib.Tactic.TypeStar

/-!
# Runs of a partial step function

A machine advances by a partial function of its current state and the next
action; an undefined step is an action that is not enabled.  A run is a list
of actions, and a guard restricts what may happen at each of its steps in
the state where the step is taken.  Every invariant of the development is an
instance of the two induction rules at the end of this file.
-/

namespace StepMachine

/-- A transition system whose step is a partial function of the action. -/
structure Machine (σ α : Type*) where
  init : σ → Prop
  step : σ → α → Option σ

variable {σ α : Type*}

namespace Machine

def run (machine : Machine σ α) : σ → List α → Option σ
  | state, [] => some state
  | state, action :: actions =>
      (machine.step state action).bind fun next => machine.run next actions

/-- Every action of the run satisfies the guard in the state it is taken in. -/
def Guarded (machine : Machine σ α) (guard : σ → α → Prop) :
    σ → List α → Prop
  | _, [] => True
  | state, action :: actions =>
      guard state action ∧
        ∀ next, machine.step state action = some next →
          machine.Guarded guard next actions

def Reachable (machine : Machine σ α) (state : σ) : Prop :=
  ∃ start actions, machine.init start ∧
    machine.run start actions = some state

def ReachableUnder (machine : Machine σ α) (guard : σ → α → Prop)
    (state : σ) : Prop :=
  ∃ start actions, machine.init start ∧
    machine.Guarded guard start actions ∧
    machine.run start actions = some state

def decideGuarded (machine : Machine σ α) (guard : σ → α → Prop)
    [∀ state action, Decidable (guard state action)] :
    ∀ state actions, Decidable (machine.Guarded guard state actions)
  | _, [] => isTrue trivial
  | state, action :: actions =>
      match hstep : machine.step state action with
      | none =>
          decidable_of_iff (guard state action) (by simp [Guarded, hstep])
      | some next =>
          have := machine.decideGuarded guard next actions
          decidable_of_iff
            (guard state action ∧ machine.Guarded guard next actions)
            (by simp [Guarded, hstep])

instance (machine : Machine σ α) (guard : σ → α → Prop)
    [∀ state action, Decidable (guard state action)] (state : σ)
    (actions : List α) : Decidable (machine.Guarded guard state actions) :=
  machine.decideGuarded guard state actions

@[simp] theorem run_nil (machine : Machine σ α) (state : σ) :
    machine.run state [] = some state := rfl

theorem run_cons_eq_some {machine : Machine σ α} {state final : σ}
    {action : α} {actions : List α} :
    machine.run state (action :: actions) = some final ↔
      ∃ next, machine.step state action = some next ∧
        machine.run next actions = some final := by
  simp [run, Option.bind_eq_some_iff]

theorem run_append (machine : Machine σ α) (state : σ)
    (before after : List α) :
    machine.run state (before ++ after) =
      (machine.run state before).bind fun next => machine.run next after := by
  induction before generalizing state with
  | nil => rfl
  | cons action actions ih =>
      simp only [List.cons_append, run]
      cases machine.step state action with
      | none => rfl
      | some next => exact ih next

theorem run_concat_eq_some {machine : Machine σ α} {state final : σ}
    {action : α} {actions : List α} :
    machine.run state (actions ++ [action]) = some final ↔
      ∃ before, machine.run state actions = some before ∧
        machine.step before action = some final := by
  rw [run_append, Option.bind_eq_some_iff]
  simp [run_cons_eq_some]

/-- A property kept by every guarded step holds at the end of every guarded
run that starts with it. -/
theorem run_invariant_of_guarded
    {machine : Machine σ α} {guard : σ → α → Prop} {inv : σ → Prop}
    (hstep : ∀ state action next, inv state → guard state action →
      machine.step state action = some next → inv next)
    {state final : σ} {actions : List α}
    (hguard : machine.Guarded guard state actions)
    (hrun : machine.run state actions = some final)
    (hinv : inv state) : inv final := by
  induction actions generalizing state with
  | nil =>
      have heq : state = final := by simpa using hrun
      exact heq ▸ hinv
  | cons action actions ih =>
      obtain ⟨next, hnext, hrest⟩ := run_cons_eq_some.mp hrun
      exact ih (hguard.2 next hnext) hrest
        (hstep state action next hinv hguard.1 hnext)

/-- A property of the actions so far and the state they lead to. -/
theorem run_history
    {machine : Machine σ α} {inv : List α → σ → Prop}
    (hstep : ∀ actions state action next, inv actions state →
      machine.step state action = some next → inv (actions ++ [action]) next)
    {state final : σ} {actions : List α} (hinv : inv [] state)
    (hrun : machine.run state actions = some final) : inv actions final := by
  induction actions using List.reverseRecOn generalizing final with
  | nil =>
      have heq : state = final := by simpa using hrun
      exact heq ▸ hinv
  | append_singleton actions action ih =>
      obtain ⟨before, hbefore, hlast⟩ := run_concat_eq_some.mp hrun
      exact hstep actions before action final (ih hbefore) hlast

/-- A guard that does not depend on the state. -/
theorem guarded_of_forall_mem (machine : Machine σ α) {guard : α → Prop}
    {actions : List α} (hactions : ∀ action ∈ actions, guard action)
    (state : σ) :
    machine.Guarded (fun _ action => guard action) state actions := by
  induction actions generalizing state with
  | nil => trivial
  | cons action actions ih =>
      obtain ⟨haction, hrest⟩ := List.forall_mem_cons.mp hactions
      exact ⟨haction, fun next _ => ih hrest next⟩

theorem guarded_mono (machine : Machine σ α) {weak strong : σ → α → Prop}
    (himp : ∀ state action, strong state action → weak state action)
    {state : σ} {actions : List α}
    (hguard : machine.Guarded strong state actions) :
    machine.Guarded weak state actions := by
  induction actions generalizing state with
  | nil => trivial
  | cons action actions ih =>
      obtain ⟨hfirst, hrest⟩ := hguard
      exact ⟨himp state action hfirst,
        fun next hnext => ih (hrest next hnext)⟩

theorem guarded_and (machine : Machine σ α) {first second : σ → α → Prop}
    {state : σ} {actions : List α}
    (hfirst : machine.Guarded first state actions)
    (hsecond : machine.Guarded second state actions) :
    machine.Guarded (fun state action => first state action ∧
      second state action) state actions := by
  induction actions generalizing state with
  | nil => trivial
  | cons action actions ih =>
      exact ⟨⟨hfirst.1, hsecond.1⟩, fun next hnext =>
        ih (hfirst.2 next hnext) (hsecond.2 next hnext)⟩

theorem guarded_true (machine : Machine σ α) (state : σ)
    (actions : List α) :
    machine.Guarded (fun _ _ => True) state actions :=
  machine.guarded_of_forall_mem (fun _ _ => trivial) state

theorem run_invariant
    {machine : Machine σ α} {inv : σ → Prop}
    (hstep : ∀ state action next, inv state →
      machine.step state action = some next → inv next)
    {state final : σ} {actions : List α}
    (hrun : machine.run state actions = some final)
    (hinv : inv state) : inv final :=
  run_invariant_of_guarded
    (fun current action next hcurrent _ hnext =>
      hstep current action next hcurrent hnext)
    (machine.guarded_true state actions) hrun hinv

/-- A property that later states cannot regain, and that a step keeps exactly
when the guard admits it, holds at the end of a run exactly when the guard
admits every step. -/
theorem good_iff_guarded
    {machine : Machine σ α} {guard : σ → α → Prop} {inv good : σ → Prop}
    (hback : ∀ state action next, machine.step state action = some next →
      good next → good state)
    (hiff : ∀ state action next, inv state → good state →
      machine.step state action = some next →
        (good next ↔ guard state action))
    (hinv : ∀ state action next, inv state → guard state action →
      machine.step state action = some next → inv next)
    {state final : σ} {actions : List α}
    (hrun : machine.run state actions = some final)
    (hstart : inv state) (hgood : good state) :
    good final ↔ machine.Guarded guard state actions := by
  induction actions generalizing state with
  | nil =>
      have heq : state = final := by simpa using hrun
      exact ⟨fun _ => trivial, fun _ => heq ▸ hgood⟩
  | cons action actions ih =>
      obtain ⟨next, hnext, hrest⟩ := run_cons_eq_some.mp hrun
      have hstep := hiff state action next hstart hgood hnext
      constructor
      · intro hfinal
        have hgoodNext : good next := by
          by_contra hbad
          have hlost : ¬ good final :=
            @run_invariant σ α machine (fun current => ¬ good current)
              (fun current other after hcurrent hafter hregained =>
                hcurrent (hback current other after hafter hregained))
              next final actions hrest hbad
          exact hlost hfinal
        have hguard := hstep.mp hgoodNext
        refine ⟨hguard, fun other hother => ?_⟩
        obtain rfl : next = other := Option.some.inj (hnext.symm.trans hother)
        exact (ih hrest (hinv state action next hstart hguard hnext)
          hgoodNext).mp hfinal
      · rintro ⟨hguard, hguarded⟩
        exact (ih hrest (hinv state action next hstart hguard hnext)
          (hstep.mpr hguard)).mpr (hguarded next hnext)

/-- Two guards that agree in every state of an invariant admit the same runs
from it. -/
theorem guarded_iff_of_invariant
    {machine : Machine σ α} {first second : σ → α → Prop} {inv : σ → Prop}
    (hiff : ∀ state action, inv state →
      (first state action ↔ second state action))
    (hinv : ∀ state action next, inv state → second state action →
      machine.step state action = some next → inv next)
    {state : σ} {actions : List α} (hstart : inv state) :
    machine.Guarded first state actions ↔
      machine.Guarded second state actions := by
  induction actions generalizing state with
  | nil => exact Iff.rfl
  | cons action actions ih =>
      constructor
      · rintro ⟨hfirst, hrest⟩
        have hsecond := (hiff state action hstart).mp hfirst
        refine ⟨hsecond, fun next hnext => ?_⟩
        exact (ih (hinv state action next hstart hsecond hnext)).mp
          (hrest next hnext)
      · rintro ⟨hsecond, hrest⟩
        refine ⟨(hiff state action hstart).mpr hsecond, fun next hnext => ?_⟩
        exact (ih (hinv state action next hstart hsecond hnext)).mpr
          (hrest next hnext)

/-- Two machines that step alike wherever the guard admits the action have
the same guarded runs, and any other guard admits the same of them. -/
theorem run_eq_of_guarded
    {first second : Machine σ α} {guard : σ → α → Prop}
    (hstep : ∀ state action, guard state action →
      first.step state action = second.step state action)
    {state : σ} {actions : List α}
    (hguard : first.Guarded guard state actions) :
    first.run state actions = second.run state actions ∧
      ∀ other : σ → α → Prop, first.Guarded other state actions ↔
        second.Guarded other state actions := by
  induction actions generalizing state with
  | nil => exact ⟨rfl, fun _ => Iff.rfl⟩
  | cons action actions ih =>
      obtain ⟨hfirst, hrest⟩ := hguard
      have hsame := hstep state action hfirst
      simp only [run, Guarded]
      rw [← hsame]
      cases hnext : first.step state action with
      | none => exact ⟨rfl, fun _ => by simp⟩
      | some next =>
          obtain ⟨hrun, hguarded⟩ := ih (hrest next hnext)
          refine ⟨hrun, fun other => and_congr_right' ?_⟩
          constructor
          · rintro hother _ ⟨⟩
            exact (hguarded other).mp (hother next rfl)
          · rintro hother _ ⟨⟩
            exact (hguarded other).mpr (hother next rfl)

theorem Reachable.invariant
    {machine : Machine σ α} {inv : σ → Prop} {state : σ}
    (hinit : ∀ start, machine.init start → inv start)
    (hstep : ∀ current action next, inv current →
      machine.step current action = some next → inv next)
    (hreach : machine.Reachable state) : inv state := by
  obtain ⟨start, actions, hstart, hrun⟩ := hreach
  exact run_invariant hstep hrun (hinit start hstart)

theorem ReachableUnder.invariant
    {machine : Machine σ α} {guard : σ → α → Prop} {inv : σ → Prop}
    {state : σ}
    (hinit : ∀ start, machine.init start → inv start)
    (hstep : ∀ current action next, inv current → guard current action →
      machine.step current action = some next → inv next)
    (hreach : machine.ReachableUnder guard state) : inv state := by
  obtain ⟨start, actions, hstart, hguard, hrun⟩ := hreach
  exact run_invariant_of_guarded hstep hguard hrun (hinit start hstart)

end Machine

end StepMachine
