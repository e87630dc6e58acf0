import StoreCpp.StepMachine
import Mathlib.Data.List.Count
import Mathlib.Logic.Function.Basic

/-!
# Consuming a topic

`createDispatcher` hands each message to the callback and then commits it.
The library polls the partitions of the topic, each in the order of its log; a
callback or a commit that throws ends the loop, and so does a crash at any
point.  A new consumer, like one that is assigned a partition again, resumes
at the offset that the broker holds for its group, and where it holds none as
`auto.offset.reset` says.  Where `enable.auto.commit` is not turned off the
library also commits by itself what it has handed out.
-/

namespace StoreCpp

namespace KafkaBaseClient

open StepMachine

/-- `auto.offset.reset`: where a group without a committed offset starts. -/
inductive OffsetReset where
  | smallest
  | largest

/-- The properties of the configuration that matter, with the library's
defaults. -/
structure Configuration where
  autoOffsetReset : OffsetReset := .largest
  enableAutoCommit : Bool := true

/-- What the loop of the dispatcher is doing. -/
inductive Dispatch (π : Type*) where
  | stopped
  | polling
  | calling (partitionId : π) (offset : ℕ)
  | committing (partitionId : π) (offset : ℕ)

/-- `calls` and `handled` are the history of the callback: the messages it was
called with, and those it returned from.  `started` is the offset at which the
group last started to read a partition without a committed offset. -/
structure Consumer (π μ : Type*) where
  log : π → List μ
  committed : π → Option ℕ
  started : π → ℕ
  position : π → ℕ
  dispatch : Dispatch π
  calls : List (π × ℕ)
  handled : List (π × ℕ)

inductive Action (π μ : Type*) where
  | produce (partitionId : π) (message : μ)
  | subscribe
  | assign (partitionId : π)
  | poll (partitionId : π)
  | funcReturns
  | funcThrows
  | commitReturns
  | commitThrows (applied : Bool)
  | autoCommit (partitionId : π)
  | stop
  | crash

variable {π μ : Type*} [DecidableEq π]

namespace Consumer

/-- The broker stores the offset of the next message of the partition. -/
def commit (consumer : Consumer π μ) (partitionId : π) (offset : ℕ) :
    Consumer π μ :=
  { consumer with
    committed := Function.update consumer.committed partitionId
      (some (offset + 1)) }

/-- Where `auto.offset.reset` sends a group that the broker holds no offset
for. -/
def resetOffset (config : Configuration) (consumer : Consumer π μ)
    (partitionId : π) : ℕ :=
  match config.autoOffsetReset with
  | .smallest => 0
  | .largest => (consumer.log partitionId).length

def resumeOffset (config : Configuration) (consumer : Consumer π μ)
    (partitionId : π) : ℕ :=
  (consumer.committed partitionId).getD
    (consumer.resetOffset config partitionId)

def startOffset (config : Configuration) (consumer : Consumer π μ)
    (partitionId : π) : ℕ :=
  match consumer.committed partitionId with
  | some _ => consumer.started partitionId
  | none => consumer.resetOffset config partitionId

def step (config : Configuration) (consumer : Consumer π μ) :
    Action π μ → Option (Consumer π μ)
  | .produce partitionId message => some { consumer with
      log := Function.update consumer.log partitionId
        (consumer.log partitionId ++ [message]) }
  | .subscribe =>
      match consumer.dispatch with
      | .stopped => some { consumer with
          started := consumer.startOffset config
          position := consumer.resumeOffset config
          dispatch := .polling }
      | _ => none
  | .assign partitionId =>
      match consumer.dispatch with
      | .polling => some { consumer with
          started := Function.update consumer.started partitionId
            (consumer.startOffset config partitionId)
          position := Function.update consumer.position partitionId
            (consumer.resumeOffset config partitionId) }
      | _ => none
  | .poll partitionId =>
      match consumer.dispatch with
      | .polling =>
          let offset := consumer.position partitionId
          if offset < (consumer.log partitionId).length then
            some { consumer with
              position := Function.update consumer.position partitionId
                (offset + 1)
              dispatch := .calling partitionId offset
              calls := consumer.calls ++ [(partitionId, offset)] }
          else none
      | _ => none
  | .funcReturns =>
      match consumer.dispatch with
      | .calling partitionId offset => some { consumer with
          dispatch := .committing partitionId offset
          handled := consumer.handled ++ [(partitionId, offset)] }
      | _ => none
  | .funcThrows =>
      match consumer.dispatch with
      | .calling _ _ => some { consumer with dispatch := .stopped }
      | _ => none
  | .commitReturns =>
      match consumer.dispatch with
      | .committing partitionId offset =>
          some { consumer.commit partitionId offset with dispatch := .polling }
      | _ => none
  | .commitThrows applied =>
      match consumer.dispatch with
      | .committing partitionId offset =>
          let after := if applied then consumer.commit partitionId offset
            else consumer
          some { after with dispatch := .stopped }
      | _ => none
  | .autoCommit partitionId =>
      match consumer.dispatch with
      | .stopped => none
      | _ =>
          if config.enableAutoCommit then some { consumer with
            committed := Function.update consumer.committed partitionId
              (some (consumer.position partitionId)) }
          else none
  | .stop =>
      match consumer.dispatch with
      | .polling => some { consumer with dispatch := .stopped }
      | _ => none
  | .crash => some { consumer with dispatch := .stopped }

end Consumer

def consumers (config : Configuration) (π μ : Type*) [DecidableEq π] :
    Machine (Consumer π μ) (Action π μ) where
  init consumer := consumer.dispatch = .stopped ∧ consumer.calls = [] ∧
    consumer.handled = [] ∧ ∀ partitionId,
      consumer.committed partitionId = none ∧ consumer.started partitionId = 0
  step consumer action := consumer.step config action

/-- The consumer starts to read again from the committed offset. -/
def Action.Resumes : Action π μ → Bool
  | .subscribe => true
  | .assign _ => true
  | _ => false

/-- A message is called only when all before it in its partition have been,
from where the group started on. -/
def CallsInOrder (started : π → ℕ) (calls : List (π × ℕ)) : Prop :=
  ∀ before partitionId offset after,
    calls = before ++ (partitionId, offset) :: after →
      ∀ earlier < offset, started partitionId ≤ earlier →
        (partitionId, earlier) ∈ before

/-- The loop waits and no partition has a message that it has not read. -/
def Consumer.Idle (consumer : Consumer π μ) : Prop :=
  consumer.dispatch = .polling ∧
    ∀ partitionId, (consumer.log partitionId).length ≤
      consumer.position partitionId

/-- What has been read and not yet handled is the message in hand. -/
def Consumer.Covered (consumer : Consumer π μ) : Prop :=
  match consumer.dispatch with
  | .stopped => True
  | .polling => ∀ partitionId, ∀ offset < consumer.position partitionId,
      consumer.started partitionId ≤ offset →
        (partitionId, offset) ∈ consumer.handled
  | .calling current inHand =>
      consumer.position current = inHand + 1 ∧
        ∀ partitionId, ∀ offset < consumer.position partitionId,
          consumer.started partitionId ≤ offset →
            (partitionId, offset) = (current, inHand) ∨
              (partitionId, offset) ∈ consumer.handled
  | .committing current inHand =>
      consumer.position current = inHand + 1 ∧
        ∀ partitionId, ∀ offset < consumer.position partitionId,
          consumer.started partitionId ≤ offset →
            (partitionId, offset) ∈ consumer.handled

structure Consumer.Inv (config : Configuration) (resumes : ℕ)
    (consumer : Consumer π μ) : Prop where
  committed : ∀ partitionId committed,
    consumer.committed partitionId = some committed →
      ∀ offset < committed, consumer.started partitionId ≤ offset →
        (partitionId, offset) ∈ consumer.handled
  smallest : config.autoOffsetReset = .smallest →
    ∀ partitionId, consumer.started partitionId = 0
  logged : ∀ call ∈ consumer.calls, call.2 < (consumer.log call.1).length
  called : ∀ call ∈ consumer.handled, call ∈ consumer.calls
  inHand : ∀ partitionId offset,
    consumer.dispatch = .calling partitionId offset →
      (partitionId, offset) ∈ consumer.calls
  ordered : CallsInOrder consumer.started consumer.calls
  covered : consumer.Covered
  counted : ∀ call, consumer.calls.count call ≤ resumes
  fresh : consumer.dispatch ≠ .stopped → ∀ partitionId offset,
    consumer.position partitionId ≤ offset →
      consumer.calls.count (partitionId, offset) < resumes

omit [DecidableEq π] in
theorem callsInOrder_concat {started : π → ℕ} {calls : List (π × ℕ)}
    {partitionId : π} {offset : ℕ} (hordered : CallsInOrder started calls)
    (hearlier : ∀ earlier < offset, started partitionId ≤ earlier →
      (partitionId, earlier) ∈ calls) :
    CallsInOrder started (calls ++ [(partitionId, offset)]) := by
  intro before current inHand after hsplit earlier hlt hle
  rcases List.eq_nil_or_concat after with rfl | ⟨rest, last, rfl⟩
  · obtain ⟨hbefore, hlast⟩ := List.append_inj' hsplit rfl
    cases hlast
    rw [← hbefore]
    exact hearlier earlier hlt hle
  · rw [List.concat_eq_append, ← List.cons_append, ← List.append_assoc]
      at hsplit
    obtain ⟨hbefore, _⟩ := List.append_inj' hsplit rfl
    exact hordered before current inHand rest hbefore earlier hlt hle

theorem lt_update {position : π → ℕ} {changed partitionId : π}
    {value offset : ℕ}
    (hlt : offset < Function.update position changed value partitionId) :
    partitionId = changed ∧ offset < value ∨
      partitionId ≠ changed ∧ offset < position partitionId := by
  by_cases heq : partitionId = changed
  · subst heq
    rw [Function.update_self] at hlt
    exact Or.inl ⟨rfl, hlt⟩
  · rw [Function.update_of_ne heq] at hlt
    exact Or.inr ⟨heq, hlt⟩

theorem update_le {position : π → ℕ} {changed partitionId : π}
    {value offset : ℕ}
    (hle : Function.update position changed value partitionId ≤ offset) :
    partitionId = changed ∧ value ≤ offset ∨
      partitionId ≠ changed ∧ position partitionId ≤ offset := by
  by_cases heq : partitionId = changed
  · subst heq
    rw [Function.update_self] at hle
    exact Or.inl ⟨rfl, hle⟩
  · rw [Function.update_of_ne heq] at hle
    exact Or.inr ⟨heq, hle⟩

namespace Consumer

variable {config : Configuration}

/-- A partition keeps its start, or starts behind all messages that have been
called. -/
theorem Inv.startOffset_cases {resumes : ℕ} {consumer : Consumer π μ}
    (hinv : consumer.Inv config resumes) (partitionId : π) :
    consumer.startOffset config partitionId = consumer.started partitionId ∨
      consumer.committed partitionId = none ∧
        ∀ call ∈ consumer.calls, call.1 = partitionId →
          call.2 < consumer.startOffset config partitionId := by
  unfold startOffset
  cases hcommitted : consumer.committed partitionId with
  | some committed => exact Or.inl rfl
  | none =>
      unfold resetOffset
      cases hreset : config.autoOffsetReset with
      | smallest => exact Or.inl (hinv.smallest hreset partitionId).symm
      | largest =>
          refine Or.inr ⟨rfl, ?_⟩
          rintro call hcall rfl
          exact hinv.logged call hcall

theorem Inv.startOffset_smallest {resumes : ℕ} {consumer : Consumer π μ}
    (hinv : consumer.Inv config resumes)
    (hreset : config.autoOffsetReset = .smallest) (partitionId : π) :
    consumer.startOffset config partitionId = 0 := by
  unfold startOffset resetOffset
  rw [hreset]
  cases consumer.committed partitionId with
  | some committed => exact hinv.smallest hreset partitionId
  | none => rfl

/-- All that is left out between the start and the offset to resume at has
been handled. -/
theorem Inv.handled_of_lt_resume {resumes : ℕ} {consumer : Consumer π μ}
    (hinv : consumer.Inv config resumes) {partitionId : π} {offset : ℕ}
    (hlt : offset < consumer.resumeOffset config partitionId)
    (hle : consumer.startOffset config partitionId ≤ offset) :
    (partitionId, offset) ∈ consumer.handled := by
  unfold resumeOffset at hlt
  unfold startOffset at hle
  cases hcommitted : consumer.committed partitionId with
  | some committed =>
      rw [hcommitted] at hlt hle
      exact hinv.committed partitionId committed hcommitted offset hlt hle
  | none =>
      rw [hcommitted] at hlt hle
      exact absurd hlt (Nat.not_lt.mpr hle)

/-- The invariant of the history survives a new start of any partitions. -/
theorem Inv.restart {resumes : ℕ} {consumer : Consumer π μ}
    (hinv : consumer.Inv config resumes) {started position : π → ℕ}
    (hstarted : ∀ partitionId,
      started partitionId = consumer.started partitionId ∨
        started partitionId = consumer.startOffset config partitionId)
    (hcovered : ∀ partitionId, ∀ offset < position partitionId,
      started partitionId ≤ offset →
        (partitionId, offset) ∈ consumer.handled) :
    { consumer with started, position, dispatch := .polling }.Inv config
      (resumes + 1) := by
  have hkept : ∀ partitionId,
      started partitionId = consumer.started partitionId ∨
        consumer.committed partitionId = none ∧
          ∀ call ∈ consumer.calls, call.1 = partitionId →
            call.2 < started partitionId := by
    intro partitionId
    rcases hstarted partitionId with hsame | hnew
    · exact Or.inl hsame
    · rcases hinv.startOffset_cases partitionId with hsame | ⟨hnone, hlt⟩
      · exact Or.inl (hnew.trans hsame)
      · exact Or.inr ⟨hnone, hnew ▸ hlt⟩
  refine {
    committed := fun partitionId committed hcommitted offset hlt hle => ?_
    smallest := fun hreset partitionId => ?_
    logged := hinv.logged
    called := hinv.called
    inHand := fun _ _ hcalling => by cases hcalling
    ordered := fun before partitionId offset after hsplit earlier hlt hle => ?_
    covered := hcovered
    counted := fun call => Nat.le_succ_of_le (hinv.counted call)
    fresh := fun _ partitionId offset _ =>
      Nat.lt_succ_of_le (hinv.counted (partitionId, offset)) }
  · rcases hkept partitionId with hsame | ⟨hnone, _⟩
    · exact hinv.committed partitionId committed hcommitted offset hlt
        (hsame ▸ hle)
    · rw [show consumer.committed partitionId = some committed from hcommitted]
        at hnone
      cases hnone
  · rcases hstarted partitionId with hsame | hnew
    · exact hsame.trans (hinv.smallest hreset partitionId)
    · exact hnew.trans (hinv.startOffset_smallest hreset partitionId)
  · rcases hkept partitionId with hsame | ⟨_, hcalls⟩
    · exact hinv.ordered before partitionId offset after hsplit earlier hlt
        (hsame ▸ hle)
    · have hmem : (partitionId, offset) ∈ consumer.calls := by
        rw [show consumer.calls = _ from hsplit]
        exact List.mem_append_right _ List.mem_cons_self
      have hbefore := hcalls _ hmem rfl
      dsimp only at hle hbefore
      omega

theorem Inv.subscribe {resumes : ℕ} {consumer next : Consumer π μ}
    (hinv : consumer.Inv config resumes)
    (hstep : consumer.step config .subscribe = some next) :
    next.Inv config (resumes + 1) := by
  cases hdispatch : consumer.dispatch with
  | stopped =>
      simp only [step, hdispatch, Option.some.injEq] at hstep
      subst next
      exact hinv.restart (fun _ => Or.inr rfl)
        fun _ _ hlt hle => hinv.handled_of_lt_resume hlt hle
  | polling => simp [step, hdispatch] at hstep
  | calling current inHand => simp [step, hdispatch] at hstep
  | committing current inHand => simp [step, hdispatch] at hstep

theorem Inv.assign {resumes : ℕ} {consumer next : Consumer π μ}
    {assigned : π} (hinv : consumer.Inv config resumes)
    (hstep : consumer.step config (.assign assigned) = some next) :
    next.Inv config (resumes + 1) := by
  cases hdispatch : consumer.dispatch with
  | polling =>
      simp only [step, hdispatch, Option.some.injEq] at hstep
      subst next
      have hcovered := hinv.covered
      simp only [Covered, hdispatch] at hcovered
      have hstarted : ∀ partitionId,
          Function.update consumer.started assigned
              (consumer.startOffset config assigned) partitionId =
            consumer.started partitionId ∨
          Function.update consumer.started assigned
              (consumer.startOffset config assigned) partitionId =
            consumer.startOffset config partitionId := by
        intro partitionId
        by_cases heq : partitionId = assigned
        · exact Or.inr (by rw [heq, Function.update_self])
        · exact Or.inl (Function.update_of_ne heq _ _)
      refine hinv.restart hstarted fun partitionId offset hlt hle => ?_
      rcases lt_update hlt with ⟨rfl, hbefore⟩ | ⟨hne, hbefore⟩
      · rw [Function.update_self] at hle
        exact hinv.handled_of_lt_resume hbefore hle
      · rw [Function.update_of_ne hne] at hle
        exact hcovered partitionId offset hbefore hle
  | stopped => simp [step, hdispatch] at hstep
  | calling current inHand => simp [step, hdispatch] at hstep
  | committing current inHand => simp [step, hdispatch] at hstep

theorem Inv.poll {resumes : ℕ} {consumer next : Consumer π μ}
    {polled : π} (hinv : consumer.Inv config resumes)
    (hstep : consumer.step config (.poll polled) = some next) :
    next.Inv config resumes := by
  cases hdispatch : consumer.dispatch with
  | polling =>
      simp only [step, hdispatch] at hstep
      split_ifs at hstep with hmore
      cases hstep
      have hcovered := hinv.covered
      simp only [Covered, hdispatch] at hcovered
      have hfresh := hinv.fresh (by rw [hdispatch]; simp)
      refine { hinv with
        logged := fun call hcall => ?_
        called := fun call hcall =>
          List.mem_append_left _ (hinv.called call hcall)
        inHand := fun partitionId offset hcalling => ?_
        ordered := callsInOrder_concat hinv.ordered fun earlier hlt hle =>
          hinv.called _ (hcovered polled earlier hlt hle)
        covered := ⟨Function.update_self .., ?_⟩
        counted := fun call => ?_
        fresh := fun _ partitionId offset hle => ?_ }
      · rcases List.mem_append.mp hcall with hbefore | hnow
        · exact hinv.logged call hbefore
        · rw [List.mem_singleton.mp hnow]
          exact hmore
      · cases hcalling
        exact List.mem_append_right _ List.mem_cons_self
      · intro partitionId offset hlt hle
        rcases lt_update hlt with ⟨rfl, hread⟩ | ⟨_, hread⟩
        · rcases Nat.lt_succ_iff_lt_or_eq.mp hread with hbefore | hnow
          · exact Or.inr (hcovered partitionId offset hbefore hle)
          · exact Or.inl (by rw [hnow])
        · exact Or.inr (hcovered partitionId offset hread hle)
      · rw [List.count_append, List.count_singleton]
        split_ifs with hcall
        · have heq := eq_of_beq hcall
          have hbefore :=
            hfresh polled (consumer.position polled) (Nat.le_refl _)
          rw [heq] at hbefore
          omega
        · exact hinv.counted call
      · have hne : (partitionId, offset) ≠
            (polled, consumer.position polled) := by
          rcases update_le hle with ⟨rfl, hafter⟩ | ⟨hother, _⟩
          · simp only [ne_eq, Prod.mk.injEq, true_and]
            omega
          · simp [hother]
        have hbefore : consumer.position partitionId ≤ offset := by
          rcases update_le hle with ⟨rfl, hafter⟩ | ⟨_, hafter⟩
          · omega
          · exact hafter
        rw [List.count_append, List.count_singleton, beq_false_of_ne hne.symm]
        exact hfresh partitionId offset hbefore
  | stopped => simp [step, hdispatch] at hstep
  | calling current inHand => simp [step, hdispatch] at hstep
  | committing current inHand => simp [step, hdispatch] at hstep

theorem Inv.stopped {resumes : ℕ} {consumer : Consumer π μ}
    (hinv : consumer.Inv config resumes) :
    { consumer with dispatch := .stopped }.Inv config resumes :=
  { hinv with
    inHand := fun _ _ hcalling => by cases hcalling
    covered := trivial
    fresh := fun hrunning => absurd rfl hrunning }

theorem Inv.funcReturns {resumes : ℕ} {consumer next : Consumer π μ}
    (hinv : consumer.Inv config resumes)
    (hstep : consumer.step config .funcReturns = some next) :
    next.Inv config resumes := by
  cases hdispatch : consumer.dispatch with
  | calling current inHand =>
      simp only [step, hdispatch, Option.some.injEq] at hstep
      subst next
      have hcovered := hinv.covered
      simp only [Covered, hdispatch] at hcovered
      refine { hinv with
        committed := fun partitionId committed hcommitted offset hlt hle =>
          List.mem_append_left _
            (hinv.committed partitionId committed hcommitted offset hlt hle)
        called := fun call hcall => ?_
        inHand := fun _ _ hcalling => by cases hcalling
        covered := ⟨hcovered.1, fun partitionId offset hlt hle => ?_⟩
        fresh := fun _ => hinv.fresh (by rw [hdispatch]; simp) }
      · rcases List.mem_append.mp hcall with hbefore | hnow
        · exact hinv.called call hbefore
        · rw [List.mem_singleton.mp hnow]
          exact hinv.inHand current inHand hdispatch
      · rcases hcovered.2 partitionId offset hlt hle with hnow | hbefore
        · rw [hnow]
          exact List.mem_append_right _ List.mem_cons_self
        · exact List.mem_append_left _ hbefore
  | stopped => simp [step, hdispatch] at hstep
  | polling => simp [step, hdispatch] at hstep
  | committing current inHand => simp [step, hdispatch] at hstep

/-- A commit covers the message in hand and all before it. -/
theorem Inv.commit {resumes : ℕ} {consumer : Consumer π μ} {current : π}
    {inHand : ℕ} (hinv : consumer.Inv config resumes)
    (hdispatch : consumer.dispatch = .committing current inHand) :
    { consumer.commit current inHand with dispatch := .polling }.Inv
      config resumes := by
  have hcovered := hinv.covered
  simp only [Covered, hdispatch] at hcovered
  refine { hinv with
    committed := fun partitionId committed hcommitted offset hlt hle => ?_
    inHand := fun _ _ hcalling => by cases hcalling
    covered := hcovered.2
    fresh := fun _ => hinv.fresh (by rw [hdispatch]; simp) }
  dsimp only [Consumer.commit] at hcommitted
  by_cases heq : partitionId = current
  · subst heq
    rw [Function.update_self] at hcommitted
    cases hcommitted
    exact hcovered.2 partitionId offset (by omega) hle
  · rw [Function.update_of_ne heq] at hcommitted
    exact hinv.committed partitionId committed hcommitted offset hlt hle

theorem Inv.commitReturns {resumes : ℕ} {consumer next : Consumer π μ}
    (hinv : consumer.Inv config resumes)
    (hstep : consumer.step config .commitReturns = some next) :
    next.Inv config resumes := by
  cases hdispatch : consumer.dispatch with
  | committing current inHand =>
      simp only [step, hdispatch, Option.some.injEq] at hstep
      rw [← hstep]
      exact hinv.commit hdispatch
  | stopped => simp [step, hdispatch] at hstep
  | polling => simp [step, hdispatch] at hstep
  | calling current inHand => simp [step, hdispatch] at hstep

theorem Inv.commitThrows {resumes : ℕ} {consumer next : Consumer π μ}
    {applied : Bool} (hinv : consumer.Inv config resumes)
    (hstep : consumer.step config (.commitThrows applied) = some next) :
    next.Inv config resumes := by
  cases hdispatch : consumer.dispatch with
  | committing current inHand =>
      simp only [step, hdispatch, Option.some.injEq] at hstep
      rw [← hstep]
      cases applied with
      | true => exact (hinv.commit hdispatch).stopped
      | false => exact hinv.stopped
  | stopped => simp [step, hdispatch] at hstep
  | polling => simp [step, hdispatch] at hstep
  | calling current inHand => simp [step, hdispatch] at hstep

theorem Inv.produce {resumes : ℕ} {consumer : Consumer π μ}
    {partitionId : π} {message : μ} (hinv : consumer.Inv config resumes) :
    { consumer with
      log := Function.update consumer.log partitionId
        (consumer.log partitionId ++ [message]) }.Inv config resumes := by
  refine { hinv with logged := fun call hcall => ?_ }
  have hbefore := hinv.logged call hcall
  dsimp only
  by_cases heq : call.1 = partitionId
  · rw [heq] at hbefore
    simp only [heq, Function.update_self, List.length_append]
    omega
  · rw [Function.update_of_ne heq]
    exact hbefore

theorem Inv.perform {resumes : ℕ} {consumer next : Consumer π μ}
    {action : Action π μ} (hmanual : config.enableAutoCommit = false)
    (hinv : consumer.Inv config resumes)
    (hstep : consumer.step config action = some next) :
    next.Inv config (resumes + if action.Resumes then 1 else 0) := by
  cases action with
  | produce partitionId message =>
      cases hstep
      exact hinv.produce
  | subscribe => exact hinv.subscribe hstep
  | assign partitionId => exact hinv.assign hstep
  | poll partitionId => exact hinv.poll hstep
  | funcReturns => exact hinv.funcReturns hstep
  | funcThrows =>
      cases hdispatch : consumer.dispatch with
      | calling current inHand =>
          simp only [Consumer.step, hdispatch, Option.some.injEq] at hstep
          rw [← hstep]
          exact hinv.stopped
      | stopped => simp [Consumer.step, hdispatch] at hstep
      | polling => simp [Consumer.step, hdispatch] at hstep
      | committing current inHand => simp [Consumer.step, hdispatch] at hstep
  | commitReturns => exact hinv.commitReturns hstep
  | commitThrows applied => exact hinv.commitThrows hstep
  | autoCommit partitionId =>
      cases hdispatch : consumer.dispatch <;>
        simp [Consumer.step, hdispatch, hmanual] at hstep
  | stop =>
      cases hdispatch : consumer.dispatch with
      | polling =>
          simp only [Consumer.step, hdispatch, Option.some.injEq] at hstep
          rw [← hstep]
          exact hinv.stopped
      | stopped => simp [Consumer.step, hdispatch] at hstep
      | calling current inHand => simp [Consumer.step, hdispatch] at hstep
      | committing current inHand => simp [Consumer.step, hdispatch] at hstep
  | crash =>
      cases hstep
      exact hinv.stopped

theorem Inv.initial {start : Consumer π μ}
    (hstart : (consumers config π μ).init start) : start.Inv config 0 := by
  obtain ⟨hstopped, hcalls, hhandled, hfirst⟩ := hstart
  constructor
  · intro partitionId committed hcommitted
    rw [(hfirst partitionId).1] at hcommitted
    cases hcommitted
  · exact fun _ partitionId => (hfirst partitionId).2
  · simp [hcalls]
  · simp [hhandled]
  · simp [hstopped]
  · simp [CallsInOrder, hcalls]
  · simp [Covered, hstopped]
  · simp [hcalls]
  · simp [hstopped]

theorem Inv.run {start final : Consumer π μ} {actions : List (Action π μ)}
    (hmanual : config.enableAutoCommit = false)
    (hstart : (consumers config π μ).init start)
    (hrun : (consumers config π μ).run start actions = some final) :
    final.Inv config (actions.countP Action.Resumes) := by
  refine @Machine.run_history _ _ (consumers config π μ)
    (fun before consumer =>
      consumer.Inv config (before.countP Action.Resumes))
    ?_ start final actions (Inv.initial hstart) hrun
  intro before consumer action next hinv hstep
  rw [List.countP_append, List.countP_singleton]
  exact Inv.perform hmanual hinv hstep

end Consumer

/-- The configuration of the tests, which leaves `auto.offset.reset` out. -/
def testConfiguration : Configuration where
  enableAutoCommit := false

def newConsumer : Consumer Bool ℕ where
  log _ := []
  committed _ := none
  started _ := 0
  position _ := 0
  dispatch := .stopped
  calls := []
  handled := []

/-- The first message is there before the group and is never read; the commit
of the second fails, and the message comes again. -/
def failedCommit : List (Action Bool ℕ) :=
  [.produce true 10, .subscribe, .produce true 11, .produce true 12,
    .poll true, .funcReturns, .commitReturns, .poll true, .funcReturns,
    .commitThrows false, .subscribe, .poll true, .funcReturns, .commitReturns]

def consumerAfter (actions : List (Action Bool ℕ)) : Consumer Bool ℕ :=
  ((consumers testConfiguration Bool ℕ).run newConsumer actions).getD
    newConsumer

end KafkaBaseClient

end StoreCpp
