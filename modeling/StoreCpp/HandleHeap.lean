import Mathlib.Data.Finset.Card

/-!
# Programs over handles

A program creates objects of some kinds, uses them through their handles and
frees them.
It returns, throws, terminates, or uses a handle that is not live, after
which nothing is known.  `Meets` is the weakest precondition of a program for
a postcondition of each of these four ends; the rules below reduce it along
the program.
-/

namespace HandleHeap

structure Handle (κ : Type) where
  kind : κ
  number : ℕ
  deriving DecidableEq

/-- The objects that are live, and the number that the next one gets. -/
structure Heap (κ : Type) where
  live : Finset (Handle κ)
  next : ℕ
  fresh : ∀ handle ∈ live, handle.number < next

inductive Outcome (κ α : Type) where
  | returned (value : α) (heap : Heap κ)
  | threw (heap : Heap κ)
  | terminated
  | undefined

def Program (κ α : Type) : Type := Heap κ → Outcome κ α

structure Post (κ α : Type) where
  returned : α → Heap κ → Prop
  threw : Heap κ → Prop
  terminated : Prop
  undefined : Prop

variable {κ α β γ : Type}

namespace Heap

def handle (heap : Heap κ) (kind : κ) : Handle κ := ⟨kind, heap.next⟩

theorem handle_notMem (heap : Heap κ) (kind : κ) :
    heap.handle kind ∉ heap.live := by
  intro hmem
  exact Nat.lt_irrefl _ (heap.fresh _ hmem)

variable [DecidableEq κ]

def add (heap : Heap κ) (kind : κ) : Heap κ where
  live := insert (heap.handle kind) heap.live
  next := heap.next + 1
  fresh := by
    intro handle hmem
    rcases Finset.mem_insert.mp hmem with heq | hmem
    · rw [heq]
      exact Nat.lt_succ_self _
    · have hlt := heap.fresh handle hmem
      omega

def erase (heap : Heap κ) (handle : Handle κ) : Heap κ where
  live := heap.live.erase handle
  next := heap.next
  fresh := by
    intro other hmem
    exact heap.fresh other (Finset.mem_of_mem_erase hmem)

/-- Beside the base exactly these objects are live, each of them once in the
list. -/
structure Owns (heap : Heap κ) (base : Finset (Handle κ))
    (handles : List (Handle κ)) : Prop where
  live : heap.live = base ∪ handles.toFinset
  nodup : handles.Nodup
  apart : ∀ handle ∈ handles, handle ∉ base

theorem owns_nil (heap : Heap κ) : heap.Owns heap.live [] where
  live := by simp
  nodup := List.nodup_nil
  apart := by simp

namespace Owns

variable {heap next : Heap κ} {base : Finset (Handle κ)}
variable {handles : List (Handle κ)} {handle : Handle κ}

theorem mem_base (howns : heap.Owns base handles) (hmem : handle ∈ base) :
    handle ∈ heap.live := by
  rw [howns.live]
  exact Finset.mem_union_left _ hmem

theorem mem (howns : heap.Owns base handles) (hmem : handle ∈ handles) :
    handle ∈ heap.live := by
  rw [howns.live]
  exact Finset.mem_union_right _ (List.mem_toFinset.mpr hmem)

theorem add (howns : heap.Owns base handles) (kind : κ) :
    (heap.add kind).Owns base (heap.handle kind :: handles) where
  live := by
    change insert (heap.handle kind) heap.live = _
    rw [howns.live, List.toFinset_cons, Finset.union_insert]
  nodup := by
    refine List.nodup_cons.mpr ⟨fun hmem => ?_, howns.nodup⟩
    exact heap.handle_notMem kind (howns.mem hmem)
  apart := by
    intro handle hmem
    rcases List.mem_cons.mp hmem with heq | hmem
    · rw [heq]
      exact fun hbase => heap.handle_notMem kind (howns.mem_base hbase)
    · exact howns.apart handle hmem

theorem erase (howns : heap.Owns base (handle :: handles)) :
    (heap.erase handle).Owns base handles where
  live := by
    have hfirst := (List.nodup_cons.mp howns.nodup).1
    have hapart := howns.apart handle List.mem_cons_self
    change heap.live.erase handle = _
    rw [howns.live, List.toFinset_cons, Finset.union_insert,
      Finset.erase_insert]
    simp [hfirst, hapart]
  nodup := (List.nodup_cons.mp howns.nodup).2
  apart := fun other hmem => howns.apart other (List.mem_cons_of_mem _ hmem)

theorem perm {other : List (Handle κ)} (howns : heap.Owns base handles)
    (hperm : handles.Perm other) : heap.Owns base other where
  live := by rw [howns.live, List.toFinset_eq_of_perm _ _ hperm]
  nodup := hperm.nodup_iff.mp howns.nodup
  apart := fun handle hmem => howns.apart handle (hperm.mem_iff.mpr hmem)

theorem of_live (howns : heap.Owns base handles)
    (hlive : next.live = heap.live) : next.Owns base handles where
  live := hlive.trans howns.live
  nodup := howns.nodup
  apart := howns.apart

/-- What the base of one step owns comes on top of what is owned. -/
theorem trans {more : List (Handle κ)} (howns : heap.Owns base handles)
    (hmore : next.Owns heap.live more) : next.Owns base (more ++ handles) where
  live := by
    rw [hmore.live, howns.live, List.toFinset_append, Finset.union_assoc,
      Finset.union_comm handles.toFinset]
  nodup := by
    refine List.nodup_append.mpr ⟨hmore.nodup, howns.nodup, ?_⟩
    rintro first hfirst _ hsecond rfl
    exact hmore.apart first hfirst (howns.mem hsecond)
  apart := by
    intro handle hmem hbase
    rcases List.mem_append.mp hmem with hmem | hmem
    · exact hmore.apart handle hmem (howns.mem_base hbase)
    · exact howns.apart handle hmem hbase

theorem live_eq (howns : heap.Owns base []) : heap.live = base := by
  simpa using howns.live

end Owns

end Heap

namespace Program

instance : Monad (Program κ) where
  pure value := fun heap => .returned value heap
  bind program rest := fun heap =>
    match program heap with
    | .returned value next => rest value next
    | .threw next => .threw next
    | .terminated => .terminated
    | .undefined => .undefined

def create [DecidableEq κ] (kind : κ) : Program κ (Handle κ) := fun heap =>
  .returned (heap.handle kind) (heap.add kind)

def use [DecidableEq κ] (handle : Handle κ) : Program κ Unit := fun heap =>
  if handle ∈ heap.live then .returned () heap else .undefined

def free [DecidableEq κ] (handle : Handle κ) : Program κ Unit := fun heap =>
  if handle ∈ heap.live then .returned () (heap.erase handle) else .undefined

def throwException : Program κ α := fun heap => .threw heap

def terminate : Program κ α := fun _ => .terminated

def fault : Program κ α := fun _ => .undefined

/-- Whether the program returned; an exception is caught. -/
def attempt (program : Program κ α) : Program κ (Option α) := fun heap =>
  match program heap with
  | .returned value next => .returned (some value) next
  | .threw next => .returned none next
  | .terminated => .terminated
  | .undefined => .undefined

/-- A loop over a list that updates a variable. -/
def forEach (body : γ → β → Program κ γ) : γ → List β → Program κ γ
  | acc, [] => pure acc
  | acc, item :: items => do
      let acc ← body acc item
      forEach body acc items

/-- The program ends in one of the ways that the postcondition allows. -/
def Meets (program : Program κ α) (post : Post κ α) (heap : Heap κ) : Prop :=
  match program heap with
  | .returned value next => post.returned value next
  | .threw next => post.threw next
  | .terminated => post.terminated
  | .undefined => post.undefined

variable {post : Post κ α} {heap : Heap κ}

@[simp] theorem meets_pure {value : α} :
    (pure value : Program κ α).Meets post heap ↔ post.returned value heap :=
  Iff.rfl

@[simp] theorem meets_bind {program : Program κ β} {rest : β → Program κ α} :
    (program >>= rest).Meets post heap ↔
      program.Meets ⟨fun value next => (rest value).Meets post next,
        post.threw, post.terminated, post.undefined⟩ heap := by
  unfold Meets
  change (match (match program heap with
    | .returned value next => rest value next
    | .threw next => .threw next
    | .terminated => .terminated
    | .undefined => .undefined : Outcome κ α) with
    | .returned value next => post.returned value next
    | .threw next => post.threw next
    | .terminated => post.terminated
    | .undefined => post.undefined) ↔ _
  cases program heap <;> rfl

section Handles

variable [DecidableEq κ]

@[simp] theorem meets_create {post : Post κ (Handle κ)} {kind : κ} :
    (create kind).Meets post heap ↔
      post.returned (heap.handle kind) (heap.add kind) := Iff.rfl

theorem create_then {rest : Handle κ → Program κ α} {kind : κ}
    (hrest : (rest (heap.handle kind)).Meets post (heap.add kind)) :
    (create kind >>= rest).Meets post heap :=
  meets_bind.mpr hrest

theorem use_then {rest : Unit → Program κ α} {handle : Handle κ}
    (hlive : handle ∈ heap.live) (hrest : (rest ()).Meets post heap) :
    (use handle >>= rest).Meets post heap := by
  rw [meets_bind]
  unfold Meets use
  rw [if_pos hlive]
  exact hrest

theorem meets_use_dead {post : Post κ Unit} {handle : Handle κ}
    (hdead : handle ∉ heap.live) :
    (use handle).Meets post heap ↔ post.undefined := by
  unfold Meets use
  rw [if_neg hdead]

theorem free_then {rest : Unit → Program κ α} {handle : Handle κ}
    (hlive : handle ∈ heap.live)
    (hrest : (rest ()).Meets post (heap.erase handle)) :
    (free handle >>= rest).Meets post heap := by
  rw [meets_bind]
  unfold Meets free
  rw [if_pos hlive]
  exact hrest

theorem meets_use {post : Post κ Unit} {handle : Handle κ}
    (hlive : handle ∈ heap.live) (hpost : post.returned () heap) :
    (use handle).Meets post heap := by
  unfold Meets use
  rwa [if_pos hlive]

theorem meets_free {post : Post κ Unit} {handle : Handle κ}
    (hlive : handle ∈ heap.live)
    (hpost : post.returned () (heap.erase handle)) :
    (free handle).Meets post heap := by
  unfold Meets free
  rwa [if_pos hlive]

end Handles

@[simp] theorem meets_throwException :
    (throwException : Program κ α).Meets post heap ↔ post.threw heap := Iff.rfl

@[simp] theorem meets_terminate :
    (terminate : Program κ α).Meets post heap ↔ post.terminated := Iff.rfl

@[simp] theorem meets_fault :
    (fault : Program κ α).Meets post heap ↔ post.undefined := Iff.rfl

@[simp] theorem meets_attempt {program : Program κ α}
    {post : Post κ (Option α)} :
    program.attempt.Meets post heap ↔
      program.Meets ⟨fun value next => post.returned (some value) next,
        fun next => post.returned none next, post.terminated,
        post.undefined⟩ heap := by
  unfold Meets attempt
  cases program heap <;> rfl

theorem Meets.mono {program : Program κ α} {weaker : Post κ α}
    (hmeets : program.Meets post heap)
    (hreturned : ∀ value next, post.returned value next →
      weaker.returned value next)
    (hthrew : ∀ next, post.threw next → weaker.threw next)
    (hterminated : post.terminated → weaker.terminated)
    (hundefined : post.undefined → weaker.undefined) :
    program.Meets weaker heap := by
  unfold Meets at hmeets ⊢
  cases houtcome : program heap with
  | returned value next =>
      rw [houtcome] at hmeets
      exact hreturned value next hmeets
  | threw next =>
      rw [houtcome] at hmeets
      exact hthrew next hmeets
  | terminated =>
      rw [houtcome] at hmeets
      exact hterminated hmeets
  | undefined =>
      rw [houtcome] at hmeets
      exact hundefined hmeets

/-- The rule of the sequence, for a first part of known behaviour. -/
theorem Meets.bind {program : Program κ β} {rest : β → Program κ α}
    {middle : Post κ β} (hprogram : program.Meets middle heap)
    (hreturned : ∀ value next, middle.returned value next →
      (rest value).Meets post next)
    (hthrew : ∀ next, middle.threw next → post.threw next)
    (hterminated : middle.terminated → post.terminated)
    (hundefined : middle.undefined → post.undefined) :
    (program >>= rest).Meets post heap := by
  rw [meets_bind]
  exact hprogram.mono hreturned hthrew hterminated hundefined

/-- The rule of the loop: each turn keeps the invariant, with one item fewer
to come. -/
theorem meets_forEach {body : γ → β → Program κ γ} {post : Post κ γ}
    (inv : γ → List β → Heap κ → Prop)
    (hturn : ∀ acc item items heap, inv acc (item :: items) heap →
      (body acc item).Meets ⟨fun acc next => inv acc items next,
        post.threw, post.terminated, post.undefined⟩ heap)
    (hdone : ∀ acc heap, inv acc [] heap → post.returned acc heap)
    {acc : γ} {items : List β} {heap : Heap κ} (hinv : inv acc items heap) :
    (forEach body acc items).Meets post heap := by
  induction items generalizing acc heap with
  | nil => exact hdone acc heap hinv
  | cons item items ih =>
      unfold forEach
      rw [meets_bind]
      refine (hturn acc item items heap hinv).mono ?_ ?_ id id
      · intro acc next hnext
        exact ih hnext
      · intro next hthrew
        exact hthrew

end Program

end HandleHeap
