import Mathlib.Data.List.Basic
import Mathlib.Tactic.TypeStar

/-!
# Borrowing from a pool

A pool hands out one of its available resources, or throws, and takes them
back one by one.  The calls made on it are recorded, so that an operation
that returns all it has borrowed can be told from one that loses a resource
or returns it twice.
-/

namespace ResourcePool

structure Pool (σ κ ε : Type*) where
  available : σ → ℕ
  borrow : σ → Except ε (κ × σ)
  unborrow : κ → σ → σ
  available_of_borrow : ∀ {state next : σ} {resource : κ},
    borrow state = .ok (resource, next) →
      available state = available next + 1
  borrow_of_available : ∀ {state : σ}, 0 < available state →
    ∃ resource next, borrow state = .ok (resource, next)
  available_unborrow : ∀ resource state,
    available (unborrow resource state) = available state + 1

inductive PoolCall (κ : Type*) where
  | borrow (resource : κ)
  | unborrow (resource : κ)
  deriving DecidableEq

/-- The state of a pool and the calls made on it so far. -/
structure Traced (σ κ : Type*) where
  pool : σ
  calls : List (PoolCall κ)

/-- The resources that are still out after the calls; `none` when a resource
was returned that was not out. -/
def outstanding {κ : Type*} [DecidableEq κ] :
    List κ → List (PoolCall κ) → Option (List κ)
  | held, [] => some held
  | held, .borrow resource :: calls => outstanding (resource :: held) calls
  | held, .unborrow resource :: calls =>
      if resource ∈ held then outstanding (held.erase resource) calls
      else none

namespace Pool

variable {σ κ ε α : Type*}

def take (pool : Pool σ κ ε) (state : Traced σ κ) :
    Except ε (κ × Traced σ κ) :=
  match pool.borrow state.pool with
  | .error thrown => .error thrown
  | .ok (resource, next) =>
      .ok (resource, ⟨next, state.calls ++ [.borrow resource]⟩)

def give (pool : Pool σ κ ε) (resource : κ) (state : Traced σ κ) :
    Traced σ κ :=
  ⟨pool.unborrow resource state.pool, state.calls ++ [.unborrow resource]⟩

/-- Borrows, runs the body, handles what it throws and returns what was
borrowed.  The body leaves the local values as they are where it ends or
throws; it is `none` where it is undefined. -/
def borrowing (pool : Pool σ κ ε) (locals : α)
    (body : κ → Option (α × Option ε)) (caught : ε → α → α)
    (state : Traced σ κ) : Option (α × Traced σ κ) :=
  match pool.take state with
  | .error thrown => some (caught thrown locals, state)
  | .ok (resource, held) =>
      (body resource).map fun (left, thrown) =>
        (thrown.elim left fun thrown => caught thrown left,
          pool.give resource held)

theorem take_eq_ok {pool : Pool σ κ ε} {state held : Traced σ κ} {resource : κ}
    (htake : pool.take state = .ok (resource, held)) :
    ∃ next, pool.borrow state.pool = .ok (resource, next) ∧
      held = ⟨next, state.calls ++ [.borrow resource]⟩ := by
  unfold take at htake
  cases hborrow : pool.borrow state.pool with
  | error thrown =>
      rw [hborrow] at htake
      cases htake
  | ok result =>
      rw [hborrow] at htake
      cases htake
      exact ⟨result.2, rfl, rfl⟩

variable [DecidableEq κ]

/-- Everything borrowed in between has been returned, exactly once. -/
structure Returned (pool : Pool σ κ ε) (before after : Traced σ κ) :
    Prop where
  calls : ∃ calls, after.calls = before.calls ++ calls ∧
    outstanding [] calls = some []
  available : pool.available after.pool = pool.available before.pool

/-- All but one of the resources borrowed in between have been returned. -/
structure Leaked (pool : Pool σ κ ε) (before after : Traced σ κ) :
    Prop where
  calls : ∃ calls resource, after.calls = before.calls ++ calls ∧
    outstanding [] calls = some [resource]
  available : pool.available before.pool =
    pool.available after.pool + 1

theorem outstanding_append (held : List κ) (first second : List (PoolCall κ)) :
    outstanding held (first ++ second) =
      (outstanding held first).bind fun left => outstanding left second := by
  induction first generalizing held with
  | nil => rfl
  | cons call calls ih =>
      cases call with
      | borrow resource => exact ih (resource :: held)
      | unborrow resource =>
          simp only [List.cons_append, outstanding]
          split_ifs with hheld
          · exact ih (held.erase resource)
          · rfl

variable {pool : Pool σ κ ε}

theorem Returned.refl (pool : Pool σ κ ε) (state : Traced σ κ) :
    pool.Returned state state :=
  ⟨⟨[], (List.append_nil _).symm, rfl⟩, rfl⟩

theorem Returned.trans {before middle after : Traced σ κ}
    (hfirst : pool.Returned before middle)
    (hsecond : pool.Returned middle after) : pool.Returned before after := by
  obtain ⟨first, hmiddle, hreturned⟩ := hfirst.calls
  obtain ⟨second, hafter, hreturned'⟩ := hsecond.calls
  refine ⟨⟨first ++ second, ?_, ?_⟩, ?_⟩
  · rw [hafter, hmiddle, List.append_assoc]
  · rw [outstanding_append, hreturned]
    exact hreturned'
  · rw [hsecond.available, hfirst.available]

theorem Returned.trans_leaked {before middle after : Traced σ κ}
    (hfirst : pool.Returned before middle)
    (hsecond : pool.Leaked middle after) : pool.Leaked before after := by
  obtain ⟨first, hmiddle, hreturned⟩ := hfirst.calls
  obtain ⟨second, resource, hafter, hleft⟩ := hsecond.calls
  refine ⟨⟨first ++ second, resource, ?_, ?_⟩, ?_⟩
  · rw [hafter, hmiddle, List.append_assoc]
  · rw [outstanding_append, hreturned]
    exact hleft
  · rw [← hfirst.available, hsecond.available]

theorem Leaked.not_returned {before after : Traced σ κ}
    (hleaked : pool.Leaked before after) :
    ¬ pool.Returned before after := by
  intro hreturned
  have hfewer := hleaked.available
  have hsame := hreturned.available
  omega

theorem leaked_of_take {state held : Traced σ κ} {resource : κ}
    (htake : pool.take state = .ok (resource, held)) :
    pool.Leaked state held := by
  obtain ⟨next, hborrow, rfl⟩ := take_eq_ok htake
  refine ⟨⟨[.borrow resource], resource, rfl, rfl⟩, ?_⟩
  exact pool.available_of_borrow hborrow

theorem returned_give_of_take {state held : Traced σ κ} {resource : κ}
    (htake : pool.take state = .ok (resource, held)) :
    pool.Returned state (pool.give resource held) := by
  obtain ⟨next, hborrow, rfl⟩ := take_eq_ok htake
  refine ⟨⟨[.borrow resource, .unborrow resource], ?_, ?_⟩, ?_⟩
  · simp [give]
  · simp [outstanding]
  · rw [pool.available_of_borrow hborrow]
    exact pool.available_unborrow resource next

theorem returned_of_borrowing {locals result : α}
    {body : κ → Option (α × Option ε)} {caught : ε → α → α}
    {state final : Traced σ κ}
    (hrun : pool.borrowing locals body caught state =
      some (result, final)) : pool.Returned state final := by
  unfold borrowing at hrun
  cases htake : pool.take state with
  | error thrown =>
      rw [htake] at hrun
      cases hrun
      exact Returned.refl pool state
  | ok taken =>
      obtain ⟨resource, held⟩ := taken
      rw [htake] at hrun
      obtain ⟨left, _, hleft⟩ := Option.map_eq_some_iff.mp hrun
      cases hleft
      exact returned_give_of_take htake

end Pool

end ResourcePool
