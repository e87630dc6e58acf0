import Mathlib.Data.List.Basic
import Mathlib.Data.List.Induction
import Mathlib.Order.Lattice
import Mathlib.Tactic.TypeStar

/-!
# The earliest element of largest rank

A fold that replaces its candidate only by an element of strictly larger rank
ends with the earliest of the elements of largest rank.  Choosing between two
candidates is associative, so the fold of a concatenation is the choice
between the folds of its parts.
-/

namespace EarliestMax

variable {α β : Type*} [LinearOrder β] {rank : α → β}

def choose (rank : α → β) (m x : α) : α :=
  if rank m < rank x then x else m

/-- The elements before the winner have smaller ranks, and the elements after
it have no larger ones. -/
def IsEarliestMax (rank : α → β) (values : List α) (winner : α) : Prop :=
  ∃ before after, values = before ++ winner :: after ∧
    (∀ value ∈ before, rank value < rank winner) ∧
    ∀ value ∈ after, rank value ≤ rank winner

theorem choose_assoc (a b c : α) :
    choose rank (choose rank a b) c = choose rank a (choose rank b c) := by
  unfold choose
  by_cases hab : rank a < rank b
  · by_cases hbc : rank b < rank c
    · simp [hab, hbc, hab.trans hbc]
    · simp [hab, hbc]
  · by_cases hbc : rank b < rank c
    · simp [hab, hbc]
    · have hac : ¬ rank a < rank c :=
        not_lt.mpr ((not_lt.mp hbc).trans (not_lt.mp hab))
      simp [hab, hbc, hac]

theorem foldl_choose (a b : α) (values : List α) :
    values.foldl (choose rank) (choose rank a b) =
      choose rank a (values.foldl (choose rank) b) := by
  induction values generalizing b with
  | nil => rfl
  | cons value values ih =>
      rw [List.foldl_cons, choose_assoc, ih]
      rfl

theorem foldl_of_base {base value : α} (hbase : rank base < rank value)
    (values : List α) :
    (value :: values).foldl (choose rank) base =
      values.foldl (choose rank) value := by
  have hchoose : choose rank base value = value := if_pos hbase
  rw [List.foldl_cons, hchoose]

/-- Above the rank of the start value, the winner of a concatenation is the
winner of the winners of its two parts. -/
theorem foldl_append_of_base {base : α} {before after : List α}
    (hafter : ∀ value ∈ after, rank base < rank value)
    (hne : after ≠ []) :
    (before ++ after).foldl (choose rank) base =
      choose rank (before.foldl (choose rank) base)
        (after.foldl (choose rank) base) := by
  cases after with
  | nil => exact absurd rfl hne
  | cons value rest =>
      rw [List.foldl_append, foldl_of_base (hafter value List.mem_cons_self)]
      exact foldl_choose _ _ _

theorem IsEarliestMax.mem {values : List α} {winner : α}
    (hmax : IsEarliestMax rank values winner) : winner ∈ values := by
  obtain ⟨before, after, rfl, _, _⟩ := hmax
  exact List.mem_append_right _ List.mem_cons_self

theorem IsEarliestMax.le {values : List α} {winner value : α}
    (hmax : IsEarliestMax rank values winner) (hvalue : value ∈ values) :
    rank value ≤ rank winner := by
  obtain ⟨before, after, rfl, hbefore, hafter⟩ := hmax
  rcases List.mem_append.mp hvalue with hmem | hmem
  · exact (hbefore value hmem).le
  · rcases List.mem_cons.mp hmem with rfl | hmem
    · exact le_refl _
    · exact hafter value hmem

theorem IsEarliestMax.concat {values : List α} {winner : α}
    (hmax : IsEarliestMax rank values winner) (value : α) :
    IsEarliestMax rank (values ++ [value]) (choose rank winner value) := by
  unfold choose
  split_ifs with hlt
  · have hlower : ∀ other ∈ values, rank other < rank value :=
      fun other hother => (hmax.le hother).trans_lt hlt
    exact ⟨values, [], rfl, hlower, by simp⟩
  · obtain ⟨before, after, rfl, hbefore, hafter⟩ := hmax
    have hlater : ∀ other ∈ after ++ [value], rank other ≤ rank winner := by
      intro other hother
      rcases List.mem_append.mp hother with hmem | hmem
      · exact hafter other hmem
      · rw [List.mem_singleton.mp hmem]
        exact not_lt.mp hlt
    exact ⟨before, after ++ [value], by simp, hbefore, hlater⟩

theorem isEarliestMax_foldl (start : α) (values : List α) :
    IsEarliestMax rank (start :: values)
      (values.foldl (choose rank) start) := by
  induction values using List.reverseRecOn with
  | nil => exact ⟨[], [], rfl, by simp, by simp⟩
  | append_singleton values value ih =>
      rw [List.foldl_append, List.foldl_cons, List.foldl_nil,
        ← List.cons_append]
      exact ih.concat value

/-- A start value of smaller rank than all elements plays no part. -/
theorem isEarliestMax_of_base {base : α} {values : List α}
    (hvalues : ∀ value ∈ values, rank base < rank value)
    (hne : values ≠ []) :
    IsEarliestMax rank values (values.foldl (choose rank) base) := by
  cases values with
  | nil => exact absurd rfl hne
  | cons value rest =>
      rw [foldl_of_base (hvalues value List.mem_cons_self)]
      exact isEarliestMax_foldl value rest

end EarliestMax
