import Mathlib.Data.List.Basic
import Mathlib.Data.List.Nodup
import Mathlib.Tactic.TypeStar

/-!
# Tables with a primary key

A table is a list of rows whose keys are pairwise different, so a key names at
most one row.  `upsert` is the insert that merges the new row into the row
with the same key, when there is one.
-/

namespace KeyedTable

structure Table {ρ κ : Type*} (key : ρ → κ) where
  rows : List ρ
  keyed : (rows.map key).Nodup

variable {ρ κ : Type*} [DecidableEq κ] {key : ρ → κ}

namespace Table

def empty : Table key where
  rows := []
  keyed := List.nodup_nil

def find (table : Table key) (k : κ) : Option ρ :=
  table.rows.find? fun row => key row = k

/-- Replace the rows of one key; the keys stay as they are. -/
def modify (table : Table key) (k : κ) (f : ρ → ρ)
    (hkey : ∀ row, key (f row) = key row) : Table key where
  rows := table.rows.map fun row => if key row = k then f row else row
  keyed := by
    have hkeys : (table.rows.map fun row =>
        if key row = k then f row else row).map key = table.rows.map key := by
      rw [List.map_map]
      apply List.map_congr_left
      intro row _
      simp only [Function.comp_apply]
      split_ifs
      · exact hkey row
      · rfl
    rw [hkeys]
    exact table.keyed

def insert (table : Table key) (row : ρ) (hnew : table.find (key row) = none) :
    Table key where
  rows := table.rows ++ [row]
  keyed := by
    rw [List.map_append, List.nodup_append]
    refine ⟨table.keyed, by simp, ?_⟩
    intro k hk other hother
    obtain ⟨found, hfound, rfl⟩ := List.mem_map.mp hk
    have heq : other = key row := by simpa using hother
    rw [heq]
    simpa using List.find?_eq_none.mp hnew found hfound

def upsert (table : Table key) (row : ρ) (merge : ρ → ρ → ρ)
    (hkey : ∀ old, key (merge old row) = key old) : Table key :=
  if hnew : table.find (key row) = none then table.insert row hnew
  else table.modify (key row) (merge · row) hkey

theorem find_modify (table : Table key) (k other : κ) (f : ρ → ρ)
    (hkey : ∀ row, key (f row) = key row) :
    (table.modify k f hkey).find other =
      if other = k then (table.find other).map f else table.find other := by
  have hcomp : (fun row => decide (key row = other)) ∘
      (fun row => if key row = k then f row else row) =
        fun row => decide (key row = other) := by
    funext row
    simp only [Function.comp_apply]
    split_ifs
    · rw [hkey]
    · rfl
  unfold find modify
  simp only
  rw [List.find?_map, hcomp]
  cases hfind : table.rows.find? fun row => decide (key row = other) with
  | none => simp
  | some row =>
      have hrow : key row = other := by simpa using List.find?_some hfind
      simp only [Option.map_some, hrow]
      split_ifs <;> rfl

theorem find_insert (table : Table key) (row : ρ)
    (hnew : table.find (key row) = none) (k : κ) :
    (table.insert row hnew).find k =
      if k = key row then some row else table.find k := by
  unfold find insert
  rw [List.find?_append]
  split_ifs with hk
  · subst k
    have hnone : table.rows.find? (fun other => key other = key row) = none :=
      hnew
    simp [hnone]
  · have hne : ¬ key row = k := fun heq => hk heq.symm
    simp [hne]

theorem find_eq_some_iff (table : Table key) (k : κ) (row : ρ) :
    table.find k = some row ↔ row ∈ table.rows ∧ key row = k := by
  constructor
  · intro hfind
    exact ⟨List.mem_of_find?_eq_some hfind,
      by simpa using List.find?_some hfind⟩
  · rintro ⟨hmem, rfl⟩
    cases hfind : table.find (key row) with
    | none =>
        have hother := List.find?_eq_none.mp hfind row hmem
        simp at hother
    | some other =>
        have hkey : key other = key row := by simpa using List.find?_some hfind
        have heq := List.inj_on_of_nodup_map table.keyed
          (List.mem_of_find?_eq_some hfind) hmem hkey
        rw [heq]

/-- An upsert changes the row of its own key and no other. -/
theorem find_upsert (table : Table key) (row : ρ) (merge : ρ → ρ → ρ)
    (hkey : ∀ old, key (merge old row) = key old) (k : κ) :
    (table.upsert row merge hkey).find k =
      if k = key row then
        some (((table.find k).map (merge · row)).getD row)
      else table.find k := by
  unfold upsert
  split_ifs with hnew hk hk
  · rw [find_insert, if_pos hk, hk, hnew]
    rfl
  · rw [find_insert, if_neg hk]
  · obtain ⟨old, hold⟩ := Option.ne_none_iff_exists'.mp hnew
    rw [find_modify, if_pos hk, hk, hold]
    rfl
  · rw [find_modify, if_neg hk]

end Table

end KeyedTable
