import Mathlib.Data.List.Nodup
import Mathlib.Data.List.Pairwise
import Mathlib.Order.Lattice
import Mathlib.Tactic.TypeStar

/-!
# Reading a growing table behind a cursor

A reader takes the row with the smallest key beyond its cursor, handles it and
then moves the cursor to the key of that row.  It may forget that it has
handled a row and take it again, but it never moves the cursor past a row that
it has not handled, as long as new rows get larger keys than the old ones.
-/

namespace LogCursor

variable {ρ υ : Type*} [LinearOrder υ]

/-- The row with the smallest key beyond the cursor. -/
structure IsNext (key : ρ → υ) (cursor : υ) (rows : List ρ) (row : ρ) :
    Prop where
  mem : row ∈ rows
  beyond : cursor < key row
  least : ∀ other ∈ rows, cursor < key other → key row ≤ key other

/-- Every row between the first and the current cursor has been handled, and
no row that is larger than one still to come. -/
structure HandledUpTo (key : ρ → υ) (first cursor : υ)
    (rows handled : List ρ) : Prop where
  increasing : rows.Pairwise fun row later => key row < key later
  reached : cursor = first ∨ cursor ∈ rows.map key
  covered : ∀ row ∈ rows, first < key row → key row ≤ cursor → row ∈ handled
  handled_mem : ∀ row ∈ handled, row ∈ rows
  inOrder : handled.Pairwise fun row later => key row ≤ key later
  behind : ∀ row ∈ handled, ∀ later ∈ rows, cursor < key later →
    key row ≤ key later

variable {key : ρ → υ} {first cursor : υ} {rows handled : List ρ} {row : ρ}

theorem eq_of_key_eq
    (hrows : rows.Pairwise fun row later => key row < key later)
    {other : ρ} (hrow : row ∈ rows) (hother : other ∈ rows)
    (hkey : key row = key other) : row = other := by
  have hkeys : (rows.map key).Nodup := by
    rw [List.Nodup, List.pairwise_map]
    exact hrows.imp fun hlt => hlt.ne
  exact List.inj_on_of_nodup_map hkeys hrow hother hkey

theorem pairwise_concat
    (hrows : rows.Pairwise fun row later => key row < key later)
    (hrow : ∀ other ∈ rows, key other < key row) :
    (rows ++ [row]).Pairwise fun row later => key row < key later := by
  rw [List.pairwise_append]
  exact ⟨hrows, List.pairwise_singleton _ _, by simpa using hrow⟩

namespace IsNext

/-- A new row with a larger key than all others is not the next one. -/
theorem write (hnext : IsNext key cursor rows row) {new : ρ}
    (hnew : ∀ other ∈ rows, key other < key new) :
    IsNext key cursor (rows ++ [new]) row where
  mem := List.mem_append_left _ hnext.mem
  beyond := hnext.beyond
  least := by
    intro other hother hbeyond
    cases List.mem_append.mp hother with
    | inl hold => exact hnext.least other hold hbeyond
    | inr hlast =>
        rw [List.mem_singleton.mp hlast]
        exact (hnew row hnext.mem).le

end IsNext

namespace HandledUpTo

theorem start
    (hrows : rows.Pairwise fun row later => key row < key later) :
    HandledUpTo key first first rows [] where
  increasing := hrows
  reached := Or.inl rfl
  covered := fun _ _ hbeyond hle => absurd hbeyond (not_lt.mpr hle)
  handled_mem := by simp
  inOrder := List.Pairwise.nil
  behind := by simp

/-- A new row may be smaller than a first cursor that is no row's key, but
nothing lies between this cursor and itself. -/
theorem write (hupTo : HandledUpTo key first cursor rows handled) {new : ρ}
    (hnew : ∀ other ∈ rows, key other < key new) :
    HandledUpTo key first cursor (rows ++ [new]) handled where
  increasing := pairwise_concat hupTo.increasing hnew
  reached := by
    rw [List.map_append]
    exact hupTo.reached.imp_right (List.mem_append_left _)
  covered := by
    intro row hrow hlt hle
    cases List.mem_append.mp hrow with
    | inl hold => exact hupTo.covered row hold hlt hle
    | inr hlast =>
        rw [List.mem_singleton.mp hlast] at hlt hle
        cases hupTo.reached with
        | inl hfirst => exact absurd hlt (not_lt.mpr (hfirst ▸ hle))
        | inr hcursor =>
            obtain ⟨other, hother, hkey⟩ := List.mem_map.mp hcursor
            exact absurd (hkey ▸ hnew other hother) (not_lt.mpr hle)
  handled_mem := fun row hrow =>
    List.mem_append_left _ (hupTo.handled_mem row hrow)
  inOrder := hupTo.inOrder
  behind := by
    intro row hrow later hlater hlt
    cases List.mem_append.mp hlater with
    | inl hold => exact hupTo.behind row hrow later hold hlt
    | inr hlast =>
        rw [List.mem_singleton.mp hlast]
        exact (hnew row (hupTo.handled_mem row hrow)).le

theorem key_le_of_isNext (hupTo : HandledUpTo key first cursor rows handled)
    (hnext : IsNext key cursor rows row) :
    ∀ other ∈ handled, key other ≤ key row :=
  fun other hother => hupTo.behind other hother row hnext.mem hnext.beyond

theorem handle (hupTo : HandledUpTo key first cursor rows handled)
    (hnext : IsNext key cursor rows row) :
    HandledUpTo key first cursor rows (handled ++ [row]) where
  increasing := hupTo.increasing
  reached := hupTo.reached
  covered := fun other hother hlt hle =>
    List.mem_append_left _ (hupTo.covered other hother hlt hle)
  handled_mem := by
    intro other hother
    cases List.mem_append.mp hother with
    | inl hold => exact hupTo.handled_mem other hold
    | inr hlast =>
        rw [List.mem_singleton.mp hlast]
        exact hnext.mem
  inOrder := by
    rw [List.pairwise_append]
    exact ⟨hupTo.inOrder, List.pairwise_singleton _ _, by
      simpa using hupTo.key_le_of_isNext hnext⟩
  behind := by
    intro other hother later hlater hlt
    cases List.mem_append.mp hother with
    | inl hold => exact hupTo.behind other hold later hlater hlt
    | inr hlast =>
        rw [List.mem_singleton.mp hlast]
        exact hnext.least later hlater hlt

/-- The cursor moves to a row that has been handled. -/
theorem advance (hupTo : HandledUpTo key first cursor rows handled)
    (hnext : IsNext key cursor rows row) (hhandled : row ∈ handled) :
    HandledUpTo key first (key row) rows handled where
  increasing := hupTo.increasing
  reached := Or.inr (List.mem_map_of_mem hnext.mem)
  covered := by
    intro other hother hlt hle
    by_cases hcursor : key other ≤ cursor
    · exact hupTo.covered other hother hlt hcursor
    · have hleast := hnext.least other hother (not_le.mp hcursor)
      have hsame : other = row :=
        eq_of_key_eq hupTo.increasing hother hnext.mem (le_antisymm hle hleast)
      rw [hsame]
      exact hhandled
  handled_mem := hupTo.handled_mem
  inOrder := hupTo.inOrder
  behind := fun other hother later hlater hlt =>
    hupTo.behind other hother later hlater (hnext.beyond.trans hlt)

/-- A reader with nothing handled beyond its cursor takes a new row. -/
theorem handle_once (hnext : IsNext key cursor rows row)
    (honce : handled.Pairwise fun row later => key row < key later)
    (hbehind : ∀ other ∈ handled, key other ≤ cursor) :
    (handled ++ [row]).Pairwise fun row later => key row < key later :=
  pairwise_concat honce fun other hother =>
    (hbehind other hother).trans_lt hnext.beyond

end HandledUpTo

end LogCursor
