import Mathlib.Data.List.Basic
import Mathlib.Tactic

/-!
# Breaking a text into lines in place

A loop inserts a separator into a text at every multiple of a distance and
moves its position past what it has just inserted.  For a positive distance it
ends with the lines of that length joined by the separator; for the distance
zero it inserts for ever.
-/

namespace LineBreaks

variable {α : Type*}

/-- The loop with the given number of turns, `none` when they do not suffice. -/
def breakLoop (distance : ℕ) (sep : α) :
    (turns pos : ℕ) → List α → Option (List α)
  | 0, _, _ => none
  | turns + 1, pos, str =>
      if pos < str.length then
        breakLoop distance sep turns (pos + (distance + 1))
          (str.take pos ++ sep :: str.drop pos)
      else some str

/-- The text cut behind every full line. -/
def lines (distance : ℕ) (str : List α) : List (List α) :=
  if 0 < distance ∧ distance < str.length then
    str.take distance :: lines distance (str.drop distance)
  else [str]
termination_by str.length
decreasing_by
  rw [List.length_drop]
  omega

theorem lines_of_le {distance : ℕ} {str : List α}
    (hle : str.length ≤ distance) : lines distance str = [str] := by
  unfold lines
  rw [if_neg (by omega)]

theorem lines_of_lt {distance : ℕ} {str : List α} (hdistance : 0 < distance)
    (hlt : distance < str.length) :
    lines distance str =
      str.take distance :: lines distance (str.drop distance) := by
  rw [lines, if_pos ⟨hdistance, hlt⟩]

theorem lines_ne_nil (distance : ℕ) (str : List α) :
    lines distance str ≠ [] := by
  unfold lines
  split_ifs <;> simp

theorem flatten_lines (distance : ℕ) (str : List α) :
    (lines distance str).flatten = str := by
  induction str using lines.induct distance with
  | case1 str hcut ih =>
      rw [lines_of_lt hcut.1 hcut.2, List.flatten_cons, ih,
        List.take_append_drop]
  | case2 str hcut =>
      rw [lines, if_neg hcut, List.flatten_singleton]

/-- Every line but the last is full. -/
theorem length_of_mem_dropLast {distance : ℕ} {str line : List α}
    (hline : line ∈ (lines distance str).dropLast) :
    line.length = distance := by
  induction str using lines.induct distance with
  | case1 str hcut ih =>
      rw [lines_of_lt hcut.1 hcut.2,
        List.dropLast_cons_of_ne_nil (lines_ne_nil _ _)] at hline
      rcases List.mem_cons.mp hline with rfl | hline
      · rw [List.length_take]
        omega
      · exact ih hline
  | case2 str hcut =>
      rw [lines, if_neg hcut] at hline
      simp at hline

/-- No line is longer than the distance, and none is empty unless the text
is. -/
theorem length_of_mem {distance : ℕ} {str line : List α}
    (hdistance : 0 < distance) (hstr : str ≠ [])
    (hline : line ∈ lines distance str) :
    0 < line.length ∧ line.length ≤ distance := by
  induction str using lines.induct distance with
  | case1 str hcut ih =>
      rw [lines_of_lt hcut.1 hcut.2] at hline
      rcases List.mem_cons.mp hline with rfl | hline
      · rw [List.length_take]
        omega
      · refine ih ?_ hline
        rw [ne_eq, List.drop_eq_nil_iff]
        omega
  | case2 str hcut =>
      have hpos := List.length_pos_iff.mpr hstr
      rw [lines, if_neg hcut] at hline
      obtain rfl := List.mem_singleton.mp hline
      omega

/-- The loop behind what it has done: the position is one distance ahead. -/
theorem breakLoop_eq {distance : ℕ} (hdistance : 0 < distance) (sep : α)
    {turns : ℕ} (done rest : List α) (hturns : rest.length < turns) :
    breakLoop distance sep turns (done.length + distance) (done ++ rest) =
      some (done ++ [sep].intercalate (lines distance rest)) := by
  induction turns generalizing done rest with
  | zero => omega
  | succ turns ih =>
      unfold breakLoop
      by_cases hlt : distance < rest.length
      · have hpos : done.length + distance < (done ++ rest).length := by
          rw [List.length_append]
          omega
        have hinserted :
            (done ++ rest).take (done.length + distance) ++
                sep :: (done ++ rest).drop (done.length + distance) =
              (done ++ rest.take distance ++ [sep]) ++ rest.drop distance := by
          rw [List.take_length_add_append, List.drop_length_add_append]
          simp
        have hnext : done.length + distance + (distance + 1) =
            (done ++ rest.take distance ++ [sep]).length + distance := by
          simp only [List.length_append, List.length_take,
            List.length_singleton]
          omega
        have hshorter : (rest.drop distance).length < turns := by
          rw [List.length_drop]
          omega
        rw [if_pos hpos, hinserted, hnext, ih _ _ hshorter,
          lines_of_lt hdistance hlt,
          List.intercalate_cons_of_ne_nil (lines_ne_nil _ _)]
        simp
      · have hpos : ¬ done.length + distance < (done ++ rest).length := by
          rw [List.length_append]
          omega
        rw [if_neg hpos, lines_of_le (by omega), List.intercalate_singleton]

/-- For the distance zero the text grows as fast as the position. -/
theorem breakLoop_zero (sep : α) (turns pos : ℕ) {str : List α}
    (hpos : pos < str.length) :
    breakLoop 0 sep turns pos str = none := by
  induction turns generalizing pos str with
  | zero => rfl
  | succ turns ih =>
      unfold breakLoop
      rw [if_pos hpos]
      refine ih _ ?_
      simp only [List.length_append, List.length_take, List.length_cons,
        List.length_drop]
      omega

/-- Without the separators the text is back, if it had none. -/
theorem filter_intercalate [DecidableEq α] {sep : α} {pieces : List (List α)}
    (hsep : sep ∉ pieces.flatten) :
    ([sep].intercalate pieces).filter (· ≠ sep) = pieces.flatten := by
  have hkeep : ∀ piece ∈ pieces, piece.filter (· ≠ sep) = piece := by
    intro piece hpiece
    rw [List.filter_eq_self]
    intro x hx
    have hne : x ≠ sep := by
      rintro rfl
      exact hsep (List.mem_flatten.mpr ⟨piece, hpiece, hx⟩)
    simpa using hne
  induction pieces with
  | nil => rfl
  | cons piece pieces ih =>
      have hhead := hkeep piece List.mem_cons_self
      have htail : sep ∉ pieces.flatten := by
        intro hmem
        exact hsep (List.mem_append_right piece hmem)
      have hrest := ih htail fun other hother =>
        hkeep other (List.mem_cons_of_mem _ hother)
      by_cases hnil : pieces = []
      · subst hnil
        rw [List.intercalate_singleton, hhead]
        exact (List.append_nil _).symm
      · rw [List.intercalate_cons_of_ne_nil hnil, List.filter_append,
          List.filter_append, hrest, hhead]
        simp

end LineBreaks
