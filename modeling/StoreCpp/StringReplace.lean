import StoreCpp.Extensions
import StoreCpp.Occurrences

/-!
# Replacing in place

`string_replace` searches the string that it changes, from behind the text it
has put in last.  What it leaves is the original string with the pieces
between the leftmost occurrences joined by the new text.
-/

namespace StoreCpp

open DollarQuote Occurrences

/-- `str.find(from, pos)` for a text that is not empty. -/
def find (str : Str) (from_ : Delimiter Char) (pos : ℕ) : Option ℕ :=
  (breakOn from_ (str.drop pos)).map fun parts => pos + parts.1.length

/-- `str.replace(pos, len, to)`. -/
def replace (str : Str) (pos len : ℕ) (to_ : Str) : Str :=
  str.take pos ++ to_ ++ str.drop (pos + len)

theorem find_add_length_le {str : Str} {from_ : Delimiter Char} {pos found : ℕ}
    (hfind : find str from_ pos = some found) :
    pos ≤ found ∧ found + from_.text.length ≤ str.length := by
  obtain ⟨parts, hbreak, hfound⟩ := Option.map_eq_some_iff.mp hfind
  have hlength := congrArg List.length (breakOn_eq_append hbreak)
  have hpos := List.length_pos_iff.mpr from_.ne_nil
  simp only [List.length_drop, List.length_append] at hlength
  omega

theorem length_replace {str : Str} {pos len : ℕ} (to_ : Str)
    (hle : pos + len ≤ str.length) :
    (replace str pos len to_).length + len = str.length + to_.length := by
  unfold replace
  simp only [List.length_append, List.length_take, List.length_drop]
  omega

/-- The loop of `string_replace`. -/
def stringReplaceLoop (from_ : Delimiter Char) (to_ str : Str)
    (start_pos : ℕ) : Str :=
  match _hfind : find str from_ start_pos with
  | none => str
  | some start_pos =>
      stringReplaceLoop from_ to_
        (replace str start_pos from_.text.length to_)
        (start_pos + to_.length)
termination_by str.length - start_pos
decreasing_by
  have hfound := find_add_length_le _hfind
  have hlength := length_replace to_ hfound.2
  have hpos := List.length_pos_iff.mpr from_.ne_nil
  omega

def stringReplace (str from_ to_ : Str) : Str :=
  if hempty : from_ = [] then str
  else stringReplaceLoop ⟨from_, hempty⟩ to_ str 0

theorem find_of_free {from_ : Delimiter Char} (done : Str) {text : Str}
    (hfree : ¬ from_.text <:+: text) :
    find (done ++ text) from_ done.length = none := by
  unfold find
  rw [List.drop_left, breakOn_eq_none hfree]
  rfl

theorem find_of_closed {from_ : Delimiter Char} (done : Str) {gap : Str}
    (hclosed : Closed from_ gap) (rest : Str) :
    find (done ++ (gap ++ from_.text ++ rest)) from_ done.length =
      some (done.length + gap.length) := by
  unfold find
  rw [List.drop_left, breakOn_of_closed hclosed]
  rfl

theorem replace_occurrence (done gap from_ rest to_ : Str) :
    replace (done ++ (gap ++ from_ ++ rest)) (done.length + gap.length)
      from_.length to_ = done ++ gap ++ to_ ++ rest := by
  have hfront : done ++ (gap ++ from_ ++ rest) =
      done ++ gap ++ (from_ ++ rest) := by simp
  have hback : done ++ (gap ++ from_ ++ rest) =
      done ++ gap ++ from_ ++ rest := by simp
  unfold replace
  rw [← List.length_append, ← List.length_append]
  nth_rewrite 1 [hfront]
  rw [List.take_left, hback, List.drop_left]

/-- The loop leaves what it has passed and replaces in the rest. -/
theorem stringReplaceLoop_eq {from_ : Delimiter Char} {text : Str}
    {gaps : List Str} (hcuts : Cuts from_ text gaps) (to_ done : Str) :
    stringReplaceLoop from_ to_ (done ++ text) done.length =
      done ++ to_.intercalate gaps := by
  induction hcuts generalizing done with
  | @last text hfree =>
      rw [stringReplaceLoop]
      split
      next => rw [List.intercalate_singleton]
      next found hfind =>
        rw [find_of_free done hfree] at hfind
        cases hfind
  | @cut gap rest gaps hclosed hrest ih =>
      have hlater := ih (done ++ gap ++ to_)
      rw [stringReplaceLoop]
      split
      next hfind =>
        rw [find_of_closed done hclosed] at hfind
        cases hfind
      next found hfind =>
        rw [find_of_closed done hclosed] at hfind
        cases hfind
        rw [replace_occurrence, List.intercalate_cons_of_ne_nil hrest.ne_nil,
          ← List.length_append, ← List.length_append, hlater]
        simp

/-- `string_replace` ends, and leaves the pieces of the original string between
the leftmost occurrences, joined by the new text. -/
theorem stringReplace_replaces {from_ : Str} (hfrom : from_ ≠ [])
    (str to_ : Str) :
    ∃ gaps, Cuts ⟨from_, hfrom⟩ str gaps ∧
      (∀ other, Cuts ⟨from_, hfrom⟩ str other → other = gaps) ∧
      stringReplace str from_ to_ = to_.intercalate gaps := by
  have hcuts := cuts_pieces ⟨from_, hfrom⟩ str
  refine ⟨_, hcuts, fun other hother => cuts_iff.mp hother, ?_⟩
  unfold stringReplace
  rw [dif_neg hfrom]
  exact stringReplaceLoop_eq hcuts to_ []

/-- The new text contains the old one. -/
theorem stringReplace_doubled :
    ∃ gaps, Cuts ⟨"x".toList, by decide⟩ "axbxx".toList gaps ∧
      (∀ other, Cuts ⟨"x".toList, by decide⟩ "axbxx".toList other →
        other = gaps) ∧
      stringReplace "axbxx".toList "x".toList "yx".toList =
        "yx".toList.intercalate gaps :=
  stringReplace_replaces (by decide) "axbxx".toList "yx".toList

end StoreCpp
