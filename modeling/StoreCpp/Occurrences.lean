import StoreCpp.DollarQuote

/-!
# The pieces between the occurrences of a pattern

A text is cut at the leftmost occurrence of a pattern, then what follows that
occurrence is cut in the same way.  The pieces joined with the pattern give
the text back; joined with another text they are the text with every
occurrence replaced.
-/

namespace Occurrences

open DollarQuote

variable {α : Type*}

/-- The pieces of a text; each but the last stands before the leftmost
occurrence of the pattern in what is left of the text. -/
inductive Cuts (pattern : Delimiter α) : List α → List (List α) → Prop where
  | last {text : List α} (hfree : ¬ pattern.text <:+: text) :
      Cuts pattern text [text]
  | cut {gap rest : List α} {gaps : List (List α)}
      (hclosed : Closed pattern gap) (hrest : Cuts pattern rest gaps) :
      Cuts pattern (gap ++ pattern.text ++ rest) (gap :: gaps)

theorem Cuts.ne_nil {pattern : Delimiter α} {text : List α}
    {gaps : List (List α)} (hcuts : Cuts pattern text gaps) : gaps ≠ [] := by
  cases hcuts with
  | last hfree => exact List.cons_ne_nil _ _
  | cut hclosed hrest => exact List.cons_ne_nil _ _

theorem Cuts.intercalate {pattern : Delimiter α} {text : List α}
    {gaps : List (List α)} (hcuts : Cuts pattern text gaps) :
    pattern.text.intercalate gaps = text := by
  induction hcuts with
  | last hfree => exact List.intercalate_singleton
  | cut hclosed hrest ih =>
      rw [List.intercalate_cons_of_ne_nil hrest.ne_nil, ih]

section Pieces

variable [DecidableEq α]

theorem breakOn_ne_none {pattern : Delimiter α} {text : List α}
    (hoccurs : pattern.text <:+: text) : breakOn pattern text ≠ none := by
  induction text with
  | nil => exact absurd (List.infix_nil.mp hoccurs) pattern.ne_nil
  | cons c rest ih =>
      rw [breakOn]
      split_ifs with hstart
      · exact Option.some_ne_none _
      · have hrest := (List.infix_cons_iff.mp hoccurs).resolve_left hstart
        intro hnone
        exact ih hrest (Option.map_eq_none_iff.mp hnone)

def pieces (pattern : Delimiter α) (text : List α) : List (List α) :=
  match _hbreak : breakOn pattern text with
  | none => [text]
  | some (gap, rest) => gap :: pieces pattern rest
termination_by text.length
decreasing_by exact breakOn_length_lt _hbreak

theorem pieces_of_none {pattern : Delimiter α} {text : List α}
    (hnone : breakOn pattern text = none) : pieces pattern text = [text] := by
  rw [pieces]
  split
  next => rfl
  next gap rest hsome =>
    rw [hnone] at hsome
    cases hsome

theorem pieces_of_some {pattern : Delimiter α} {text gap rest : List α}
    (hsome : breakOn pattern text = some (gap, rest)) :
    pieces pattern text = gap :: pieces pattern rest := by
  rw [pieces]
  split
  next hnone =>
    rw [hsome] at hnone
    cases hnone
  next found left hfound =>
    rw [hsome] at hfound
    cases hfound
    rfl

theorem cuts_pieces (pattern : Delimiter α) (text : List α) :
    Cuts pattern text (pieces pattern text) := by
  induction text using pieces.induct pattern with
  | case1 text hbreak =>
      rw [pieces_of_none hbreak]
      exact Cuts.last fun hoccurs => breakOn_ne_none hoccurs hbreak
  | case2 text gap rest hbreak ih =>
      have htext := breakOn_eq_append hbreak
      rw [pieces_of_some hbreak]
      rw [htext] at hbreak ⊢
      exact Cuts.cut (closed_of_breakOn hbreak) ih

/-- A text is cut in one way only. -/
theorem cuts_iff {pattern : Delimiter α} {text : List α}
    {gaps : List (List α)} :
    Cuts pattern text gaps ↔ gaps = pieces pattern text := by
  constructor
  · intro hcuts
    induction hcuts with
    | last hfree => rw [pieces_of_none (breakOn_eq_none hfree)]
    | @cut gap rest gaps hclosed hrest ih =>
        rw [pieces_of_some (breakOn_of_closed hclosed rest), ih]
  · intro hgaps
    rw [hgaps]
    exact cuts_pieces pattern text

end Pieces

end Occurrences
