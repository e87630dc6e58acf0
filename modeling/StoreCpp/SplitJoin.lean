import StoreCpp.Extensions

/-!
# Joining and splitting

`join` puts a separator before an item when the text joined so far has
characters, and `split` reads tokens with `std::getline`, which fails at the
end of its input.  Empty items at the front lose their separators in `join`,
and an empty item at the end is not read back by `split`.
-/

namespace StoreCpp

/-- `std::getline`: the characters up to the next delimiter, which is taken
from the stream as well.  It fails when no character is left. -/
def getline (delim : Char) (iss : Str) : Option (Str × Str) :=
  if iss = [] then none
  else some (iss.takeWhile (· ≠ delim), (iss.dropWhile (· ≠ delim)).drop 1)

theorem getline_length_lt {delim : Char} {iss tok rest : Str}
    (hline : getline delim iss = some (tok, rest)) :
    rest.length < iss.length := by
  unfold getline at hline
  split_ifs at hline with hnil
  cases hline
  have hpos := List.length_pos_iff.mpr hnil
  have hle := (List.dropWhile_sublist (l := iss) (· ≠ delim)).length_le
  rw [List.length_drop]
  omega

def split (s : Str) (delim : Char) : List Str :=
  match _hline : getline delim s with
  | none => []
  | some (tok, iss) => tok :: split iss delim
termination_by s.length
decreasing_by exact getline_length_lt _hline

/-- The elements with one separator between neighbours come out of `join`, and
`split` gives them back, the empty text as no elements. -/
structure JoinsAndSplits (xs : List Str) (d : Char) : Prop where
  joined : join xs [d] = [d].intercalate xs
  split : split (join xs [d]) d = if xs = [[]] then [] else xs

/-- Neither the first nor the last element is empty, one element apart. -/
def EndsNonempty (xs : List Str) : Prop :=
  xs = [[]] ∨ xs.head? ≠ some [] ∧ xs.getLast? ≠ some []

theorem split_nil (delim : Char) : split [] delim = [] := by
  rw [split]
  rfl

theorem split_of_getline {s tok iss : Str} {delim : Char}
    (hline : getline delim s = some (tok, iss)) :
    split s delim = tok :: split iss delim := by
  rw [split]
  split
  next hnone =>
    rw [hline] at hnone
    cases hnone
  next found rest hsome =>
    rw [hline] at hsome
    cases hsome
    rfl

theorem forall_ne_of_notMem {tok : Str} {delim : Char} (htok : delim ∉ tok) :
    ∀ c ∈ tok, decide (c ≠ delim) = true := fun _ hc =>
  decide_eq_true fun h => htok (h ▸ hc)

theorem split_append_cons {tok : Str} {delim : Char} (htok : delim ∉ tok)
    (rest : Str) :
    split (tok ++ delim :: rest) delim = tok :: split rest delim := by
  have hall := forall_ne_of_notMem htok
  apply split_of_getline
  unfold getline
  rw [if_neg (by simp), List.takeWhile_append_of_pos hall,
    List.dropWhile_append_of_pos hall]
  simp

theorem split_of_notMem {tok : Str} {delim : Char} (htok : delim ∉ tok)
    (hne : tok ≠ []) : split tok delim = [tok] := by
  have hall := forall_ne_of_notMem htok
  have hline : getline delim tok = some (tok, []) := by
    unfold getline
    rw [if_neg hne, List.takeWhile_eq_self_iff.mpr hall,
      List.dropWhile_eq_nil_iff.mpr hall]
    rfl
  rw [split_of_getline hline, split_nil]

/-- Only an empty element at the end is not read back. -/
theorem split_intercalate {xs : List Str} {d : Char}
    (hfree : ∀ x ∈ xs, d ∉ x) :
    split ([d].intercalate xs) d =
      if xs.getLast? = some [] then xs.dropLast else xs := by
  induction xs with
  | nil => exact split_nil d
  | cons x xs ih =>
      obtain ⟨hx, hxs⟩ := List.forall_mem_cons.mp hfree
      cases xs with
      | nil =>
          rw [List.intercalate_singleton]
          by_cases hnil : x = []
          · rw [hnil, split_nil]
            rfl
          · rw [split_of_notMem hx hnil]
            simp [hnil]
      | cons y ys =>
          rw [List.intercalate_cons_cons, List.append_assoc,
            List.singleton_append, split_append_cons hx, ih hxs,
            List.getLast?_cons_cons, List.dropLast_cons_cons]
          split_ifs <;> rfl

theorem join_nil_cons (items : List Str) (separator : Str) :
    join ([] :: items) separator = join items separator := rfl

theorem join_eq_intercalate {item : Str} (hitem : item ≠ [])
    (items : List Str) (separator : Str) :
    join (item :: items) separator =
      separator.intercalate (item :: items) := by
  rw [join_cons hitem, intercalate_cons_eq]

theorem length_join_le (items : List Str) (separator : Str) :
    (join items separator).length ≤
      (separator.intercalate items).length := by
  induction items with
  | nil => exact le_refl 0
  | cons item items ih =>
      by_cases hitem : item = []
      · rw [hitem, join_nil_cons]
        cases items with
        | nil => exact le_refl 0
        | cons next items =>
            rw [List.intercalate_cons_cons]
            simp only [List.nil_append, List.length_append]
            omega
      · rw [join_eq_intercalate hitem]

/-- An empty first element loses its separator. -/
theorem join_nil_cons_ne (d : Char) (x : Str) (xs : List Str) :
    join ([] :: x :: xs) [d] ≠ [d].intercalate ([] :: x :: xs) := by
  intro hsame
  have hle := length_join_le (x :: xs) [d]
  rw [join_nil_cons, List.intercalate_cons_cons] at hsame
  have hlength := congrArg List.length hsame
  simp only [List.nil_append, List.length_append, List.length_singleton]
    at hlength
  omega

theorem dropLast_ne_self {xs : List Str} (hne : xs ≠ []) :
    xs.dropLast ≠ xs := by
  intro hsame
  have hlength := congrArg List.length hsame
  have hpos := List.length_pos_iff.mpr hne
  rw [List.length_dropLast] at hlength
  omega

theorem joinsAndSplits_of_head {x : Str} {xs : List Str} {d : Char}
    (hx : x ≠ []) (hfree : ∀ y ∈ x :: xs, d ∉ y) :
    JoinsAndSplits (x :: xs) d ↔ (x :: xs).getLast? ≠ some [] := by
  have hjoin := join_eq_intercalate hx xs [d]
  have hnot : x :: xs ≠ [[]] := fun h => hx (List.cons.inj h).1
  have hsplit := split_intercalate hfree
  constructor
  · intro hholds hlast
    have hback := hholds.split
    rw [hjoin, hsplit, if_pos hlast, if_neg hnot] at hback
    exact dropLast_ne_self (List.cons_ne_nil x xs) hback
  · intro hlast
    refine ⟨hjoin, ?_⟩
    rw [hjoin, hsplit, if_neg hlast, if_neg hnot]

/-- A list is joined with its separators and read back exactly when it has no
empty element at either end. -/
theorem joinsAndSplits_iff {xs : List Str} {d : Char} (hne : xs ≠ [])
    (hfree : ∀ x ∈ xs, d ∉ x) :
    JoinsAndSplits xs d ↔ EndsNonempty xs := by
  unfold EndsNonempty
  cases xs with
  | nil => exact absurd rfl hne
  | cons x xs =>
      by_cases hx : x = []
      · subst hx
        cases xs with
        | nil => exact iff_of_true ⟨rfl, split_nil d⟩ (Or.inl rfl)
        | cons y ys =>
            refine iff_of_false ?_ (by simp)
            intro hholds
            exact join_nil_cons_ne d y ys hholds.joined
      · rw [joinsAndSplits_of_head hx hfree]
        simp [hx]

theorem joinsAndSplits_words :
    JoinsAndSplits ["a".toList, [], "b".toList] ',' :=
  (joinsAndSplits_iff (List.cons_ne_nil _ _) (by decide)).mpr
    (Or.inr (by decide))

/-- The separator behind an empty first element is missing. -/
theorem emptyFirst_not_joinsAndSplits :
    ¬ ∀ (xs : List Str) (d : Char), xs ≠ [] → (∀ x ∈ xs, d ∉ x) →
      JoinsAndSplits xs d := by
  intro hclaim
  have hholds := hclaim [[], "a".toList] ',' (List.cons_ne_nil _ _)
    (by decide)
  exact join_nil_cons_ne ',' "a".toList [] hholds.joined

end StoreCpp
