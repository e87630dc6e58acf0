import Mathlib.Data.List.Sort
import Mathlib.Tactic

/-!
# Pages of a list that is ordered up to ties

A query with an order returns its rows in any of the orders that the ranks of
the rows allow, and a page is a section of such an order.  When the rows of
one rank that differ from each other all lie on one page, a page holds the same
documents in every order; otherwise two orders differ on some page.
-/

namespace TiedPages

variable {α κ δ : Type*} [LinearOrder κ] {rank : α → κ} {doc : α → δ}

/-- One of the orders in which the rows may be returned. -/
structure IsOrder (rank : α → κ) (rows ordered : List α) : Prop where
  perm : ordered.Perm rows
  sorted : ordered.Pairwise fun earlier later => rank earlier ≤ rank later

def page (k i : ℕ) (ordered : List α) : List α :=
  (ordered.drop (i * k)).take k

/-- How many rows come before all rows of the rank. -/
def below (rank : α → κ) (x : κ) (rows : List α) : ℕ :=
  rows.countP fun row => rank row < x

/-- How many rows come before all rows of larger ranks. -/
def upTo (rank : α → κ) (x : κ) (rows : List α) : ℕ :=
  rows.countP fun row => rank row ≤ x

/-- Rows of one rank with different documents have all rows of their rank on
one page. -/
def TiesOnOnePage (rank : α → κ) (doc : α → δ) (k : ℕ) (rows : List α) :
    Prop :=
  ∀ row ∈ rows, ∀ other ∈ rows, rank row = rank other → doc row ≠ doc other →
    below rank (rank row) rows / k = (upTo rank (rank row) rows - 1) / k

theorem exists_isOrder (rank : α → κ) (rows : List α) :
    ∃ ordered, IsOrder rank rows ordered := by
  let le : α → α → Prop := fun earlier later => rank earlier ≤ rank later
  have : DecidableRel le := fun earlier later =>
    inferInstanceAs (Decidable (rank earlier ≤ rank later))
  have : Std.Total le := ⟨fun earlier later => le_total (rank earlier) (rank later)⟩
  have : IsTrans α le := ⟨fun _ _ _ hle hle' => le_trans hle hle'⟩
  exact ⟨rows.insertionSort le, List.perm_insertionSort le rows,
    List.pairwise_insertionSort le rows⟩

/-- In an order, the elements of a set that is closed below come first. -/
theorem filter_eq_take (low : α → Bool)
    (hlow : ∀ row other, rank row ≤ rank other → low other = true →
      low row = true)
    {ordered : List α}
    (hsorted : ordered.Pairwise fun earlier later =>
      rank earlier ≤ rank later) :
    ordered.filter low = ordered.take (ordered.countP low) := by
  induction ordered with
  | nil => rfl
  | cons row rest ih =>
      obtain ⟨hfirst, hrest⟩ := List.pairwise_cons.mp hsorted
      cases hrow : low row with
      | true =>
          rw [List.filter_cons_of_pos hrow, List.countP_cons_of_pos hrow,
            List.take_succ_cons, ih hrest]
      | false =>
          have hnone : ∀ other ∈ row :: rest, ¬ low other = true := by
            intro other hother htrue
            rcases List.mem_cons.mp hother with rfl | hother
            · rw [hrow] at htrue
              cases htrue
            · have hback := hlow row other (hfirst other hother) htrue
              rw [hrow] at hback
              cases hback
          rw [List.filter_eq_nil_iff.mpr hnone, List.countP_eq_zero.mpr hnone,
            List.take_zero]

theorem countP_drop_countP {low : α → Bool} {ordered : List α}
    (hfirst : ordered.filter low = ordered.take (ordered.countP low)) :
    (ordered.drop (ordered.countP low)).countP low = 0 := by
  have hsplit := congrArg (List.countP low)
    (List.take_append_drop (ordered.countP low) ordered)
  have hall : (ordered.filter low).countP low = ordered.countP low := by
    simp [List.countP_filter]
  rw [List.countP_append, ← hfirst, hall] at hsplit
  omega

section Order

variable {rows ordered : List α} (hordered : IsOrder rank rows ordered)
include hordered

theorem IsOrder.lt_of_mem_take {x : κ} {row : α}
    (hrow : row ∈ ordered.take (below rank x rows)) : rank row < x := by
  have hfilter := filter_eq_take (fun row => decide (rank row < x))
    (fun _ _ hle hlt => decide_eq_true
      (lt_of_le_of_lt hle (of_decide_eq_true hlt))) hordered.sorted
  rw [below, ← hordered.perm.countP_eq, ← hfilter] at hrow
  exact of_decide_eq_true (List.mem_filter.mp hrow).2

theorem IsOrder.lt_of_mem_drop {x : κ} {row : α}
    (hrow : row ∈ ordered.drop (upTo rank x rows)) : x < rank row := by
  have hfilter := filter_eq_take (fun row => decide (rank row ≤ x))
    (fun _ _ hle hlt => decide_eq_true
      (le_trans hle (of_decide_eq_true hlt))) hordered.sorted
  rw [upTo, ← hordered.perm.countP_eq] at hrow
  have hnone := List.countP_eq_zero.mp (countP_drop_countP hfilter) row hrow
  simpa using hnone

theorem IsOrder.map_rank_eq {other : List α} (hother : IsOrder rank rows other) :
    ordered.map rank = other.map rank := by
  apply List.Perm.eq_of_pairwise' (r := (· ≤ ·))
  · exact List.pairwise_map.mpr hordered.sorted
  · exact List.pairwise_map.mpr hother.sorted
  · exact (hordered.perm.trans hother.perm.symm).map rank

theorem IsOrder.filter_take {x : κ} {m : ℕ} (hm : m ≤ below rank x rows) :
    (ordered.take m).filter (fun row => rank row = x) = [] := by
  apply List.filter_eq_nil_iff.mpr
  intro row hrow hrank
  have hlt := hordered.lt_of_mem_take (x := x)
    (List.take_subset_take_left ordered hm hrow)
  exact absurd (of_decide_eq_true hrank) hlt.ne

theorem IsOrder.filter_drop {x : κ} {m : ℕ} (hm : upTo rank x rows ≤ m) :
    (ordered.drop m).filter (fun row => rank row = x) = [] := by
  apply List.filter_eq_nil_iff.mpr
  intro row hrow hrank
  have hlt := hordered.lt_of_mem_drop (x := x)
    (List.drop_subset_drop_left ordered hm hrow)
  exact absurd (of_decide_eq_true hrank) hlt.ne'

/-- When all rows of a rank lie on one page, the other pages have none. -/
theorem IsOrder.filter_page {x : κ} {k : ℕ} (hk : 0 < k) (i : ℕ)
    (hx : below rank x rows / k = (upTo rank x rows - 1) / k) :
    (page k i ordered).filter (fun row => rank row = x) =
      if i = below rank x rows / k then
        ordered.filter (fun row => rank row = x)
      else [] := by
  have hstart := Nat.div_mul_le_self (below rank x rows) k
  have hend : upTo rank x rows ≤ below rank x rows / k * k + k := by
    have hlt := Nat.lt_div_mul_add (a := upTo rank x rows - 1) hk
    rw [← hx] at hlt
    omega
  unfold page
  rcases Nat.lt_trichotomy i (below rank x rows / k) with hlt | rfl | hgt
  · have hle : (i + 1) * k ≤ below rank x rows / k * k :=
      Nat.mul_le_mul_right k hlt
    rw [if_neg hlt.ne, List.take_drop, ← Nat.succ_mul]
    have hnone := hordered.filter_take (x := x) (hle.trans hstart)
    apply List.filter_eq_nil_iff.mpr
    intro row hrow
    exact List.filter_eq_nil_iff.mp hnone row (List.mem_of_mem_drop hrow)
  · have hbefore := hordered.filter_take (x := x) hstart
    have hafter := hordered.filter_drop (x := x) hend
    have hwhole : ordered.filter (fun row => rank row = x) =
        (ordered.take (below rank x rows / k * k)).filter
            (fun row => rank row = x) ++
          (((ordered.drop (below rank x rows / k * k)).take k).filter
              (fun row => rank row = x) ++
            (ordered.drop (below rank x rows / k * k + k)).filter
              fun row => rank row = x) := by
      rw [← List.filter_append, ← List.filter_append, ← List.drop_drop,
        List.take_append_drop, List.take_append_drop]
    rw [if_pos rfl, hwhole, hbefore, hafter, List.nil_append, List.append_nil]
  · have hle : (below rank x rows / k + 1) * k ≤ i * k :=
      Nat.mul_le_mul_right k hgt
    rw [Nat.succ_mul] at hle
    rw [if_neg (ne_of_gt hgt)]
    have hnone := hordered.filter_drop (x := x) (hend.trans hle)
    apply List.filter_eq_nil_iff.mpr
    intro row hrow
    exact List.filter_eq_nil_iff.mp hnone row (List.mem_of_mem_take hrow)

end Order

/-- Lists agree up to order when they do for every rank. -/
theorem perm_map_of_filter {l l' : List α}
    (hfilter : ∀ x, ((l.filter fun row => rank row = x).map doc).Perm
      ((l'.filter fun row => rank row = x).map doc)) :
    (l.map doc).Perm (l'.map doc) := by
  classical
  have hcount : ∀ (rows : List α) (x : κ) (d : δ),
      (rows.map fun row => (rank row, doc row)).count (x, d) =
        ((rows.filter fun row => rank row = x).map doc).count d := by
    intro rows x d
    rw [List.count_eq_countP, List.countP_map, List.count_eq_countP,
      List.countP_map, List.countP_filter]
    apply List.countP_congr
    intro row _
    simp [and_comm]
  have hpairs : (l.map fun row => (rank row, doc row)).Perm
      (l'.map fun row => (rank row, doc row)) := by
    apply List.perm_iff_count.mpr
    intro ⟨x, d⟩
    rw [hcount, hcount]
    exact (hfilter x).count_eq d
  have hdocs := hpairs.map Prod.snd
  rw [List.map_map, List.map_map] at hdocs
  exact hdocs

theorem perm_of_forall_eq {l l' : List δ} (hlength : l.length = l'.length)
    (heq : ∀ d ∈ l, ∀ d' ∈ l', d = d') : l.Perm l' := by
  cases l with
  | nil => rw [List.eq_nil_of_length_eq_zero hlength.symm]
  | cons d rest =>
      cases l' with
      | nil => cases hlength
      | cons d' rest' =>
          have hfirst : ∀ e ∈ d :: rest, e = d' := fun e he =>
            heq e he d' List.mem_cons_self
          have hsecond : ∀ e ∈ d' :: rest', e = d' := fun e he =>
            (heq d List.mem_cons_self e he).symm.trans
              (heq d List.mem_cons_self d' List.mem_cons_self)
          rw [List.eq_replicate_of_mem hfirst, List.eq_replicate_of_mem hsecond,
            hlength]

section Pages

variable {rows ordered other : List α} {k : ℕ}

theorem mem_of_mem_page {i : ℕ} {row : α} (hrow : row ∈ page k i ordered) :
    row ∈ ordered :=
  List.mem_of_mem_drop (List.mem_of_mem_take hrow)

theorem length_filter_page (hordered : IsOrder rank rows ordered)
    (hother : IsOrder rank rows other) (i : ℕ) (x : κ) :
    ((page k i ordered).filter fun row => rank row = x).length =
      ((page k i other).filter fun row => rank row = x).length := by
  have hranks : ∀ l : List α, ((page k i l).filter fun row => rank row = x).length =
      (page k i (l.map rank)).countP fun y => y = x := by
    intro l
    rw [page, page, ← List.map_drop, ← List.map_take, List.countP_map,
      List.countP_eq_length_filter]
    rfl
  rw [hranks, hranks, hordered.map_rank_eq hother]

/-- With ties on one page, a page holds the same documents in every order. -/
theorem page_docs_perm (hk : 0 < k)
    (hties : TiesOnOnePage rank doc k rows)
    (hordered : IsOrder rank rows ordered) (hother : IsOrder rank rows other)
    (i : ℕ) :
    ((page k i ordered).map doc).Perm ((page k i other).map doc) := by
  apply @perm_map_of_filter α κ δ _ rank
  intro x
  by_cases hdiffer : ∃ row ∈ rows, ∃ row' ∈ rows, rank row = x ∧
      rank row' = x ∧ doc row ≠ doc row'
  · obtain ⟨row, hrow, row', hrow', hx, hx', hne⟩ := hdiffer
    have hpage := hties row hrow row' hrow' (hx.trans hx'.symm) hne
    rw [hx] at hpage
    rw [hordered.filter_page hk i hpage, hother.filter_page hk i hpage]
    split_ifs with hi
    · exact ((hordered.perm.trans hother.perm.symm).filter _).map doc
    · exact List.Perm.refl _
  · apply perm_of_forall_eq
    · rw [List.length_map, List.length_map]
      exact length_filter_page hordered hother i x
    · intro d hd d' hd'
      obtain ⟨row, hrow, rfl⟩ := List.mem_map.mp hd
      obtain ⟨row', hrow', rfl⟩ := List.mem_map.mp hd'
      obtain ⟨hmem, hx⟩ := List.mem_filter.mp hrow
      obtain ⟨hmem', hx'⟩ := List.mem_filter.mp hrow'
      by_contra hne
      apply hdiffer
      exact ⟨row, hordered.perm.mem_iff.mp (mem_of_mem_page hmem), row',
        hother.perm.mem_iff.mp (mem_of_mem_page hmem'),
        of_decide_eq_true hx, of_decide_eq_true hx', hne⟩

/-- The rows around a rank, put together again. -/
theorem filter_around_perm (rank : α → κ) (x : κ) (rows : List α) :
    (rows.filter (fun row => rank row < x) ++
      rows.filter (fun row => rank row = x) ++
      rows.filter fun row => x < rank row).Perm rows := by
  have hequal : rows.filter (fun row => decide (rank row = x) &&
      decide (¬ rank row < x)) = rows.filter fun row => rank row = x := by
    apply List.filter_congr
    intro row _
    by_cases hrow : rank row = x <;> simp [hrow]
  have hlarger : rows.filter (fun row => !decide (rank row = x) &&
      decide (¬ rank row < x)) = rows.filter fun row => x < rank row := by
    apply List.filter_congr
    intro row _
    rcases lt_trichotomy (rank row) x with hlt | heq | hgt
    · simp [hlt, hlt.not_gt]
    · simp [heq]
    · simp [hgt, hgt.not_gt, hgt.ne']
  have hrest := List.filter_append_perm (fun row => rank row = x)
    (rows.filter fun row => ¬ rank row < x)
  rw [List.filter_filter, List.filter_filter, hequal, hlarger] at hrest
  have hall := List.filter_append_perm (fun row => rank row < x) rows
  simp only [← decide_not] at hall
  rw [List.append_assoc]
  exact (List.Perm.append_left _ hrest).trans hall

/-- Rows of smaller rank, the rows of the rank in any order, and rows of
larger rank, in the order of their ranks. -/
theorem isOrder_around (hordered : IsOrder rank rows ordered) {x : κ}
    {tied : List α} (htied : tied.Perm (rows.filter fun row => rank row = x)) :
    IsOrder rank rows
      (ordered.filter (fun row => rank row < x) ++ tied ++
        ordered.filter fun row => x < rank row) where
  perm := by
    have hmiddle : tied.Perm (ordered.filter fun row => rank row = x) :=
      htied.trans (hordered.perm.symm.filter _)
    exact ((hmiddle.append_left _).append_right _).trans
      ((filter_around_perm rank x ordered).trans hordered.perm)
  sorted := by
    have hrank : ∀ row ∈ tied, rank row = x := fun row hrow =>
      of_decide_eq_true (List.mem_filter.mp (htied.mem_iff.mp hrow)).2
    have hlower : ∀ row ∈ ordered.filter (fun row => rank row < x),
        rank row < x := fun row hrow =>
      of_decide_eq_true (List.mem_filter.mp hrow).2
    have hupper : ∀ row ∈ ordered.filter (fun row => x < rank row),
        x < rank row := fun row hrow =>
      of_decide_eq_true (List.mem_filter.mp hrow).2
    have htiedSorted : tied.Pairwise fun earlier later =>
        rank earlier ≤ rank later := by
      apply List.pairwise_of_forall_mem_list
      intro row hrow row' hrow'
      rw [hrank row hrow, hrank row' hrow']
    rw [List.append_assoc]
    apply List.pairwise_append.mpr
    refine ⟨hordered.sorted.filter _, List.pairwise_append.mpr
      ⟨htiedSorted, hordered.sorted.filter _, ?_⟩, ?_⟩
    · intro row hrow row' hrow'
      rw [hrank row hrow]
      exact (hupper row' hrow').le
    · intro row hrow row' hrow'
      rcases List.mem_append.mp hrow' with hmem | hmem
      · rw [hrank row' hmem]
        exact (hlower row hrow).le
      · exact ((hlower row hrow).trans (hupper row' hmem)).le

omit [LinearOrder κ] in
theorem page_of_last {i : ℕ} {before after : List α} (row : α)
    (hstart : i * k ≤ before.length) (hend : before.length + 1 = i * k + k) :
    page k i (before ++ row :: after) = before.drop (i * k) ++ [row] := by
  have htake : (before ++ row :: after).take (i * k + k) =
      before ++ [row] := by
    rw [← hend, List.take_length_add_append]
    rfl
  rw [page, List.take_drop, htake, List.drop_append_of_le_length hstart]

omit [LinearOrder κ] in
theorem perm_insert_two (row row' : α) (rest : List α) (q : ℕ) :
    (rest.take q ++ row :: row' :: rest.drop q).Perm
      (row :: row' :: rest) := by
  have hmoved : (rest.take q ++ row :: row' :: rest.drop q).Perm
      (row :: (rest.take q ++ row' :: rest.drop q)) := List.perm_middle
  have hmoved' : (rest.take q ++ row' :: rest.drop q).Perm
      (row' :: (rest.take q ++ rest.drop q)) := List.perm_middle
  rw [List.take_append_drop] at hmoved'
  exact hmoved.trans (hmoved'.cons row)

theorem upTo_eq (rank : α → κ) (x : κ) (rows : List α) :
    upTo rank x rows =
      below rank x rows + (rows.filter fun row => rank row = x).length := by
  induction rows with
  | nil => rfl
  | cons row rows ih =>
      unfold upTo below at ih ⊢
      rcases lt_trichotomy (rank row) x with hlt | heq | hgt
      · simp [hlt, hlt.le, hlt.ne, ih]
        omega
      · simp [heq, ih]
        omega
      · simp [hgt.not_ge, hgt.not_gt, hgt.ne', ih]

/-- Two different rows of one rank are the first two of an order of all rows
of this rank. -/
theorem exists_tied_perm {row row' : α} (hrow : row ∈ rows)
    (hrow' : row' ∈ rows) (hrank : rank row = rank row') (hne : row' ≠ row) :
    ∃ rest, (row :: row' :: rest).Perm
      (rows.filter fun other => rank other = rank row) := by
  classical
  have hmem : row ∈ rows.filter fun other => rank other = rank row :=
    List.mem_filter.mpr ⟨hrow, by simp⟩
  have hmem' : row' ∈ (rows.filter fun other => rank other = rank row).erase
      row := by
    apply (List.mem_erase_of_ne hne).mpr
    exact List.mem_filter.mpr ⟨hrow', by simp [hrank]⟩
  exact ⟨_, ((List.perm_cons_erase hmem').symm.cons row).trans
    (List.perm_cons_erase hmem).symm⟩

/-- The page of the first of two positions ends before the second one when
they are on different pages. -/
theorem page_end_le {low last : ℕ} (hle : low ≤ last)
    (hpages : low / k ≠ last / k) : low / k * k + k ≤ last := by
  have hlt : low / k < last / k :=
    lt_of_le_of_ne (Nat.div_le_div_right hle) hpages
  have hnext : (low / k + 1) * k ≤ last / k * k :=
    Nat.mul_le_mul_right k hlt
  rw [Nat.succ_mul] at hnext
  exact hnext.trans (Nat.div_mul_le_self last k)

/-- When rows of one rank that differ lie on two pages, two orders differ on
a page. -/
theorem exists_pages_differ (hk : 0 < k)
    (hties : ¬ TiesOnOnePage rank doc k rows) :
    ∃ i ordered other, i * k < rows.length ∧ IsOrder rank rows ordered ∧
      IsOrder rank rows other ∧
      ¬ ((page k i ordered).map doc).Perm ((page k i other).map doc) := by
  simp only [TiesOnOnePage, not_forall] at hties
  obtain ⟨row, hrow, row', hrow', hrank, hdoc, hpages⟩ := hties
  obtain ⟨ordered, hordered⟩ := exists_isOrder rank rows
  have hne : row' ≠ row := fun heq => hdoc (congrArg doc heq.symm)
  obtain ⟨rest, hrest⟩ := exists_tied_perm hrow hrow' hrank hne
  have hcount := upTo_eq rank (rank row) rows
  have hlower : (ordered.filter fun other => rank other < rank row).length =
      below rank (rank row) rows := by
    rw [← List.countP_eq_length_filter, hordered.perm.countP_eq, below]
  have hupTo : upTo rank (rank row) rows ≤ rows.length := List.countP_le_length
  rw [← hrest.length_eq] at hcount
  simp only [List.length_cons] at hcount
  generalize hlow : below rank (rank row) rows = low at *
  have hstart := Nat.div_mul_le_self low k
  have hend := page_end_le (show low ≤ upTo rank (rank row) rows - 1 by omega)
    hpages
  have hnext := Nat.lt_div_mul_add (a := low) hk
  let q := low / k * k + k - 1 - low
  have hbefore : (ordered.filter (fun other => rank other < rank row) ++
      rest.take q).length = low + q := by
    rw [List.length_append, hlower, List.length_take]
    omega
  have hpage : ∀ first second, page k (low / k)
      (ordered.filter (fun other => rank other < rank row) ++
        (rest.take q ++ first :: second :: rest.drop q) ++
        ordered.filter fun other => rank row < rank other) =
      (ordered.filter (fun other => rank other < rank row) ++
        rest.take q).drop (low / k * k) ++ [first] := by
    intro first second
    have hshape := @page_of_last α k (low / k)
      (ordered.filter (fun other => rank other < rank row) ++ rest.take q)
      (second :: rest.drop q ++
        ordered.filter fun other => rank row < rank other)
      first (by omega) (by omega)
    simpa using hshape
  refine ⟨low / k, _, _, by omega,
    isOrder_around hordered ((perm_insert_two row row' rest q).trans hrest),
    isOrder_around hordered ((perm_insert_two row' row rest q).trans
      ((List.Perm.swap row row' rest).trans hrest)), ?_⟩
  intro hperm
  rw [hpage row row', hpage row' row, List.map_append, List.map_append] at hperm
  have hlast := (List.perm_append_left_iff _).mp hperm
  exact hdoc (by simpa using hlast)

end Pages

end TiedPages
