import StoreCpp.DocumentStore
import StoreCpp.EventSearch
import StoreCpp.TiedPages

/-!
# Listing documents page by page

With its default query `list` orders the rows of a table by one field of
their documents and returns a section of them.  The server may return rows
with equal fields in another order at each call, and refuses an offset below
zero, after which `list` returns nothing.
-/

namespace StoreCpp

open TiedPages

/-- `current->>'key'`; `jsonText` is how values other than strings are
written. -/
def Json.fieldText (jsonText : Json → Str) (key : Str) : Json → Option Str
  | .object members =>
      match lookup key members with
      | none => none
      | some .null => none
      | some (.string text) => some text
      | some value => some (jsonText value)
  | _ => none

section Listing

variable {κ : Type} [LinearOrder κ]

/-- The place of a row in ascending order, where nulls come last; `collate` is
the collation of the database. -/
def sortPlace (jsonText : Json → Str) (collate : Str → κ) (sortKey : LiteralText)
    (row : DocumentRow) : WithTop κ :=
  (row.current.fieldText jsonText sortKey.text).elim ⊤ fun text =>
    WithTop.some (collate text)

/-- What `list` may return of the rows in an order. -/
def ListReturns (rank : DocumentRow → κ) (table : DocumentTable)
    (offset limit : Int32) (docs : List Json) : Prop :=
  if 0 ≤ offset.toInt ∧ 0 ≤ limit.toInt then
    ∃ ordered, IsOrder rank table.rows ordered ∧
      docs = ((ordered.drop offset.toInt.toNat).take
        limit.toInt.toNat).map DocumentRow.current
  else docs = []

/-- The documents of the pages from an offset on, until a page is empty. -/
inductive PagesReturn (rank : DocumentRow → κ) (table : DocumentTable)
    (k : Int32) : Int32 → List Json → Prop where
  | done (offset : Int32) (hlist : ListReturns rank table offset k []) :
      PagesReturn rank table k offset []
  | more (offset : Int32) (docs rest : List Json)
      (hlist : ListReturns rank table offset k docs) (hdocs : docs ≠ [])
      (hrest : PagesReturn rank table k (offset + k) rest) :
      PagesReturn rank table k offset (docs ++ rest)

/-- The pages come to an end, and however the server orders each of them, they
have the document of each row exactly once. -/
def PagesExactlyOnce (rank : DocumentRow → κ) (table : DocumentTable)
    (k : Int32) : Prop :=
  (∃ docs, PagesReturn rank table k 0 docs) ∧
    ∀ docs, PagesReturn rank table k 0 docs →
      docs.Perm (table.rows.map DocumentRow.current)

/-- Ties between different documents lie on one page, and every page that has
rows starts at an `int`. -/
structure PagesWhole (rank : DocumentRow → κ) (table : DocumentTable)
    (k : Int32) : Prop where
  ties : TiesOnOnePage rank DocumentRow.current k.toInt.toNat table.rows
  reachable : ∀ i, i * k.toInt.toNat < table.rows.length →
    i * k.toInt.toNat ≤ intMax

/-! ## Offsets -/

/-- The offset of a page; past the largest `int` it has become negative. -/
def AtPage (k : Int32) (i : ℕ) (offset : Int32) : Prop :=
  offset.toInt = (i * k.toInt.toNat : ℕ) ∧ i * k.toInt.toNat ≤ intMax ∨
    intMax < i * k.toInt.toNat ∧ offset.toInt < 0

theorem atPage_zero (k : Int32) : AtPage k 0 0 := by
  apply Or.inl
  rw [Nat.zero_mul]
  exact ⟨rfl, Nat.zero_le _⟩

theorem AtPage.next {k : Int32} (hk : 1 ≤ k.toInt) {i : ℕ} {offset : Int32}
    (hoffset : AtPage k i offset) (hi : i * k.toInt.toNat ≤ intMax) :
    AtPage k (i + 1) (offset + k) := by
  have hvalue : offset.toInt = (i * k.toInt.toNat : ℕ) := by
    rcases hoffset with hvalue | hpast
    · exact hvalue.1
    · exact absurd hi (not_le.mpr hpast.1)
  have hlimit : k.toInt ≤ 2147483647 := Int32.toInt_le k
  have hnat : (k.toInt.toNat : ℤ) = k.toInt := Int.toNat_of_nonneg (by omega)
  have hsum : (offset + k).toInt =
      ((i * k.toInt.toNat : ℕ) + k.toInt).bmod (2 ^ 32) := by
    rw [Int32.toInt_add, hvalue]
  unfold AtPage
  rw [Nat.succ_mul, hsum]
  unfold intMax at *
  generalize i * k.toInt.toNat = start at *
  rw [Int.bmod_def]
  omega

section Pages

variable {rank : DocumentRow → κ} {table : DocumentTable} {k : Int32}
  (hk : 1 ≤ k.toInt)

include hk in
theorem listReturns_iff {i : ℕ} {offset : Int32} (hoffset : AtPage k i offset)
    (docs : List Json) :
    ListReturns rank table offset k docs ↔
      if i * k.toInt.toNat ≤ intMax then
        ∃ ordered, IsOrder rank table.rows ordered ∧
          docs = (page k.toInt.toNat i ordered).map DocumentRow.current
      else docs = [] := by
  unfold ListReturns
  rcases hoffset with ⟨hvalue, hle⟩ | ⟨hgt, hneg⟩
  · have hnonneg : 0 ≤ offset.toInt ∧ 0 ≤ k.toInt := by omega
    rw [if_pos hnonneg, if_pos hle, hvalue, Int.toNat_natCast]
    rfl
  · have hneg' : ¬ (0 ≤ offset.toInt ∧ 0 ≤ k.toInt) := by omega
    rw [if_neg hneg', if_neg (not_le.mpr hgt)]

theorem page_eq_nil_iff {α : Type} {k i : ℕ} (hk : 0 < k) {ordered : List α} :
    page k i ordered = [] ↔ ordered.length ≤ i * k := by
  simp [page, hk.ne', List.drop_eq_nil_iff]

theorem drop_eq_page_append {α : Type} (k i : ℕ) (ordered : List α) :
    ordered.drop (i * k) = page k i ordered ++ ordered.drop ((i + 1) * k) := by
  rw [page, Nat.succ_mul, ← List.drop_drop, List.take_append_drop]

include hk in
/-- With whole ties every run of pages has the documents of the rest of any
one order. -/
theorem pagesReturn_perm (hwhole : PagesWhole rank table k)
    {ordered : List DocumentRow} (hordered : IsOrder rank table.rows ordered)
    {offset : Int32} {docs : List Json}
    (hpages : PagesReturn rank table k offset docs) {i : ℕ}
    (hoffset : AtPage k i offset) :
    docs.Perm ((ordered.drop (i * k.toInt.toNat)).map
      DocumentRow.current) := by
  have hlimit : 0 < k.toInt.toNat := by omega
  induction hpages generalizing i with
  | done offset hlist =>
      have hend : table.rows.length ≤ i * k.toInt.toNat := by
        rw [listReturns_iff hk hoffset] at hlist
        split_ifs at hlist with hle
        · obtain ⟨other, hother, hnil⟩ := hlist
          have hempty := List.map_eq_nil_iff.mp hnil.symm
          rw [page_eq_nil_iff hlimit, hother.perm.length_eq] at hempty
          exact hempty
        · by_contra hlt
          exact hle (hwhole.reachable i (not_le.mp hlt))
      rw [← hordered.perm.length_eq] at hend
      rw [List.drop_eq_nil_of_le hend]
      exact List.Perm.refl _
  | more offset docs rest hlist hdocs _ ih =>
      rw [listReturns_iff hk hoffset] at hlist
      split_ifs at hlist with hle
      · obtain ⟨other, hother, heq⟩ := hlist
        rw [drop_eq_page_append, List.map_append, heq]
        exact (page_docs_perm hlimit hwhole.ties hother hordered i).append
          (ih (hoffset.next hk hle))
      · exact absurd hlist hdocs

/-! ## Runs with chosen orders -/

/-- The documents of a number of pages, each from an order of its own. -/
def pagesFrom (k : ℕ) (orders : ℕ → List DocumentRow) : ℕ → ℕ → List Json
  | _, 0 => []
  | i, count + 1 =>
      (page k i (orders i)).map DocumentRow.current ++
        pagesFrom k orders (i + 1) count

/-- The number of pages that have rows and start at an `int`. -/
def PageCount (table : DocumentTable) (k count : ℕ) : Prop :=
  (∀ i < count, i * k < table.rows.length ∧ i * k ≤ intMax) ∧
    (table.rows.length ≤ count * k ∨ intMax < count * k)

theorem exists_pageCount (table : DocumentTable) {k : ℕ} (hk : 0 < k) :
    ∃ count, PageCount table k count := by
  have hsome : ∃ count, table.rows.length ≤ count * k ∨ intMax < count * k :=
    ⟨table.rows.length, Or.inl (Nat.le_mul_of_pos_right _ hk)⟩
  refine ⟨Nat.find hsome, ?_, Nat.find_spec hsome⟩
  intro i hi
  have hnot := Nat.find_min hsome hi
  omega

include hk in
theorem pagesReturn_pagesFrom {orders : ℕ → List DocumentRow}
    (horders : ∀ i, IsOrder rank table.rows (orders i)) {count : ℕ}
    (hcount : PageCount table k.toInt.toNat count) {pages i : ℕ}
    (hi : i + pages = count) {offset : Int32} (hoffset : AtPage k i offset) :
    PagesReturn rank table k offset
      (pagesFrom k.toInt.toNat orders i pages) := by
  have hlimit : 0 < k.toInt.toNat := by omega
  induction pages generalizing i offset with
  | zero =>
      apply PagesReturn.done
      rw [listReturns_iff hk hoffset]
      split_ifs with hle
      · have hend : table.rows.length ≤ i * k.toInt.toNat := by
          rcases hcount.2 with hend | hpast
          · rw [← hi] at hend
            exact hend
          · rw [← hi] at hpast
            exact absurd hle (not_le.mpr hpast)
        have hempty := (page_eq_nil_iff hlimit).mpr
          ((horders i).perm.length_eq.trans_le hend)
        exact ⟨orders i, horders i, by rw [hempty]; rfl⟩
      · rfl
  | succ pages ih =>
      obtain ⟨hrows, hle⟩ := hcount.1 i (by omega)
      apply PagesReturn.more
      · rw [listReturns_iff hk hoffset, if_pos hle]
        exact ⟨orders i, horders i, rfl⟩
      · intro hnil
        have hend := (page_eq_nil_iff hlimit).mp (List.map_eq_nil_iff.mp hnil)
        rw [(horders i).perm.length_eq] at hend
        omega
      · exact ih (by omega) (hoffset.next hk hle)

theorem length_pagesFrom_le (k : ℕ) (orders : ℕ → List DocumentRow)
    (i pages : ℕ) : (pagesFrom k orders i pages).length ≤ pages * k := by
  induction pages generalizing i with
  | zero => exact Nat.zero_le _
  | succ pages ih =>
      have hpage : ((page k i (orders i)).map DocumentRow.current).length ≤ k := by
        rw [List.length_map, page, List.length_take]
        exact Nat.min_le_left _ _
      rw [pagesFrom, List.length_append, Nat.succ_mul, Nat.add_comm]
      exact Nat.add_le_add (ih (i + 1)) hpage

theorem pagesFrom_congr {k : ℕ} {orders orders' : ℕ → List DocumentRow}
    {i pages : ℕ} (heq : ∀ j, i ≤ j → orders j = orders' j) :
    pagesFrom k orders i pages = pagesFrom k orders' i pages := by
  induction pages generalizing i with
  | zero => rfl
  | succ pages ih =>
      rw [pagesFrom, pagesFrom, heq i (le_refl i),
        ih fun j hj => heq j (by omega)]

/-- Two runs that differ in one page only agree on that page when they agree. -/
theorem page_perm_of_pagesFrom {k : ℕ} {orders orders' : ℕ → List DocumentRow}
    {i first pages : ℕ} (heq : ∀ j, j ≠ i → orders j = orders' j)
    (hfirst : first ≤ i) (hlast : i < first + pages)
    (hperm : (pagesFrom k orders first pages).Perm
      (pagesFrom k orders' first pages)) :
    ((page k i (orders i)).map DocumentRow.current).Perm
      ((page k i (orders' i)).map DocumentRow.current) := by
  induction pages generalizing first with
  | zero => omega
  | succ pages ih =>
      rw [pagesFrom, pagesFrom] at hperm
      by_cases hi : first = i
      · subst hi
        have hrest := @pagesFrom_congr k orders orders' (first + 1) pages
          fun j hj => heq j (by omega)
        rw [hrest] at hperm
        exact (List.perm_append_right_iff _).mp hperm
      · rw [heq first hi] at hperm
        exact ih (by omega) (by omega)
          ((List.perm_append_left_iff _).mp hperm)

theorem PageCount.lt_of_reached {k count i : ℕ} (hcount : PageCount table k count)
    (hi : i * k < table.rows.length) (hle : i * k ≤ intMax) : i < count := by
  by_contra hge
  have hmul : count * k ≤ i * k := Nat.mul_le_mul_right k (not_lt.mp hge)
  cases hcount.2 with
  | inl hend => omega
  | inr hpast => omega

include hk in
theorem reachable_of_pagesExactlyOnce (hexact : PagesExactlyOnce rank table k)
    {i : ℕ} (hi : i * k.toInt.toNat < table.rows.length) :
    i * k.toInt.toNat ≤ intMax := by
  have hlimit : 0 < k.toInt.toNat := by omega
  obtain ⟨ordered, hordered⟩ := exists_isOrder rank table.rows
  obtain ⟨count, hcount⟩ := exists_pageCount table hlimit
  by_contra hpast
  have hrun : PagesReturn rank table k 0
      (pagesFrom k.toInt.toNat (fun _ => ordered) 0 count) :=
    pagesReturn_pagesFrom hk (fun _ => hordered) hcount
      (Nat.zero_add count) (atPage_zero k)
  have hle := length_pagesFrom_le k.toInt.toNat (fun _ => ordered) 0 count
  rw [(hexact.2 _ hrun).length_eq, List.length_map] at hle
  have hlt : i < count := by
    by_contra hge
    have hmul := Nat.mul_le_mul_right k.toInt.toNat (not_lt.mp hge)
    omega
  exact hpast (hcount.1 i hlt).2

include hk in
/-- Two runs that differ in the order of one page only return the same
documents, so this page has the same documents in both orders. -/
theorem ties_of_pagesExactlyOnce (hexact : PagesExactlyOnce rank table k) :
    TiesOnOnePage rank DocumentRow.current k.toInt.toNat table.rows := by
  have hlimit : 0 < k.toInt.toNat := by omega
  obtain ⟨count, hcount⟩ := exists_pageCount table hlimit
  have hrun : ∀ orders : ℕ → List DocumentRow,
      (∀ i, IsOrder rank table.rows (orders i)) →
        PagesReturn rank table k 0
          (pagesFrom k.toInt.toNat orders 0 count) :=
    fun orders horders => pagesReturn_pagesFrom hk horders hcount
      (Nat.zero_add count) (atPage_zero k)
  by_contra hties
  obtain ⟨i, other, other', hi, hother, hother', hdiffer⟩ :=
    exists_pages_differ hlimit hties
  apply hdiffer
  have hlt := hcount.lt_of_reached hi
    (reachable_of_pagesExactlyOnce hk hexact hi)
  have horders : ∀ j, IsOrder rank table.rows
      (Function.update (fun _ => other') i other j) := by
    intro j
    by_cases hj : j = i
    · subst hj
      simpa using hother
    · simpa [hj] using hother'
  have hperm := (hexact.2 _ (hrun _ horders)).trans
    (hexact.2 _ (hrun _ fun _ => hother')).symm
  have hpage := @page_perm_of_pagesFrom _ _ _ i _ _
    (fun j hj => by simp [hj]) (Nat.zero_le i) (by omega) hperm
  simpa using hpage

include hk in
theorem pagesExactlyOnce_of_whole (hwhole : PagesWhole rank table k) :
    PagesExactlyOnce rank table k := by
  have hlimit : 0 < k.toInt.toNat := by omega
  obtain ⟨ordered, hordered⟩ := exists_isOrder rank table.rows
  obtain ⟨count, hcount⟩ := exists_pageCount table hlimit
  constructor
  · exact ⟨_, pagesReturn_pagesFrom hk (fun _ => hordered) hcount
      (Nat.zero_add count) (atPage_zero k)⟩
  · intro docs hdocs
    have hperm := pagesReturn_perm hk hwhole hordered hdocs (atPage_zero k)
    rw [Nat.zero_mul, List.drop_zero] at hperm
    exact hperm.trans (hordered.perm.map DocumentRow.current)

include hk in
theorem pagesExactlyOnce_iff_whole :
    PagesExactlyOnce rank table k ↔ PagesWhole rank table k := by
  constructor
  · intro hexact
    exact ⟨ties_of_pagesExactlyOnce hk hexact,
      fun _ => reachable_of_pagesExactlyOnce hk hexact⟩
  · exact pagesExactlyOnce_of_whole hk

end Pages

inductive SortDirection where
  | asc
  | desc

/-- Descending order is the reverse of ascending order, nulls included. -/
def ListsExactlyOnce (jsonText : Json → Str) (collate : Str → κ)
    (table : DocumentTable) (sortKey : LiteralText) (k : Int32) :
    SortDirection → Prop
  | .asc => PagesExactlyOnce (sortPlace jsonText collate sortKey) table k
  | .desc => PagesExactlyOnce
      (OrderDual.toDual ∘ sortPlace jsonText collate sortKey) table k

def ListsWhole (jsonText : Json → Str) (collate : Str → κ)
    (table : DocumentTable) (sortKey : LiteralText) (k : Int32) :
    SortDirection → Prop
  | .asc => PagesWhole (sortPlace jsonText collate sortKey) table k
  | .desc => PagesWhole
      (OrderDual.toDual ∘ sortPlace jsonText collate sortKey) table k

end Listing

def twinRow (type : Str) : DocumentRow where
  id := "2-1B".toList
  name := []
  ts := 0
  type := type
  related := []
  current := .object [
    ("id".toList, .string "2-1B".toList),
    ("type".toList, .string type)]
  history := none

/-- Two rows with one id. -/
def twinTable : DocumentTable where
  rows := [twinRow "droid".toList, twinRow "medic".toList]
  keyed := by decide

def idKey : LiteralText where
  text := "id".toList
  noQuote := by decide
  noNul := by decide

/-- The first page from one order of the twins, the others from the other. -/
def twinOrders (i : ℕ) : List DocumentRow :=
  if i = 0 then [twinRow "droid".toList, twinRow "medic".toList]
  else [twinRow "medic".toList, twinRow "droid".toList]

theorem twinOrders_isOrder (i : ℕ) :
    IsOrder (sortPlace (fun _ => []) (id : Str → Str) idKey) twinTable.rows
      (twinOrders i) := by
  have htie : sortPlace (fun _ => []) (id : Str → Str) idKey
      (twinRow "droid".toList) =
        sortPlace (fun _ => []) id idKey (twinRow "medic".toList) := rfl
  unfold twinOrders
  by_cases hi : i = 0
  · rw [if_pos hi]
    exact ⟨List.Perm.refl _, List.pairwise_pair.mpr htie.le⟩
  · rw [if_neg hi]
    exact ⟨List.Perm.swap _ _ _, List.pairwise_pair.mpr htie.ge⟩

theorem twinTable_pageCount : PageCount twinTable (1 : Int32).toInt.toNat 2 := by
  have hone : (1 : Int32).toInt.toNat = 1 := rfl
  have hlength : twinTable.rows.length = 2 := rfl
  constructor
  · intro i hi
    rw [hone, hlength]
    unfold intMax
    omega
  · rw [hone, hlength]
    exact Or.inl (le_refl _)

end StoreCpp
