import StoreCpp.DocumentColumns
import StoreCpp.PagedList

/-!
# Reading what has been saved

Each read of the client is a selection from the rows of one table, and the
rows are the last documents of the keys that have been saved.  `search` and
`one` look at the field of the document, `collect` at the column, and the type
is always the column.  What is asked for is spliced into the statement, so the
reads are about texts that survive that.
-/

namespace StoreCpp

open StepMachine KeyedTable TiedPages

/-! ## The queries -/

def selectRows (table : DocumentTable) (p : DocumentRow → Prop)
    [DecidablePred p] : DocumentTable where
  rows := table.rows.filter p
  keyed := table.keyed.sublist (List.filter_sublist.map _)

theorem percent_notMem_idKey : '%' ∉ idKey.text := by
  decide

def idField : QueryText where
  toLiteralText := idKey
  noPercent := percent_notMem_idKey

/-- What `one` may return: any of the rows, since its query has no order. -/
def OneReturns (jsonText : Json → Str) (table : DocumentTable)
    (field text type : QueryText) : Option Json → Prop
  | none => ∀ row ∈ table.rows, ¬ MatchesField jsonText field text type row
  | some doc => ∃ row ∈ table.rows,
      MatchesField jsonText field text type row ∧ row.current = doc

section Ordered

variable {κ : Type} [LinearOrder κ]

def SearchReturnsDocs (jsonText : Json → Str) (rank : DocumentRow → κ)
    (table : DocumentTable) (field text type : QueryText)
    (offset limit : Int32) (docs : List Json) : Prop :=
  ListReturns rank (selectRows table (MatchesField jsonText field text type))
    offset limit docs

/-- `collect` is ordered by the column it selects with. -/
def CollectReturns (collate : Str → κ) (column : DocumentRow → Str)
    (table : DocumentTable) (type : QueryText) (keys : List QueryText)
    (docs : List Json) : Prop :=
  ∃ ordered, IsOrder (fun row => collate (column row))
      (selectRows table fun row => row.type = type.text ∧
        (keys.map fun key => key.text).contains (column row)).rows
      ordered ∧ docs = ordered.map DocumentRow.current

end Ordered

def countRows (table : DocumentTable) (type : QueryText) : ℕ :=
  (selectRows table fun row => SelectsType type.text row.type).rows.length

/-! ## The last documents -/

variable {τ : Type*} [DecidableEq τ]

def lastSaved (calls : List (SaveCall τ)) : List (DocumentKey τ × Json) :=
  (calls.filterMap SaveCall.key).dedup.filterMap fun key =>
    (docsFor calls key).getLast?.map fun doc => (key, doc)

def savedIn (calls : List (SaveCall τ)) (table : τ) :
    List (DocumentKey τ × Json) :=
  (lastSaved calls).filter fun saved => saved.1.table = table

def DocumentRow.saved (table : τ) (row : DocumentRow) :
    DocumentKey τ × Json :=
  (⟨table, row.id, row.type⟩, row.current)

theorem row_current {final : Documents τ} {calls : List (SaveCall τ)}
    (hrun : (documentSaves τ).run (fun _ => Table.empty) calls = some final)
    (key : DocumentKey τ) :
    (final.row key).map DocumentRow.current = (docsFor calls key).getLast? := by
  rcases List.eq_nil_or_concat' (docsFor calls key) with hdocs |
    ⟨earlier, last, hdocs⟩
  · rw [row_eq_start hrun hdocs, hdocs]
    rfl
  · obtain ⟨row, hrow, hcurrent, -⟩ :=
      documentSaves_row hrun key earlier last hdocs
    rw [hrow, hdocs, List.getLast?_concat, Option.map_some, hcurrent]

theorem mem_lastSaved {calls : List (SaveCall τ)} {key : DocumentKey τ}
    {doc : Json} :
    (key, doc) ∈ lastSaved calls ↔ (docsFor calls key).getLast? = some doc := by
  unfold lastSaved
  rw [List.mem_filterMap]
  constructor
  · rintro ⟨other, -, hother⟩
    obtain ⟨found, hfound, heq⟩ := Option.map_eq_some_iff.mp hother
    obtain ⟨rfl, rfl⟩ := Prod.mk.inj heq
    exact hfound
  · intro hlast
    refine ⟨key, ?_, by rw [hlast]; rfl⟩
    have hmem := List.mem_of_getLast? hlast
    obtain ⟨call, hcall, -⟩ := List.mem_map.mp hmem
    rw [List.mem_filter, decide_eq_true_eq] at hcall
    rw [List.mem_dedup, List.mem_filterMap]
    exact ⟨call, hcall.1, hcall.2⟩

theorem nodup_lastSaved (calls : List (SaveCall τ)) :
    (lastSaved calls).Nodup := by
  refine (List.nodup_dedup _).filterMap
    fun first second saved hfirst hsecond => ?_
  obtain ⟨doc, -, rfl⟩ := Option.map_eq_some_iff.mp hfirst
  obtain ⟨other, -, heq⟩ := Option.map_eq_some_iff.mp hsecond
  exact (Prod.mk.inj heq).1.symm

theorem mem_savedIn {calls : List (SaveCall τ)} {table : τ}
    {key : DocumentKey τ} {doc : Json} :
    (key, doc) ∈ savedIn calls table ↔
      (docsFor calls key).getLast? = some doc ∧ key.table = table := by
  unfold savedIn
  rw [List.mem_filter, mem_lastSaved, decide_eq_true_eq]

/-- The rows of a table are the last documents of its keys. -/
theorem rows_perm_savedIn {final : Documents τ} {calls : List (SaveCall τ)}
    (hrun : (documentSaves τ).run (fun _ => Table.empty) calls = some final)
    (table : τ) :
    ((final table).rows.map (DocumentRow.saved table)).Perm
      (savedIn calls table) := by
  have hrows : ((final table).rows.map (DocumentRow.saved table)).Nodup := by
    refine List.Nodup.of_map (fun saved => (saved.1.id, saved.1.type)) ?_
    rw [List.map_map]
    exact (final table).keyed
  refine (List.perm_ext_iff_of_nodup hrows
    ((nodup_lastSaved calls).filter _)).mpr ?_
  rintro ⟨key, doc⟩
  change _ ↔ (key, doc) ∈ savedIn calls table
  rw [mem_savedIn, ← row_current hrun, Option.map_eq_some_iff, List.mem_map]
  constructor
  · rintro ⟨row, hrow, heq⟩
    obtain ⟨rfl, rfl⟩ := Prod.mk.inj heq
    exact ⟨⟨row, (Table.find_eq_some_iff _ _ _).mpr ⟨hrow, rfl⟩, rfl⟩, rfl⟩
  · rintro ⟨⟨row, hrow, rfl⟩, rfl⟩
    obtain ⟨hmem, hkey⟩ := (Table.find_eq_some_iff _ _ _).mp hrow
    obtain ⟨hid, htype⟩ := Prod.mk.inj hkey
    refine ⟨row, hmem, ?_⟩
    cases key
    simp_all [DocumentRow.saved]

theorem docs_perm_of_selects {final : Documents τ} {calls : List (SaveCall τ)}
    (hrun : (documentSaves τ).run (fun _ => Table.empty) calls = some final)
    (table : τ) {p : DocumentRow → Prop} [DecidablePred p]
    {q : DocumentKey τ × Json → Prop} [DecidablePred q]
    (hselects : ∀ row, q (row.saved table) ↔ p row) :
    ((selectRows (final table) p).rows.map (DocumentRow.saved table)).Perm
      ((savedIn calls table).filter q) := by
  have hfilter := (rows_perm_savedIn hrun table).filter q
  rw [List.filter_map] at hfilter
  refine List.Perm.trans (List.Perm.of_eq ?_) hfilter
  refine congrArg _ (List.filter_congr fun row _ => ?_)
  simp only [Function.comp_apply, hselects]

/-! ## The reads -/

theorem valueString_id_of_docsFor {calls : List (SaveCall τ)}
    {key : DocumentKey τ} {doc : Json}
    (hlast : (docsFor calls key).getLast? = some doc) :
    doc.valueString "id".toList [] = some key.id := by
  obtain ⟨call, hcall, rfl⟩ := List.mem_map.mp (List.mem_of_getLast? hlast)
  rw [List.mem_filter, decide_eq_true_eq] at hcall
  obtain ⟨row, hrow, rfl⟩ := Option.map_eq_some_iff.mp hcall.2
  simp only [SaveCall.row, Option.bind_eq_bind, Option.bind_eq_some_iff,
    Option.pure_def, Option.some.injEq] at hrow
  obtain ⟨id, hvalue, name, -, type, -, related, -, rfl⟩ := hrow
  exact hvalue

theorem fieldText_id_iff (jsonText : Json → Str) {calls : List (SaveCall τ)}
    {key : DocumentKey τ} {doc : Json} {id : Str}
    (hlast : (docsFor calls key).getLast? = some doc) (hid : id ≠ []) :
    doc.fieldText jsonText "id".toList = some id ↔ key.id = id := by
  rcases fieldText_of_valueString jsonText
    (valueString_id_of_docsFor hlast) with
    hfield | ⟨hfield, hempty⟩
  · rw [hfield, Option.some.injEq]
  · rw [hfield, hempty]
    exact iff_of_false (by simp) (Ne.symm hid)

def SavedMatches (jsonText : Json → Str) (field text type : QueryText)
    (saved : DocumentKey τ × Json) : Prop :=
  saved.2.fieldText jsonText field.text = some text.text ∧
    SelectsType type.text saved.1.type

instance (jsonText : Json → Str) (field text type : QueryText)
    (saved : DocumentKey τ × Json) :
    Decidable (SavedMatches jsonText field text type saved) :=
  inferInstanceAs (Decidable (_ ∧ _))

/-- What the reads return after the saves: the last documents. -/
structure ReadsSaved {κ : Type} [LinearOrder κ] (jsonText : Json → Str)
    (rank : DocumentRow → κ) (collate : Str → κ) (calls : List (SaveCall τ))
    (documents : Documents τ) : Prop where
  one : ∀ (table : τ) (id type : QueryText) answer,
    id.text ≠ [] → type.text ≠ [] →
    (OneReturns jsonText (documents table) idField id type answer ↔
      answer = (docsFor calls ⟨table, id.text, type.text⟩).getLast?)
  oneOf : ∀ table (field text type : QueryText) answer,
    OneReturns jsonText (documents table) field text type answer ↔
      match answer with
      | none => ∀ saved ∈ savedIn calls table,
          ¬ SavedMatches jsonText field text type saved
      | some doc => ∃ saved ∈ savedIn calls table,
          SavedMatches jsonText field text type saved ∧ saved.2 = doc
  search : ∀ table (field text type : QueryText) (limit : Int32),
    ((savedIn calls table).length : ℤ) ≤ limit.toInt →
    (∃ docs, SearchReturnsDocs jsonText rank (documents table) field text
      type 0 limit docs) ∧
    ∀ docs, SearchReturnsDocs jsonText rank (documents table) field text
      type 0 limit docs →
        docs.Perm (((savedIn calls table).filter fun saved =>
          SavedMatches jsonText field text type saved).map Prod.snd)
  collect : ∀ table (type : QueryText) (keys : List QueryText),
    (∃ docs, CollectReturns collate DocumentRow.id (documents table) type
      keys docs) ∧
    ∀ docs, CollectReturns collate DocumentRow.id (documents table) type
      keys docs →
        docs.Perm (((savedIn calls table).filter fun saved =>
          saved.1.type = type.text ∧
            saved.1.id ∈ keys.map fun key => key.text).map Prod.snd)
  count : ∀ table (type : QueryText),
    countRows (documents table) type =
      ((savedIn calls table).filter fun saved =>
        SelectsType type.text saved.1.type).length

section Run

variable {final : Documents τ} {calls : List (SaveCall τ)}
    (hrun : (documentSaves τ).run (fun _ => Table.empty) calls = some final)

include hrun

theorem oneReturns_iff (jsonText : Json → Str) (table : τ)
    (field text type : QueryText) (answer : Option Json) :
    OneReturns jsonText (final table) field text type answer ↔
      match answer with
      | none => ∀ saved ∈ savedIn calls table,
          ¬ SavedMatches jsonText field text type saved
      | some doc => ∃ saved ∈ savedIn calls table,
          SavedMatches jsonText field text type saved ∧ saved.2 = doc := by
  have hmem : ∀ saved, saved ∈ savedIn calls table ↔
      ∃ row ∈ (final table).rows, row.saved table = saved := fun saved => by
    rw [← (rows_perm_savedIn hrun table).mem_iff, List.mem_map]
  cases answer with
  | none =>
      constructor
      · intro hnone saved hsaved
        obtain ⟨row, hrow, rfl⟩ := (hmem saved).mp hsaved
        exact hnone row hrow
      · exact fun hnone row hrow =>
          hnone _ ((hmem (row.saved table)).mpr ⟨row, hrow, rfl⟩)
  | some doc =>
      constructor
      · rintro ⟨row, hrow, hmatches, rfl⟩
        exact ⟨row.saved table, (hmem _).mpr ⟨row, hrow, rfl⟩, hmatches, rfl⟩
      · rintro ⟨saved, hsaved, hmatches, rfl⟩
        obtain ⟨row, hrow, rfl⟩ := (hmem saved).mp hsaved
        exact ⟨row, hrow, hmatches, rfl⟩

theorem oneReturns_id_iff (jsonText : Json → Str) (table : τ)
    (id type : QueryText) (answer : Option Json) (hid : id.text ≠ [])
    (htype : type.text ≠ []) :
    OneReturns jsonText (final table) idField id type answer ↔
      answer = (docsFor calls ⟨table, id.text, type.text⟩).getLast? := by
  let key : DocumentKey τ := ⟨table, id.text, type.text⟩
  have hmatches : ∀ other doc, (other, doc) ∈ savedIn calls table →
      (SavedMatches jsonText idField id type (other, doc) ↔
        other = key) := by
    intro other doc hsaved
    obtain ⟨hlast, htable⟩ := mem_savedIn.mp hsaved
    have hfield := fieldText_id_iff jsonText hlast hid
    rw [SavedMatches, SelectsType, or_iff_right htype]
    constructor
    · rintro ⟨hsameId, hsameType⟩
      cases other with
      | mk otherTable otherId otherType =>
          cases htable
          cases hfield.mp hsameId
          cases hsameType
          rfl
    · rintro rfl
      exact ⟨hfield.mpr rfl, rfl⟩
  rw [oneReturns_iff hrun]
  cases answer with
  | none =>
      constructor
      · intro hnone
        refine (Option.eq_none_iff_forall_ne_some.mpr fun doc hlast => ?_).symm
        have hsaved := mem_savedIn.mpr ⟨hlast, rfl⟩
        exact hnone _ hsaved ((hmatches key doc hsaved).mpr rfl)
      · rintro hnone ⟨other, doc⟩ hsaved hmatch
        obtain ⟨hlast, -⟩ := mem_savedIn.mp hsaved
        rw [(hmatches other doc hsaved).mp hmatch, ← hnone] at hlast
        cases hlast
  | some doc =>
      constructor
      · rintro ⟨⟨other, found⟩, hsaved, hmatch, rfl⟩
        rw [(hmatches other found hsaved).mp hmatch] at hsaved
        exact (mem_savedIn.mp hsaved).1.symm
      · intro hlast
        have hsaved := mem_savedIn.mpr ⟨hlast.symm, rfl⟩
        exact ⟨(key, doc), hsaved, (hmatches key doc hsaved).mpr rfl, rfl⟩

theorem length_savedIn (table : τ) :
    (savedIn calls table).length = (final table).rows.length := by
  rw [← (rows_perm_savedIn hrun table).length_eq, List.length_map]

/-- The documents of selected rows in any order are those of the selected
keys. -/
theorem docs_perm {κ : Type} [LinearOrder κ] {rank : DocumentRow → κ}
    (table : τ) {p : DocumentRow → Prop} [DecidablePred p]
    {q : DocumentKey τ × Json → Prop} [DecidablePred q]
    (hselects : ∀ row, q (row.saved table) ↔ p row) {ordered : List DocumentRow}
    (hordered : IsOrder rank (selectRows (final table) p).rows ordered) :
    (ordered.map DocumentRow.current).Perm
      (((savedIn calls table).filter q).map Prod.snd) := by
  have hperm := (docs_perm_of_selects hrun table hselects).map Prod.snd
  rw [List.map_map] at hperm
  exact (hordered.perm.map _).trans hperm

theorem searchReturns_perm {κ : Type} [LinearOrder κ] (jsonText : Json → Str)
    (rank : DocumentRow → κ) (table : τ) (field text type : QueryText)
    (limit : Int32)
    (hlimit : ((savedIn calls table).length : ℤ) ≤ limit.toInt) :
    (∃ docs, SearchReturnsDocs jsonText rank (final table) field text type 0
      limit docs) ∧
    ∀ docs, SearchReturnsDocs jsonText rank (final table) field text type 0
      limit docs → docs.Perm (((savedIn calls table).filter fun saved =>
        SavedMatches jsonText field text type saved).map Prod.snd) := by
  have hsigns : 0 ≤ (0 : Int32).toInt ∧ 0 ≤ limit.toInt :=
    ⟨le_rfl, le_trans (Int.natCast_nonneg _) hlimit⟩
  unfold SearchReturnsDocs ListReturns
  simp only [if_pos hsigns]
  constructor
  · obtain ⟨ordered, hordered⟩ := exists_isOrder rank
      (selectRows (final table) (MatchesField jsonText field text type)).rows
    exact ⟨_, ordered, hordered, rfl⟩
  · rintro docs ⟨ordered, hordered, rfl⟩
    have hlength : ordered.length ≤ limit.toInt.toNat := by
      have hselected := hordered.perm.length_eq
      have hfilter := (final table).rows.length_filter_le
        (MatchesField jsonText field text type ·)
      rw [length_savedIn hrun] at hlimit
      unfold selectRows at hselected
      dsimp only at hselected
      omega
    have hall : (ordered.drop (0 : Int32).toInt.toNat).take limit.toInt.toNat =
        ordered := List.take_of_length_le hlength
    rw [hall]
    exact docs_perm hrun table (fun row => Iff.rfl) hordered

theorem collectReturns_perm {κ : Type} [LinearOrder κ] (collate : Str → κ)
    (table : τ) (type : QueryText) (keys : List QueryText) :
    (∃ docs, CollectReturns collate DocumentRow.id (final table) type keys
      docs) ∧
    ∀ docs, CollectReturns collate DocumentRow.id (final table) type keys
      docs → docs.Perm (((savedIn calls table).filter fun saved =>
        saved.1.type = type.text ∧
          saved.1.id ∈ keys.map fun key => key.text).map Prod.snd) := by
  constructor
  · obtain ⟨ordered, hordered⟩ := exists_isOrder
      (fun row => collate (DocumentRow.id row))
      (selectRows (final table) fun row => row.type = type.text ∧
        (keys.map fun key => key.text).contains row.id).rows
    exact ⟨_, ordered, hordered, rfl⟩
  · rintro docs ⟨ordered, hordered, rfl⟩
    exact docs_perm hrun table
      (fun row => and_congr_right' List.contains_iff_mem.symm) hordered

theorem countRows_eq (table : τ) (type : QueryText) :
    countRows (final table) type =
      ((savedIn calls table).filter fun saved =>
        SelectsType type.text saved.1.type).length := by
  have hperm := docs_perm_of_selects hrun table
    (q := fun saved => SelectsType type.text saved.1.type)
    (p := fun row => SelectsType type.text row.type) fun row => Iff.rfl
  rw [← hperm.length_eq, List.length_map]
  rfl

end Run

end StoreCpp
