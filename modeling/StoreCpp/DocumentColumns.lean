import StoreCpp.PagedList

/-!
# The columns of a document

A document row keeps the name and the relation of its document in columns of
their own, beside `current`.  The insert writes the columns and the conflict
clause leaves them, so they keep the values of the first document.  `collect`
selects by the column and `search` by the member of `current`, which is null
where the document has no such member.
-/

namespace StoreCpp

open StepMachine KeyedTable

/-- The name and the relation that a document gives; `none` when reading them
throws. -/
def Json.names (doc : Json) : Option (Str × Str) := do
  let name ← doc.valueString "name".toList []
  let related ← doc.valueString "related".toList []
  return (name, related)

def DocumentRow.names (row : DocumentRow) : Str × Str :=
  (row.name, row.related)

def DocumentRow.Mirrored (row : DocumentRow) : Prop :=
  row.current.names = some row.names

/-! ## Selecting by name -/

/-- A text that a query can be about: between apostrophes and after both
passes of `string_format` it is what it was. -/
structure QueryText extends LiteralText where
  noPercent : '%' ∉ text

def nameField : QueryText where
  text := "name".toList
  noQuote := by decide
  noNul := by decide
  noPercent := by decide

/-- `type = coalesce(type, type)`, where an empty type becomes null. -/
def SelectsType (type : Str) (own : Str) : Prop := type = [] ∨ own = type

instance (type own : Str) : Decidable (SelectsType type own) :=
  inferInstanceAs (Decidable (_ ∨ _))

/-- The `where` of `search` with its exact match, and of `one`. -/
def MatchesField (jsonText : Json → Str) (field text type : QueryText)
    (row : DocumentRow) : Prop :=
  row.current.fieldText jsonText field.text = some text.text ∧
    SelectsType type.text row.type

instance (jsonText : Json → Str) (field text type : QueryText)
    (row : DocumentRow) :
    Decidable (MatchesField jsonText field text type row) :=
  inferInstanceAs (Decidable (_ ∧ _))

/-- The rows that `collect` selects by the name column. -/
def collectRows (table : DocumentTable) (type name : QueryText) :
    List DocumentRow :=
  table.rows.filter fun row => row.type = type.text ∧ row.name = name.text

/-- The rows that `search` selects by the name in `current`. -/
def searchRows (jsonText : Json → Str) (table : DocumentTable)
    (type name : QueryText) : List DocumentRow :=
  table.rows.filter fun row =>
    MatchesField jsonText nameField name type row

/-- Every row has the names of its document, and for each type both queries
select the same rows by a name.  (An empty type is no type for `search`.) -/
structure Documents.Mirrored {τ : Type*} (jsonText : Json → Str)
    (documents : Documents τ) : Prop where
  rows : ∀ table, ∀ row ∈ (documents table).rows, row.Mirrored
  queries : ∀ table type name, type.text ≠ [] →
    collectRows (documents table) type name =
      searchRows jsonText (documents table) type name

/-- The document has a name to search for, where its type can be asked for. -/
def NameGiven (jsonText : Json → Str) (type : Str) (doc : Json) : Prop :=
  ∀ asked : QueryText, asked.text = type → type ≠ [] →
    doc.fieldText jsonText nameField.text ≠ none

/-- The names that the row of a key has been inserted with. -/
def firstNames {τ : Type*} [DecidableEq τ] (start : Documents τ)
    (calls : List (SaveCall τ)) (key : DocumentKey τ) : Option (Str × Str) :=
  match start.row key with
  | some row => some row.names
  | none => (docsFor calls key).head?.bind Json.names

/-- The last document saved for a key has the names of the first. -/
def KeepsNames {τ : Type*} [DecidableEq τ] (start : Documents τ)
    (calls : List (SaveCall τ)) : Prop :=
  ∀ (key : DocumentKey τ) (earlier : List Json) (last : Json),
    docsFor calls key = earlier ++ [last] →
      last.names = firstNames start calls key

/-- The last document saved for a key has a name. -/
def GivesNames {τ : Type*} [DecidableEq τ] (jsonText : Json → Str)
    (calls : List (SaveCall τ)) : Prop :=
  ∀ (key : DocumentKey τ) (earlier : List Json) (last : Json),
    docsFor calls key = earlier ++ [last] → NameGiven jsonText key.type last

/-! ## Rows by key -/

/-- `->>` and `value` differ on a missing member only. -/
theorem fieldText_of_valueString (jsonText : Json → Str) {doc : Json}
    {field text : Str} (hvalue : doc.valueString field [] = some text) :
    doc.fieldText jsonText field = some text ∨
      doc.fieldText jsonText field = none ∧ text = [] := by
  cases doc with
  | object members =>
      simp only [Json.valueString, Json.valueWith] at hvalue
      simp only [Json.fieldText]
      cases hlookup : Json.lookup field members with
      | none =>
          rw [hlookup] at hvalue
          exact .inr ⟨rfl, (Option.some.inj hvalue).symm⟩
      | some value =>
          rw [hlookup] at hvalue
          cases value <;> cases hvalue
          exact .inl rfl
  | _ => cases hvalue

theorem DocumentRow.Mirrored.fieldText {row : DocumentRow}
    (hmirrored : row.Mirrored) (jsonText : Json → Str) :
    row.current.fieldText jsonText nameField.text = some row.name ∨
      row.current.fieldText jsonText nameField.text = none ∧ row.name = [] := by
  simp only [DocumentRow.Mirrored, Json.names, DocumentRow.names,
    Option.bind_eq_bind, Option.bind_eq_some_iff, Option.pure_def,
    Option.some.injEq, Prod.mk.injEq] at hmirrored
  obtain ⟨own, hown, related, _, hname, _⟩ := hmirrored
  exact fieldText_of_valueString jsonText (hname ▸ hown)

theorem collectRows_eq_search {jsonText : Json → Str} {table : DocumentTable}
    (hrows : ∀ row ∈ table.rows,
      row.Mirrored ∧ NameGiven jsonText row.type row.current)
    (type name : QueryText) (htype : type.text ≠ []) :
    collectRows table type name = searchRows jsonText table type name := by
  unfold collectRows searchRows
  apply List.filter_congr
  intro row hrow
  obtain ⟨hmirrored, hgiven⟩ := hrows row hrow
  rw [decide_eq_decide, MatchesField, SelectsType, or_iff_right htype,
    and_comm]
  refine and_congr_left fun hsame => ?_
  have hsome := hgiven type hsame.symm (hsame ▸ htype)
  rw [(hmirrored.fieldText jsonText).resolve_right fun h => hsome h.1,
    Option.some.injEq]

/-- A row whose document has no name is found by `collect` only. -/
theorem nameGiven_of_eq_search {jsonText : Json → Str} {table : DocumentTable}
    {row : DocumentRow} (hrow : row ∈ table.rows) (hmirrored : row.Mirrored)
    (hqueries : ∀ type name : QueryText, type.text ≠ [] →
      collectRows table type name = searchRows jsonText table type name) :
    NameGiven jsonText row.type row.current := by
  intro asked hasked htype hnone
  have hname : row.name = [] := by
    rcases hmirrored.fieldText jsonText with hsome | ⟨_, hname⟩
    · rw [hnone] at hsome
      cases hsome
    · exact hname
  let empty : QueryText := ⟨⟨[], by simp, by simp⟩, by simp⟩
  have hcollected : row ∈ collectRows table asked empty :=
    List.mem_filter.mpr ⟨hrow, decide_eq_true ⟨hasked.symm, hname⟩⟩
  rw [hqueries asked empty (hasked ▸ htype)] at hcollected
  have hmatches := of_decide_eq_true (List.mem_filter.mp hcollected).2
  rw [MatchesField, hnone] at hmatches
  cases hmatches.1

section Rows

variable {τ : Type*}

theorem mirrored_iff_row (jsonText : Json → Str) (documents : Documents τ) :
    documents.Mirrored jsonText ↔
      ∀ key row, documents.row key = some row →
        row.Mirrored ∧ NameGiven jsonText row.type row.current := by
  constructor
  · intro hmirrored key row hrow
    have hmem := ((Table.find_eq_some_iff _ _ _).mp hrow).1
    have hown := hmirrored.rows key.table row hmem
    exact ⟨hown, nameGiven_of_eq_search hmem hown
      (hmirrored.queries key.table)⟩
  · intro hrows
    have hmem : ∀ table, ∀ row ∈ (documents table).rows,
        row.Mirrored ∧ NameGiven jsonText row.type row.current := by
      intro table row hrow
      exact hrows ⟨table, row.id, row.type⟩ row
        ((Table.find_eq_some_iff _ _ _).mpr ⟨hrow, rfl⟩)
    exact ⟨fun table row hrow => (hmem table row hrow).1,
      fun table => collectRows_eq_search (hmem table)⟩

theorem row_type {documents : Documents τ} {key : DocumentKey τ}
    {row : DocumentRow} (hrow : documents.row key = some row) :
    row.type = key.type :=
  congrArg Prod.snd ((Table.find_eq_some_iff _ _ _).mp hrow).2

theorem SaveCall.row_names {call : SaveCall τ} {row : DocumentRow}
    (hrow : call.row = some row) : call.doc.names = some row.names := by
  simp only [SaveCall.row, Option.bind_eq_bind, Option.bind_eq_some_iff,
    Option.pure_def, Option.some.injEq] at hrow
  obtain ⟨id, _, name, hname, type, _, related, hrelated, rfl⟩ := hrow
  unfold Json.names
  rw [hname]
  simp only [Option.bind_eq_bind, Option.bind_some, hrelated]
  rfl

variable [DecidableEq τ]

/-- A save that finds a row leaves its names, and one that finds none takes
those of the document. -/
theorem saveDocument_names {documents next : Documents τ}
    {call : SaveCall τ} {own : DocumentKey τ}
    (hsave : saveDocument documents call = some next)
    (hown : call.key = some own) :
    (next.row own).map DocumentRow.names =
      ((documents.row own).map DocumentRow.names).or call.doc.names := by
  obtain ⟨row, hrow, rfl⟩ := Option.map_eq_some_iff.mp hsave
  have hkey : own = ⟨call.table, row.id, row.type⟩ := by
    rw [SaveCall.key, hrow] at hown
    exact (Option.some.inj hown).symm
  have hfind := Table.find_upsert (documents call.table) row onConflictUpdate
    (fun old => onConflictUpdate_key old row) row.key
  rw [if_pos rfl] at hfind
  subst hkey
  rw [SaveCall.row_names hrow]
  unfold Documents.row
  rw [Function.update_self]
  rw [show (row.id, row.type) = row.key from rfl, hfind]
  cases (documents call.table).find row.key with
  | none => rfl
  | some old => rfl

theorem row_eq_start {start final : Documents τ} {calls : List (SaveCall τ)}
    (hrun : (documentSaves τ).run start calls = some final)
    {key : DocumentKey τ} (hdocs : docsFor calls key = []) :
    final.row key = start.row key := by
  induction calls using List.reverseRecOn generalizing final with
  | nil =>
      have heq : start = final := by simpa using hrun
      rw [heq]
  | append_singleton calls call ih =>
      obtain ⟨before, hbefore, hstep⟩ := Machine.run_concat_eq_some.mp hrun
      obtain ⟨own, hown, _, hothers⟩ := saveDocument_row hstep
      rw [docsFor_concat, List.append_eq_nil_iff] at hdocs
      have hne : key ≠ own := by
        intro heq
        rw [heq, if_pos hown] at hdocs
        exact absurd hdocs.2 (by simp)
      rw [hothers key hne]
      exact ih hbefore hdocs.1

theorem row_of_docsFor {start final : Documents τ}
    {calls : List (SaveCall τ)} {key : DocumentKey τ}
    (hrun : (documentSaves τ).run start calls = some final)
    (hdocs : docsFor calls key ≠ []) : ∃ row, final.row key = some row := by
  obtain ⟨earlier, last, hconcat⟩ :=
    (List.eq_nil_or_concat (docsFor calls key)).resolve_left hdocs
  rw [List.concat_eq_append] at hconcat
  obtain ⟨row, hrow, _⟩ := documentSaves_row hrun key earlier last hconcat
  exact ⟨row, hrow⟩

theorem final_names {start final : Documents τ} {calls : List (SaveCall τ)}
    (hrun : (documentSaves τ).run start calls = some final)
    (key : DocumentKey τ) :
    (final.row key).map DocumentRow.names = firstNames start calls key := by
  induction calls using List.reverseRecOn generalizing final with
  | nil =>
      have heq : start = final := by simpa using hrun
      subst heq
      unfold firstNames
      cases start.row key with
      | none => rfl
      | some row => rfl
  | append_singleton calls call ih =>
      obtain ⟨before, hbefore, hstep⟩ := Machine.run_concat_eq_some.mp hrun
      obtain ⟨own, hown, _, hothers⟩ := saveDocument_row hstep
      have hfirst := ih hbefore
      by_cases hkey : key = own
      · subst hkey
        rw [saveDocument_names hstep hown, hfirst]
        unfold firstNames
        rw [docsFor_concat, if_pos hown]
        cases hrow : start.row key with
        | some row => rfl
        | none =>
            rw [firstNames, hrow] at hfirst
            cases hdocs : docsFor calls key with
            | nil => rfl
            | cons doc docs =>
                obtain ⟨row, hsome⟩ := row_of_docsFor hbefore
                  (hdocs.trans_ne (List.cons_ne_nil doc docs))
                rw [hsome, hdocs] at hfirst
                have hdoc : some row.names = doc.names := hfirst
                simp [← hdoc]
      · have hother : call.key ≠ some key := by
          rw [hown]
          intro heq
          exact hkey (Option.some.inj heq).symm
        rw [hothers key hkey, hfirst]
        unfold firstNames
        rw [docsFor_concat, if_neg hother, List.append_nil]

end Rows

def namedDroid (name : Str) : SaveCall Unit where
  table := ()
  doc := Json.ofMembers [
    ("id".toList, .string "4-LOM".toList),
    ("type".toList, .string "Droid".toList),
    ("name".toList, .string name)]
  now := 0

theorem mirrored_empty (jsonText : Json → Str) :
    Documents.Mirrored jsonText fun _ : Unit => Table.empty := by
  rw [mirrored_iff_row]
  intro key row hrow
  cases hrow

end StoreCpp
