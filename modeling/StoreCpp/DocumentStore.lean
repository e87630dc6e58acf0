import StoreCpp.JsonValue
import StoreCpp.KeyedTable
import StoreCpp.StepMachine

/-!
# Saving documents

A document table is keyed by `id` and `type`.  `save` inserts the document's
row without its `history` column, and on a conflict takes `current` and
`history` from the row that was to be inserted.  Which table a version and a
document type name is left to the type of table names; the values of the
statement are taken as the server reads them.
-/

namespace StoreCpp

open StepMachine KeyedTable

structure DocumentRow where
  id : Str
  name : Str
  ts : Int64
  type : Str
  related : Str
  current : Json
  history : Option Json

def DocumentRow.key (row : DocumentRow) : Str × Str := (row.id, row.type)

abbrev DocumentTable := Table DocumentRow.key

/-- One call of `save`: the table of its version and document type, the
document, and the server's time. -/
structure SaveCall (τ : Type*) where
  table : τ
  doc : Json
  now : Int64

/-- The row of the insert; a column that the insert does not list is null. -/
def SaveCall.row {τ : Type*} (call : SaveCall τ) : Option DocumentRow := do
  let id ← call.doc.valueString "id".toList []
  let name ← call.doc.valueString "name".toList []
  let type ← call.doc.valueString "type".toList []
  let related ← call.doc.valueString "related".toList []
  return {
    id, name, ts := call.now, type, related
    current := call.doc
    history := none }

/-- The `do update set` of the conflict clause. -/
def onConflictUpdate (old excluded : DocumentRow) : DocumentRow :=
  { old with
    ts := excluded.ts
    current := excluded.current
    history := excluded.history }

theorem onConflictUpdate_key (old excluded : DocumentRow) :
    (onConflictUpdate old excluded).key = old.key := rfl

abbrev Documents (τ : Type*) := τ → DocumentTable

def saveDocument {τ : Type*} [DecidableEq τ] (documents : Documents τ)
    (call : SaveCall τ) : Option (Documents τ) :=
  call.row.map fun row =>
    Function.update documents call.table
      ((documents call.table).upsert row onConflictUpdate
        fun old => onConflictUpdate_key old row)

def documentSaves (τ : Type*) [DecidableEq τ] :
    Machine (Documents τ) (SaveCall τ) where
  init _ := True
  step := saveDocument

/-! ## The contract of `IStore::Save` -/

structure DocumentKey (τ : Type*) where
  table : τ
  id : Str
  type : Str
  deriving DecidableEq

def SaveCall.key {τ : Type*} (call : SaveCall τ) : Option (DocumentKey τ) :=
  call.row.map fun row => ⟨call.table, row.id, row.type⟩

def docsFor {τ : Type*} [DecidableEq τ] (calls : List (SaveCall τ))
    (key : DocumentKey τ) : List Json :=
  (calls.filter fun call => call.key = some key).map SaveCall.doc

def Documents.row {τ : Type*} (documents : Documents τ)
    (key : DocumentKey τ) : Option DocumentRow :=
  (documents key.table).find (key.id, key.type)

inductive Json.Occurs (value : Json) : Json → Prop where
  | here : value.Occurs value
  | element (values : List Json) (element : Json) (hmem : element ∈ values)
      (hoccurs : value.Occurs element) : value.Occurs (.array values)
  | member (members : List (Str × Json)) (name : Str) (element : Json)
      (hmem : (name, element) ∈ members) (hoccurs : value.Occurs element) :
      value.Occurs (.object members)

def DocumentRow.Remembers (row : DocumentRow) (doc : Json) : Prop :=
  ∃ history, row.history = some history ∧ doc.Occurs history

/-- The row of every saved key has the last document saved for it in
`current` and every earlier one somewhere in `history`. -/
def KeepsEveryChange {τ : Type*} [DecidableEq τ] (calls : List (SaveCall τ))
    (documents : Documents τ) : Prop :=
  ∀ (key : DocumentKey τ) (earlier : List Json) (last : Json),
    docsFor calls key = earlier ++ [last] →
      ∃ row, documents.row key = some row ∧ row.current = last ∧
        ∀ doc ∈ earlier, row.Remembers doc

theorem docsFor_concat {τ : Type*} [DecidableEq τ] (calls : List (SaveCall τ))
    (call : SaveCall τ) (key : DocumentKey τ) :
    docsFor (calls ++ [call]) key =
      docsFor calls key ++ if call.key = some key then [call.doc] else [] := by
  unfold docsFor
  rw [List.filter_append, List.map_append]
  congr 1
  by_cases hkey : call.key = some key
  · simp [hkey]
  · simp [hkey]

theorem onConflictUpdate_getD {old : Option DocumentRow}
    {row : DocumentRow} :
    let merged := (old.map (onConflictUpdate · row)).getD row
    merged.current = row.current ∧ merged.history = row.history := by
  cases old <;> exact ⟨rfl, rfl⟩

theorem SaveCall.row_eq_some {τ : Type*} {call : SaveCall τ}
    {row : DocumentRow} (hrow : call.row = some row) :
    row.current = call.doc ∧ row.history = none := by
  simp only [SaveCall.row, Option.bind_eq_bind, Option.bind_eq_some_iff,
    Option.pure_def, Option.some.injEq] at hrow
  obtain ⟨id, _, name, _, type, _, related, _, rfl⟩ := hrow
  exact ⟨rfl, rfl⟩

/-- A save sets `current` and clears `history` in the row of its key, and
changes no other row. -/
theorem saveDocument_row {τ : Type*} [DecidableEq τ]
    {documents next : Documents τ} {call : SaveCall τ}
    (hsave : saveDocument documents call = some next) :
    ∃ own, call.key = some own ∧
      (∃ row, next.row own = some row ∧ row.current = call.doc ∧
        row.history = none) ∧
      ∀ key, key ≠ own → next.row key = documents.row key := by
  obtain ⟨row, hrow, rfl⟩ := Option.map_eq_some_iff.mp hsave
  have hcolumns := SaveCall.row_eq_some hrow
  have hfind := Table.find_upsert (documents call.table) row onConflictUpdate
    fun old => onConflictUpdate_key old row
  refine ⟨⟨call.table, row.id, row.type⟩, by simp [SaveCall.key, hrow], ?_, ?_⟩
  · obtain ⟨hcurrent, hhistory⟩ := @onConflictUpdate_getD
      ((documents call.table).find row.key) row
    refine ⟨_, ?_, hcurrent.trans hcolumns.1, hhistory.trans hcolumns.2⟩
    unfold Documents.row
    rw [Function.update_self]
    exact (hfind row.key).trans (if_pos rfl)
  · rintro ⟨table, id, type⟩ hne
    unfold Documents.row
    by_cases htable : table = call.table
    · subst table
      have hother : (id, type) ≠ row.key := by
        intro heq
        cases heq
        exact hne rfl
      rw [Function.update_self]
      exact (hfind (id, type)).trans (if_neg hother)
    · rw [Function.update_of_ne htable]

theorem documentSaves_row {τ : Type*} [DecidableEq τ]
    {start final : Documents τ} {calls : List (SaveCall τ)}
    (hrun : (documentSaves τ).run start calls = some final) :
    ∀ (key : DocumentKey τ) (earlier : List Json) (last : Json),
      docsFor calls key = earlier ++ [last] →
        ∃ row, final.row key = some row ∧ row.current = last ∧
          row.history = none := by
  induction calls using List.reverseRecOn generalizing final with
  | nil =>
      intro key earlier last hdocs
      simp [docsFor] at hdocs
  | append_singleton calls call ih =>
      intro key earlier last hdocs
      obtain ⟨before, hbefore, hstep⟩ := Machine.run_concat_eq_some.mp hrun
      obtain ⟨own, hown, hrow, hothers⟩ := saveDocument_row hstep
      rw [docsFor_concat] at hdocs
      by_cases hkey : key = own
      · subst key
        rw [if_pos hown] at hdocs
        have hlast : call.doc = last :=
          List.singleton_inj.mp (List.append_inj' hdocs rfl).2
        rw [← hlast]
        exact hrow
      · have hother : call.key ≠ some key := by
          rw [hown]
          intro heq
          exact hkey (Option.some.inj heq).symm
        rw [if_neg hother, List.append_nil] at hdocs
        rw [hothers key hkey]
        exact ih hbefore key earlier last hdocs

theorem documentSaves_key {τ : Type*} [DecidableEq τ]
    {start final : Documents τ} {calls : List (SaveCall τ)}
    (hrun : (documentSaves τ).run start calls = some final) :
    none ∉ calls.map SaveCall.key := by
  induction calls generalizing start with
  | nil => simp
  | cons call calls ih =>
      obtain ⟨next, hstep, hrest⟩ := Machine.run_cons_eq_some.mp hrun
      obtain ⟨own, hown, _⟩ := saveDocument_row hstep
      rw [List.map_cons, hown, List.mem_cons, not_or]
      exact ⟨by simp, ih hrest⟩

theorem docsFor_length {τ : Type*} [DecidableEq τ] (calls : List (SaveCall τ))
    (key : DocumentKey τ) :
    (docsFor calls key).length =
      (calls.map SaveCall.key).count (some key) := by
  unfold docsFor
  rw [List.length_map, ← List.countP_eq_length_filter, List.count,
    List.countP_map]
  apply List.countP_congr
  intro call _
  simp

theorem nodup_keys_iff {τ : Type*} [DecidableEq τ]
    {start final : Documents τ} {calls : List (SaveCall τ)}
    (hrun : (documentSaves τ).run start calls = some final) :
    (calls.map SaveCall.key).Nodup ↔
      ∀ key : DocumentKey τ, (docsFor calls key).length ≤ 1 := by
  rw [List.nodup_iff_count_le_one]
  constructor
  · intro hnodup key
    rw [docsFor_length]
    exact hnodup (some key)
  · intro hlength k
    cases k with
    | none =>
        rw [List.count_eq_zero_of_not_mem (documentSaves_key hrun)]
        omega
    | some key =>
        rw [← docsFor_length]
        exact hlength key

def droid (id model : Str) : SaveCall Unit where
  table := ()
  doc := Json.ofMembers [
    ("id".toList, .string id),
    ("type".toList, .string "Droid".toList),
    ("model".toList, .string model)]
  now := 0

end StoreCpp
