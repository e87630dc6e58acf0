import StoreCpp.PooledOperations

/-!
# What a list of documents contains

`list` parses every row in one loop and converts the documents in another,
both in one `try` block, and pushes the values to a vector that it declares
before the block.  `search`, `collect` and `one` return what `list` makes of
their query.
-/

namespace StoreCpp

open Printf ResourcePool

/-- What the `from_json` of a document type throws: an exception that a
handler of `list` catches, or one of another type. -/
inductive Raised where
  | caught (thrown : Thrown)
  | uncaught
  deriving DecidableEq

/-- How a call of `list` ends. -/
inductive Listed (υ : Type) where
  | returned (pocos : List υ)
  | raised
  deriving DecidableEq

/-- The values pushed to `pocos`, and the exception that ended the loop. -/
def convertDocuments {υ : Type} (fromJson : Json → Except Raised υ)
    (pocos : List υ) : List Json → List υ × Option Raised
  | [] => (pocos, none)
  | j :: jsons =>
      match fromJson j with
      | .ok o => convertDocuments fromJson (pocos ++ [o]) jsons
      | .error raised => (pocos, some raised)

section Listing

variable {σ κ ρ π υ : Type}

def Driver.parseRow (driver : Driver κ ρ π) (row : ρ) : Except Thrown Json := do
  driver.parse (stripSoh (← driver.asString row 0))

def PgClient.listRows (driver : Driver κ ρ π)
    (fromJson : Json → Except Raised υ) (resp : List ρ) : Listed υ :=
  match resp.mapM driver.parseRow with
  | .error _ => .returned []
  | .ok jsons =>
      match convertDocuments fromJson [] jsons with
      | (_, some .uncaught) => .raised
      | (pocos, _) => .returned pocos

/-- A call of `list`, or of one of the calls that end in it. -/
inductive ListCall where
  | list (offset limit : Int32) (sortKey sortDirection query : Str)
  | request (request : Request)

namespace ListCall

def sql (version : Str) (U : TypeName) : ListCall → Option Str
  | .list offset limit sortKey sortDirection query =>
      Client.list version U offset limit sortKey sortDirection query
  | .request call => (call.query version U).bind (call.executed version U)

/-- The call on a borrowed connection; `none` where formatting its statement
is undefined. -/
def perform (driver : Driver κ ρ π) (fromJson : Json → Except Raised υ)
    (conn : κ) (version : Str) (U : TypeName) (call : ListCall) :
    Option (Listed υ) :=
  (call.sql version U).map fun sql =>
    match driver.execute conn (cstr sql) [] with
    | .error _ => .returned []
    | .ok resp => PgClient.listRows driver fromJson resp

end ListCall

/-- The value of one row; `none` when the row fails to parse or convert. -/
def Driver.rowValue (driver : Driver κ ρ π)
    (fromJson : Json → Except Raised υ) (row : ρ) : Option υ :=
  match driver.parseRow row with
  | .ok j => (fromJson j).toOption
  | .error _ => none

/-- The call returns one value for each row in their order, which needs every
row to have one, or the empty collection. -/
def AllOrNothing (driver : Driver κ ρ π) (fromJson : Json → Except Raised υ)
    (resp : List ρ) (listed : Listed υ) : Prop :=
  listed = .returned [] ∨
    ∃ values, resp.mapM (driver.rowValue fromJson) = some values ∧
      listed = .returned values

/-- A row that fails does so before a value is pushed. -/
def FailsFirst (driver : Driver κ ρ π) (fromJson : Json → Except Raised υ)
    (resp : List ρ) : Prop :=
  (∃ row ∈ resp, ∃ thrown, driver.parseRow row = .error thrown) ∨
    (∀ row ∈ resp, ∃ value, driver.rowValue fromJson row = some value) ∨
    ∃ row ∈ resp.head?, ∃ j thrown, driver.parseRow row = .ok j ∧
      fromJson j = .error (.caught thrown)

/-! ## The loops -/

theorem mapM_toOption_cons {fromJson : Json → Except Raised υ} {j : Json}
    {jsons : List Json} {o : υ} {values : List υ} (hj : fromJson j = .ok o)
    (hvalues : jsons.mapM (fun j => (fromJson j).toOption) = some values) :
    (j :: jsons).mapM (fun j => (fromJson j).toOption) =
      some (o :: values) := by
  rw [List.mapM_cons, hj, hvalues]
  rfl

theorem convertDocuments_cases (fromJson : Json → Except Raised υ)
    (pocos : List υ) (jsons : List Json) :
    (∃ values, jsons.mapM (fun j => (fromJson j).toOption) = some values ∧
      convertDocuments fromJson pocos jsons = (pocos ++ values, none)) ∨
    ∃ before j after values raised, jsons = before ++ j :: after ∧
      before.mapM (fun j => (fromJson j).toOption) = some values ∧
      fromJson j = .error raised ∧
      convertDocuments fromJson pocos jsons =
        (pocos ++ values, some raised) := by
  induction jsons generalizing pocos with
  | nil => exact Or.inl ⟨[], rfl, by simp [convertDocuments]⟩
  | cons j jsons ih =>
      rw [convertDocuments]
      cases hj : fromJson j with
      | error raised =>
          exact Or.inr ⟨[], j, jsons, [], raised, rfl, rfl, hj, by simp⟩
      | ok o =>
          rcases ih (pocos ++ [o]) with
            ⟨values, hvalues, hloop⟩ |
            ⟨before, k, after, values, raised, rfl, hvalues, hk, hloop⟩
          · exact Or.inl ⟨o :: values, mapM_toOption_cons hj hvalues,
              by simp [hloop]⟩
          · exact Or.inr ⟨j :: before, k, after, o :: values, raised, rfl,
              mapM_toOption_cons hj hvalues, hk, by simp [hloop]⟩

theorem forall₂_of_mapM_ok {α β ε : Type} {f : α → Except ε β} {xs : List α}
    {ys : List β} (hmap : xs.mapM f = .ok ys) :
    List.Forall₂ (fun x y => f x = .ok y) xs ys := by
  induction xs generalizing ys with
  | nil =>
      cases hmap
      exact List.Forall₂.nil
  | cons x xs ih =>
      rw [List.mapM_cons] at hmap
      cases hx : f x with
      | error thrown =>
          rw [hx] at hmap
          cases hmap
      | ok y =>
          cases hrest : xs.mapM f with
          | error thrown =>
              rw [hx, hrest] at hmap
              cases hmap
          | ok rest =>
              rw [hx, hrest] at hmap
              cases hmap
              exact List.Forall₂.cons hx (ih hrest)

theorem exists_error_of_mapM {α β ε : Type} {f : α → Except ε β}
    {xs : List α} {thrown : ε} (hmap : xs.mapM f = .error thrown) :
    ∃ x ∈ xs, f x = .error thrown := by
  induction xs with
  | nil => cases hmap
  | cons x xs ih =>
      rw [List.mapM_cons] at hmap
      cases hx : f x with
      | error raised =>
          rw [hx] at hmap
          cases hmap
          exact ⟨x, List.mem_cons_self, hx⟩
      | ok y =>
          cases hrest : xs.mapM f with
          | error raised =>
              rw [hx, hrest] at hmap
              cases hmap
              obtain ⟨other, hother, herror⟩ := ih hrest
              exact ⟨other, List.mem_cons_of_mem x hother, herror⟩
          | ok rest =>
              rw [hx, hrest] at hmap
              cases hmap

theorem exists_row_of_mem {driver : Driver κ ρ π} {resp : List ρ}
    {jsons : List Json} {j : Json}
    (hparse : List.Forall₂ (fun row j => driver.parseRow row = .ok j)
      resp jsons) (hj : j ∈ jsons) :
    ∃ row ∈ resp, driver.parseRow row = .ok j := by
  induction hparse with
  | nil => cases hj
  | @cons row other resp jsons hrow _ ih =>
      rcases List.mem_cons.mp hj with rfl | hj
      · exact ⟨row, List.mem_cons_self, hrow⟩
      · obtain ⟨found, hfound, hvalue⟩ := ih hj
        exact ⟨found, List.mem_cons_of_mem _ hfound, hvalue⟩

theorem exists_parsed_of_mem {driver : Driver κ ρ π} {resp : List ρ}
    {jsons : List Json} {row : ρ}
    (hparse : List.Forall₂ (fun row j => driver.parseRow row = .ok j)
      resp jsons) (hrow : row ∈ resp) :
    ∃ j ∈ jsons, driver.parseRow row = .ok j := by
  induction hparse with
  | nil => cases hrow
  | @cons other j resp jsons hother _ ih =>
      rcases List.mem_cons.mp hrow with rfl | hrow
      · exact ⟨j, List.mem_cons_self, hother⟩
      · obtain ⟨found, hfound, hvalue⟩ := ih hrow
        exact ⟨found, List.mem_cons_of_mem _ hfound, hvalue⟩

theorem mapM_rowValue_eq {driver : Driver κ ρ π}
    {fromJson : Json → Except Raised υ} {resp : List ρ} {jsons : List Json}
    (hparse : List.Forall₂ (fun row j => driver.parseRow row = .ok j)
      resp jsons) :
    resp.mapM (driver.rowValue fromJson) =
      jsons.mapM fun j => (fromJson j).toOption := by
  induction hparse with
  | nil => rfl
  | cons hrow _ ih =>
      rw [List.mapM_cons, List.mapM_cons, ih, Driver.rowValue, hrow]

theorem exists_row_of_mapM_rowValue {driver : Driver κ ρ π}
    {fromJson : Json → Except Raised υ} {resp : List ρ} {values : List υ}
    (hvalues : resp.mapM (driver.rowValue fromJson) = some values) :
    ∀ row ∈ resp, ∃ value, driver.rowValue fromJson row = some value := by
  intro row hrow
  induction resp generalizing values with
  | nil => cases hrow
  | cons other resp ih =>
      rw [List.mapM_cons] at hvalues
      obtain ⟨value, hvalue, hrest⟩ := Option.bind_eq_some_iff.mp hvalues
      obtain ⟨rest, htail, _⟩ := Option.bind_eq_some_iff.mp hrest
      rcases List.mem_cons.mp hrow with rfl | hrow
      · exact ⟨value, hvalue⟩
      · exact ih htail hrow

theorem rowValue_eq_none {driver : Driver κ ρ π}
    {fromJson : Json → Except Raised υ} {row : ρ} {j : Json} {raised : Raised}
    (hrow : driver.parseRow row = .ok j) (hj : fromJson j = .error raised) :
    driver.rowValue fromJson row = none := by
  rw [Driver.rowValue, hrow]
  dsimp only
  rw [hj]
  rfl

/-- The first document is that of the first row. -/
theorem head_parsed {driver : Driver κ ρ π} {resp : List ρ}
    {first : Json} {rest : List Json}
    (hparse : List.Forall₂ (fun row j => driver.parseRow row = .ok j)
      resp (first :: rest)) :
    ∃ row ∈ resp.head?, driver.parseRow row = .ok first := by
  cases hparse with
  | cons hfirst _ => exact ⟨_, rfl, hfirst⟩

theorem mapM_toOption_head {fromJson : Json → Except Raised υ} {first : Json}
    {rest : List Json} {values : List υ}
    (hvalues : (first :: rest).mapM (fun j => (fromJson j).toOption) =
      some values) :
    values ≠ [] ∧ ∃ o, fromJson first = .ok o := by
  rw [List.mapM_cons] at hvalues
  obtain ⟨o, ho, hrest⟩ := Option.bind_eq_some_iff.mp hvalues
  obtain ⟨others, _, heq⟩ := Option.bind_eq_some_iff.mp hrest
  cases heq
  refine ⟨List.cons_ne_nil _ _, ?_⟩
  cases hfirst : fromJson first with
  | ok value => exact ⟨value, rfl⟩
  | error raised =>
      rw [hfirst] at ho
      cases ho

/-- After every row has been parsed, a failing conversion keeps the call from
a complete or empty result, unless it is the first and is caught. -/
theorem failsFirst_iff_of_parsed {driver : Driver κ ρ π}
    {fromJson : Json → Except Raised υ} {resp : List ρ} {before after : List Json}
    {j : Json} {values : List υ} {raised : Raised}
    (hparse : List.Forall₂ (fun row j => driver.parseRow row = .ok j)
      resp (before ++ j :: after))
    (hvalues : before.mapM (fun j => (fromJson j).toOption) = some values)
    (hj : fromJson j = .error raised) :
    FailsFirst driver fromJson resp ↔ before = [] ∧ raised ≠ .uncaught := by
  have hjmem : j ∈ before ++ j :: after := by simp
  obtain ⟨bad, hbad, hbadRow⟩ := exists_row_of_mem hparse hjmem
  have hbadValue := rowValue_eq_none hbadRow hj
  constructor
  · intro hfails
    rcases hfails with ⟨row, hrow, thrown, hthrown⟩ | hall |
      ⟨row, hhead, k, thrown, hk, hthrown⟩
    · obtain ⟨k, _, hk⟩ := exists_parsed_of_mem hparse hrow
      rw [hthrown] at hk
      cases hk
    · obtain ⟨value, hvalue⟩ := hall bad hbad
      rw [hbadValue] at hvalue
      cases hvalue
    · cases before with
      | nil =>
          obtain ⟨other, hother, hparsed⟩ := head_parsed hparse
          have heq : row = other := Option.some.inj (hhead.symm.trans hother)
          rw [heq, hparsed] at hk
          cases hk
          rw [hthrown] at hj
          cases hj
          exact ⟨rfl, by simp⟩
      | cons first before =>
          obtain ⟨other, hother, hparsed⟩ := head_parsed hparse
          have heq : row = other := Option.some.inj (hhead.symm.trans hother)
          obtain ⟨_, o, ho⟩ := mapM_toOption_head hvalues
          rw [heq, hparsed] at hk
          cases hk
          rw [ho] at hthrown
          cases hthrown
  · intro ⟨hnil, hcaught⟩
    rw [hnil] at hparse
    obtain ⟨row, hhead, hrow⟩ := head_parsed hparse
    cases raised with
    | uncaught => exact absurd rfl hcaught
    | caught thrown => exact Or.inr (Or.inr ⟨row, hhead, j, thrown, hrow, hj⟩)

theorem mapM_rowValue_ne_some {driver : Driver κ ρ π}
    {fromJson : Json → Except Raised υ} {resp : List ρ} {jsons : List Json}
    {j : Json} {raised : Raised}
    (hparse : List.Forall₂ (fun row j => driver.parseRow row = .ok j)
      resp jsons) (hmem : j ∈ jsons) (hj : fromJson j = .error raised)
    (all : List υ) : resp.mapM (driver.rowValue fromJson) ≠ some all := by
  intro hall
  obtain ⟨row, hrow, hparsed⟩ := exists_row_of_mem hparse hmem
  obtain ⟨value, hvalue⟩ := exists_row_of_mapM_rowValue hall row hrow
  rw [rowValue_eq_none hparsed hj] at hvalue
  cases hvalue

/-- The values that were pushed before a failing conversion. -/
theorem allOrNothing_pushed_iff {driver : Driver κ ρ π}
    {fromJson : Json → Except Raised υ} {resp : List ρ} {before : List Json}
    {values : List υ}
    (hbefore : before.mapM (fun j => (fromJson j).toOption) = some values)
    (hnone : ∀ all, resp.mapM (driver.rowValue fromJson) ≠ some all) :
    AllOrNothing driver fromJson resp (.returned values) ↔ before = [] := by
  constructor
  · intro hlisted
    cases hlisted with
    | inl hnil =>
        have hvaluesNil : values = [] := Listed.returned.inj hnil
        cases before with
        | nil => rfl
        | cons first rest =>
            exact absurd hvaluesNil (mapM_toOption_head hbefore).1
    | inr hall =>
        obtain ⟨all, hall, _⟩ := hall
        exact absurd hall (hnone all)
  · intro hnil
    rw [hnil] at hbefore
    cases hbefore
    exact Or.inl rfl

/-- What `list` returns of a query result is complete or empty exactly when no
row fails after a value has been pushed. -/
theorem allOrNothing_listRows_iff (driver : Driver κ ρ π)
    (fromJson : Json → Except Raised υ) (resp : List ρ) :
    AllOrNothing driver fromJson resp
        (PgClient.listRows driver fromJson resp) ↔
      FailsFirst driver fromJson resp := by
  unfold PgClient.listRows
  cases hparse : resp.mapM driver.parseRow with
  | error thrown =>
      obtain ⟨row, hmem, hrow⟩ := exists_error_of_mapM hparse
      exact iff_of_true (Or.inl rfl) (Or.inl ⟨row, hmem, thrown, hrow⟩)
  | ok jsons =>
      have hrows := forall₂_of_mapM_ok hparse
      have hvalues := @mapM_rowValue_eq _ _ _ _ _ fromJson _ _ hrows
      dsimp only
      rcases convertDocuments_cases fromJson [] jsons with
        ⟨values, hall, hloop⟩ |
        ⟨before, j, after, values, raised, rfl, hbefore, hj, hloop⟩
      · rw [← hvalues] at hall
        rw [hloop]
        exact iff_of_true (Or.inr ⟨values, hall, rfl⟩)
          (Or.inr (Or.inl (exists_row_of_mapM_rowValue hall)))
      · have hnone := mapM_rowValue_ne_some hrows
          (List.mem_append_right before List.mem_cons_self) hj
        rw [hloop, failsFirst_iff_of_parsed hrows hbefore hj, List.nil_append]
        cases raised with
        | uncaught =>
            apply iff_of_false _ fun h => h.2 rfl
            intro hlisted
            cases hlisted with
            | inl hnil => cases hnil
            | inr hall =>
                obtain ⟨all, hall, _⟩ := hall
                exact hnone all hall
        | caught thrown =>
            have hpushed := allOrNothing_pushed_iff hbefore hnone
            simpa using hpushed

/-! ## The calls -/

/-- A document type that throws only what the handlers catch. -/
def catching (fromJson : Json → Except Thrown υ) (j : Json) :
    Except Raised υ :=
  (fromJson j).mapError Raised.caught

theorem convertDocuments_catching (fromJson : Json → Except Thrown υ)
    (pocos : List υ) (jsons : List Json) :
    convertDocuments (catching fromJson) pocos jsons =
      (pocos ++ (convertRows fromJson jsons).1,
        (convertRows fromJson jsons).2.map Raised.caught) := by
  induction jsons generalizing pocos with
  | nil => simp [convertDocuments, convertRows]
  | cons j jsons ih =>
      rw [convertDocuments, convertRows, catching]
      cases hj : fromJson j with
      | error thrown => simp [Except.mapError]
      | ok o => simp [Except.mapError, ih]

theorem PgClient.fetch_eq {pool : ClientPool σ κ} {driver : Driver κ ρ π}
    {state held : Traced σ κ} {conn : κ}
    (htake : pool.take state = .ok (conn, held))
    (fromJson : Json → Except Thrown υ) (sql : Option Str) :
    (PgClient.fetch pool driver fromJson sql state).map
        (fun left => Listed.returned left.1) =
      sql.map fun sql =>
        match driver.execute conn (cstr sql) [] with
        | .error _ => .returned []
        | .ok resp => PgClient.listRows driver (catching fromJson) resp := by
  unfold PgClient.fetch Pool.borrowing
  rw [htake]
  cases sql with
  | none => rfl
  | some sql =>
      simp only [Option.map_some, Option.some.injEq]
      cases hexecute : driver.execute conn (cstr sql) [] with
      | error thrown => rfl
      | ok resp =>
          unfold PgClient.listRows Driver.parseRow
          dsimp only
          cases hparse : resp.mapM (fun row => do
              driver.parse (stripSoh (← driver.asString row 0))) with
          | error thrown => rfl
          | ok jsons =>
              dsimp only
              rw [convertDocuments_catching, List.nil_append]
              cases (convertRows fromJson jsons).2 <;> rfl

/-- On the connection that they borrow, the operations of the client return
what `perform` describes. -/
theorem PgClient.list_eq_perform {pool : ClientPool σ κ}
    {driver : Driver κ ρ π} {state held : Traced σ κ} {conn : κ}
    (htake : pool.take state = .ok (conn, held))
    (fromJson : Json → Except Thrown υ) (version : Str) (U : TypeName)
    (offset limit : Int32) (sortKey sortDirection query : Str) :
    (PgClient.list pool driver fromJson version U offset limit sortKey
        sortDirection query state).map
        (fun left => Listed.returned left.1) =
      (ListCall.list offset limit sortKey sortDirection query).perform driver
        (catching fromJson) conn version U :=
  PgClient.fetch_eq htake fromJson _

theorem PgClient.request_eq_perform {pool : ClientPool σ κ}
    {driver : Driver κ ρ π} {state held : Traced σ κ} {conn : κ}
    (htake : pool.take state = .ok (conn, held))
    (fromJson : Json → Except Thrown υ) (version : Str) (A : TypeName)
    (call : Request) :
    (PgClient.request pool driver fromJson version A call state).map
        (fun left => Listed.returned left.1) =
      (ListCall.request call).perform driver (catching fromJson) conn version
        A := by
  have hsql : (ListCall.request call).sql version A =
      (call.query version A).bind (call.executed version A) := rfl
  rw [PgClient.request, ListCall.perform, hsql]
  cases call.query version A with
  | none => rfl
  | some query => exact PgClient.fetch_eq htake fromJson _

theorem ListCall.perform_allOrNothing_iff (driver : Driver κ ρ π)
    (fromJson : Json → Except Raised υ) (conn : κ) (version : Str)
    (U : TypeName) (call : ListCall) {sql : Str} {resp : List ρ}
    (hsql : call.sql version U = some sql)
    (hresp : driver.execute conn (cstr sql) [] = .ok resp) :
    (∃ listed, call.perform driver fromJson conn version U = some listed ∧
        AllOrNothing driver fromJson resp listed) ↔
      FailsFirst driver fromJson resp := by
  have hperform : call.perform driver fromJson conn version U =
      some (PgClient.listRows driver fromJson resp) := by
    rw [ListCall.perform, hsql, Option.map_some, hresp]
  rw [← allOrNothing_listRows_iff, hperform]
  simp

end Listing

def namedDroidRow : Str := "\x7b\"name\":\"Zuckuss\"\x7d".toList

def namelessDroidRow : Str := "\x7b\x7d".toList

/-- A connection on which every query has two rows, one without a name. -/
def droidDriver : Driver Unit Str Unit where
  execute _ _ _ := .ok [namedDroidRow, namelessDroidRow]
  asInt64 _ _ := .error .otherException
  asString row _ := .ok row
  asTimestamp _ _ := .error .otherException
  parse text :=
    if text = namedDroidRow then
      .ok (.object [("name".toList, .string "Zuckuss".toList)])
    else if text = namelessDroidRow then .ok (.object [])
    else .error .otherException

/-- `j.at("name").get<string>()`. -/
def nameOfDroid (j : Json) : Except Raised Str :=
  match (j.valueJson "name".toList .null).bind Json.getString with
  | some name => .ok name
  | none => .error (.caught .otherException)

/-- `j.at("ts").get<string>()`, which no row has. -/
def timeOfDroid (j : Json) : Except Raised Str :=
  match (j.valueJson "ts".toList .null).bind Json.getString with
  | some ts => .ok ts
  | none => .error (.caught .otherException)

def listDroids : ListCall :=
  .list 0 10 "id".toList "Asc".toList
    ("select current from %s.%s order by current->>'%s' %s ".toList ++
      "offset %d limit %d".toList)

theorem listDroids_sql :
    ∃ sql, listDroids.sql "master".toList droidType = some sql := by
  have hsome : (listDroids.sql "master".toList droidType).isSome = true := by
    decide +kernel
  exact Option.isSome_iff_exists.mp hsome

theorem listDroids_allOrNothing :
    ∃ listed, listDroids.perform droidDriver timeOfDroid () "master".toList
        droidType = some listed ∧
      AllOrNothing droidDriver timeOfDroid [namedDroidRow, namelessDroidRow]
        listed := by
  obtain ⟨sql, hsql⟩ := listDroids_sql
  apply (ListCall.perform_allOrNothing_iff droidDriver timeOfDroid () _ _ _
    hsql rfl).mpr
  exact Or.inr (Or.inr ⟨_, rfl, _, _, rfl, rfl⟩)

/-- The second row fails after the value of the first has been pushed. -/
theorem listDroids_partial :
    ¬ ∀ (driver : Driver Unit Str Unit) (fromJson : Json → Except Raised Str)
        (call : ListCall) (sql : Str) (resp : List Str),
      call.sql "master".toList droidType = some sql →
      driver.execute () (cstr sql) [] = .ok resp →
        ∃ listed, call.perform driver fromJson () "master".toList droidType =
          some listed ∧ AllOrNothing driver fromJson resp listed := by
  intro hclaim
  obtain ⟨sql, hsql⟩ := listDroids_sql
  obtain ⟨listed, hperform, hlisted⟩ :=
    hclaim droidDriver nameOfDroid listDroids sql _ hsql rfl
  have hreturned : PgClient.listRows droidDriver nameOfDroid
      [namedDroidRow, namelessDroidRow] = .returned ["Zuckuss".toList] := by
    decide +kernel
  have hvalues : [namedDroidRow, namelessDroidRow].mapM
      (droidDriver.rowValue nameOfDroid) = none := by
    decide +kernel
  have heq : PgClient.listRows droidDriver nameOfDroid
      [namedDroidRow, namelessDroidRow] = listed := by
    rw [ListCall.perform, hsql] at hperform
    exact Option.some.inj hperform
  rw [← heq, hreturned] at hlisted
  rcases hlisted with hnil | ⟨values, hsome, _⟩
  · cases hnil
  · rw [hvalues] at hsome
    cases hsome

end StoreCpp
