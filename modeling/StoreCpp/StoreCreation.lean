import StoreCpp.InsertedValues
import StoreCpp.QuotedStatements
import StoreCpp.SqlCatalog

/-!
# Creating a store

`createStore` quotes the names of the schema and of the table where it creates
the table, and nowhere else: the indexes and all other statements of the
client name them as plain words.
-/

namespace StoreCpp

open Printf SqlCatalog

/-! ## The statements -/

/-- The columns of the table, up to the name of the tablespace. -/
def tableBody : Str :=
  "\" (".toList ++
  "\n              id varchar(120),".toList ++
  "\n              name character varying(500),".toList ++
  "\n              ts timestamp with time zone default current_timestamp,".toList ++
  "\n              type varchar(250),".toList ++
  "\n              related varchar(120),".toList ++
  "\n              current jsonb,".toList ++
  "\n              history jsonb,".toList ++
  "\n              primary key(id, type)".toList ++
  "\n            ) tablespace ".toList

def createTableSql : Str :=
  "\n            create table if not exists \"%s\".\"%s".toList ++ tableBody ++
  "%s;                \n          ".toList

def createIndexSql : Str := "create index if not exists %s_%s_idx on %s.%s ".toList

def indxs : List Str :=
  ["name", "ts", "type", "related", "current", "history"].map String.toList

/-- What follows the name of the table: `regex_match` takes the whole name. -/
def indexMethod (name : Str) : Str :=
  if name = "current".toList ∨ name = "history".toList then
    "using gin(".toList ++ name ++ " jsonb_ops) tablespace ".toList
  else "using btree(".toList ++ name ++ ") tablespace ".toList

/-- The function that `std::accumulate` folds the names with. -/
def appendIndex (tableSchema tableName indexTablespace m name : Str) :
    Option Str := do
  let ret ← stringFormat createIndexSql [
    .str tableName,
    .str name,
    .str tableSchema,
    .str tableName]
  some (m ++ ret ++ indexMethod name ++ indexTablespace ++ ";".toList)

def createIndexes (tableSchema tableName indexTablespace : Str) : Option Str :=
  indxs.foldlM (appendIndex tableSchema tableName indexTablespace) []

namespace PgClient

/-- `save(sql)` on a connection that holds; a text that the server refuses
comes back as its message. -/
def saveOn (message : Str → Str) (sql : Str) (catalog : Catalog) :
    Str × Catalog :=
  match execute catalog (cstr sql) with
  | some next => ("Succeeded".toList, next)
  | none => (message (cstr sql), catalog)

def createStore (message : Str → Str) (A : TypeName) (tableSchema : Str)
    (useSchemaTablespace : Bool) (catalog : Catalog) :
    Option (Str × Catalog) := do
  let tableName := resolveTypeToString A
  let tablespaceName :=
    if useSchemaTablespace then tableSchema else "pg_default".toList
  let indexTablespace :=
    if useSchemaTablespace then tableSchema ++ "_idx".toList
    else "pg_default".toList
  let createTable ← stringFormat createTableSql [
    .str tableSchema,
    .str tableName,
    .str tablespaceName]
  let createIndexes ← createIndexes tableSchema tableName indexTablespace
  let created := saveOn message createTable catalog
  let indexed := saveOn message createIndexes created.2
  some (created.1 ++ ";".toList ++ indexed.1, indexed.2)

end PgClient

/-! ## What the client executes on a store -/

def listQuery : Str :=
  "select current from %s.%s order by current->>'%s' %s offset %d limit %d".toList

inductive StoreStatement where
  | save (j : Json)
  | insertOne (fields : List Str) (params : List Param)
  | list (offset limit : Int32) (sortKey sortDirection : Str)
  | query (request : Request)
  | count (type search : Str)

def StoreStatement.sql (dump : Json → Str) (version : Str) (A : TypeName) :
    StoreStatement → Option Str
  | save j => saveStatement dump version A j
  | insertOne fields params =>
      PgClient.insertOneStatement version A fields params
  | list offset limit sortKey sortDirection =>
      Client.list version A offset limit sortKey sortDirection listQuery
  | query request =>
      (request.query version A).bind (request.executed version A)
  | count type search => PgClient.countQuery version A type search

def statementWords : List (List Token) := [
  [.word "insert".toList, .word "into".toList],
  [.word "select".toList, .word "current".toList, .word "from".toList],
  [.word "select".toList, .word "count".toList, .symbol '(',
    .word "1".toList, .symbol ')', .word "result".toList,
    .word "from".toList]]

/-- The table that an insert or a select is about. -/
def addressed (sql : Str) : Option Place :=
  statementWords.findSome? fun words =>
    ((scan (cstr sql)).dropPrefix? words).bind fun rest =>
      (readPlace rest).map Prod.fst

/-! ## Names as the statements write them -/

def tableName (A : TypeName) : Str := cstr (resolveTypeToString A)

def lower (text : Str) : Str := text.map Char.toLower

structure Identifier (text : Str) : Prop where
  starts : startsName text
  part : ∀ c ∈ text, isPart c

namespace Identifier

variable {text : Str}

instance : Decidable (Identifier text) :=
  decidable_of_iff (startsName text ∧ text.all isPart)
    ⟨fun ⟨hstarts, hpart⟩ => ⟨hstarts, List.all_eq_true.mp hpart⟩,
      fun ⟨hstarts, hpart⟩ => ⟨hstarts, List.all_eq_true.mpr hpart⟩⟩

theorem ne_nil (hname : Identifier text) : text ≠ [] := by
  rintro rfl
  exact absurd hname.starts (by decide)

theorem notMem (hname : Identifier text) {c : Char} (hc : isPart c = false) :
    c ∉ text := fun hmem => by
  rw [hname.part c hmem] at hc
  cases hc

theorem cstr_eq (hname : Identifier text) : cstr text = text :=
  cstr_eq_self (hname.notMem (by decide))

end Identifier

/-- Where a statement of the client stands up to the name of its table. -/
def openings : List Str := [
  "\n              insert into ".toList,
  "insert into ".toList,
  "select current from ".toList,
  "select count(1) result from ".toList]

theorem openings_words : ∀ opening ∈ openings, ∃ words ∈ statementWords,
    run .between opening = (words, .between) := by
  decide +kernel

theorem openings_plain : ∀ opening ∈ openings,
    '%' ∉ opening ∧ '\x00' ∉ opening := by
  decide +kernel

def tableHead (opening version : Str) (A : TypeName) : Str :=
  opening ++ (version ++ '.' :: (tableName A ++ [' ']))

def Opens (version : Str) (A : TypeName) (sql : Str) : Prop :=
  ∃ opening ∈ openings, ∃ tail, sql = tableHead opening version A ++ tail

theorem scan_dot (rest : Str) : scan ('.' :: rest) = .symbol '.' :: scan rest :=
  @scan_append_of_run ['.'] [.symbol '.'] (by decide) rest

theorem scan_tableHead {opening version : Str} {A : TypeName}
    (hversion : Identifier version) (hname : Identifier (tableName A))
    {words : List Token} (hrun : run .between opening = (words, .between))
    (tail : Str) :
    scan (tableHead opening version A ++ tail) =
      words ++ .word (lower version) :: .symbol '.' ::
        .word (lower (tableName A)) :: scan (' ' :: tail) := by
  have htext : tableHead opening version A ++ tail =
      opening ++ (version ++ '.' :: (tableName A ++ ' ' :: tail)) := by
    simp [tableHead]
  rw [htext, scan_append_of_run hrun, scan_word_append hversion.part
    hversion.ne_nil (by decide), scan_dot,
    scan_word_append hname.part hname.ne_nil (by decide)]
  rfl

theorem cstr_append {front : Str} (hfront : '\x00' ∉ front) (back : Str) :
    cstr (front ++ back) = front ++ cstr back := by
  unfold cstr
  refine List.takeWhile_append_of_pos fun c hc => ?_
  simpa using fun heq : c = '\x00' => hfront (heq ▸ hc)

theorem notMem_tableHead {c : Char} {opening version : Str} {A : TypeName}
    (hopening : c ∉ opening) (hversion : c ∉ version)
    (hname : c ∉ tableName A) (hc : c ∉ ". ".toList) :
    c ∉ tableHead opening version A := by
  have hsides : c ≠ '.' ∧ c ≠ ' ' := by simpa using hc
  simp [tableHead, hopening, hversion, hname, hsides.1, hsides.2]

theorem lower_startsName {text : Str} (hstarts : startsName text) :
    startsName (lower text) := by
  cases text with
  | nil => exact hstarts
  | cons c rest =>
      have hc : c.isAlpha = true ∨ c = '_' := by simpa [startsName] using hstarts
      rcases hc with halpha | rfl
      · have hfolded : c.toLower.isAlpha = true := by
          rcases toLower_cases c with hsame | hlower
          · rw [hsame, halpha]
          · simp [Char.isAlpha, hlower]
        simp [startsName, lower, hfolded]
      · rfl

theorem lower_tableName (A : TypeName) : lower (tableName A) = tableName A := by
  refine (List.map_congr_left fun c hc => ?_).trans (List.map_id _)
  have hne : c ≠ '\x00' := fun heq => nul_notMem_cstr _ (heq ▸ hc)
  rcases List.mem_append.mp (cstr_subset _ hc) with hname | hpad
  · obtain ⟨d, -, rfl⟩ := List.mem_map.mp hname
    exact toLower_toLower d
  · exact absurd (List.eq_of_mem_replicate hpad) hne

theorem statementWords_apart : ∀ words ∈ statementWords,
    ∀ other ∈ statementWords, words <+: other → words = other := by
  decide +kernel

theorem findSome?_dropPrefix? {β : Type} {words : List Token}
    (hwords : words ∈ statementWords) (rest : List Token)
    (f : List Token → Option β) :
    statementWords.findSome? (fun other =>
      ((words ++ rest).dropPrefix? other).bind f) = f rest := by
  have hself : (words ++ rest).dropPrefix? words = some rest :=
    List.dropPrefix?_eq_some_iff.mpr ⟨words, rfl, by simp⟩
  have hfound : ∀ other ∈ statementWords, ∀ found,
      ((words ++ rest).dropPrefix? other).bind f = some found →
        f rest = some found := by
    intro other hother found hbind
    obtain ⟨left, hdrop, hleft⟩ := Option.bind_eq_some_iff.mp hbind
    obtain ⟨front, hfront, hbeq⟩ := List.dropPrefix?_eq_some_iff.mp hdrop
    rw [beq_iff_eq] at hbeq
    subst hbeq
    have heq : front = words := by
      rcases List.prefix_or_prefix_of_prefix (List.prefix_append words rest)
        (hfront ▸ List.prefix_append front left) with hle | hle
      · exact (statementWords_apart words hwords front hother hle).symm
      · exact statementWords_apart front hother words hwords hle
    rw [heq, hself] at hdrop
    rw [Option.some.inj hdrop, hleft]
  cases hresult : f rest with
  | none =>
      refine List.findSome?_eq_none_iff.mpr fun other hother => ?_
      refine Option.eq_none_iff_forall_ne_some.mpr fun found hbind => ?_
      rw [hfound other hother found hbind] at hresult
      cases hresult
  | some found =>
      have hsome : (statementWords.findSome? fun other =>
          ((words ++ rest).dropPrefix? other).bind f).isSome := by
        rw [List.findSome?_isSome_iff]
        exact ⟨words, hwords, by rw [hself, Option.bind_some, hresult]; rfl⟩
      obtain ⟨other, hother⟩ := Option.isSome_iff_exists.mp hsome
      obtain ⟨at_, hmem, hbind⟩ := List.exists_of_findSome?_eq_some hother
      rw [hother, ← hresult, hfound at_ hmem other hbind]

theorem addressed_of_opens {version sql : Str} {A : TypeName}
    (hversion : Identifier version) (hname : Identifier (tableName A))
    (hopens : Opens version A sql) :
    addressed sql =
      if lower version ∈ reservedWords then none
      else some ⟨truncate (lower version), truncate (tableName A)⟩ := by
  obtain ⟨opening, hopening, tail, rfl⟩ := hopens
  obtain ⟨words, hwords, hrun⟩ := openings_words opening hopening
  have hnul := notMem_tableHead (openings_plain opening hopening).2
    (hversion.notMem (by decide)) (hname.notMem (by decide))
    (show '\x00' ∉ ". ".toList by decide)
  unfold addressed
  rw [cstr_append hnul, scan_tableHead hversion hname hrun,
    findSome?_dropPrefix? hwords, readPlace, readName, readLabel,
    if_pos (lower_startsName hname.starts), lower_tableName]
  by_cases hreserved : lower version ∈ reservedWords <;>
    simp [lower_startsName hversion.starts, hreserved]

/-! ## Every statement names the table as plain words -/

theorem opens_of_format {version sql : Str} {A : TypeName} {opening : Str}
    (hversion : Identifier version) (hopening : opening ∈ openings)
    {rest : Str} {args : List Arg}
    (hformat : formatFrom none (opening ++ "%s.%s ".toList ++ rest)
      (.str version :: .str (resolveTypeToString A) :: args) = some sql) :
    Opens version A sql := by
  have hsplit : opening ++ "%s.%s ".toList ++ rest =
      opening ++ '%' :: 's' :: (['.'] ++ '%' :: 's' :: ([' '] ++ rest)) := by
    simp
  rw [hsplit, formatFrom_append_literal (openings_plain opening hopening).1,
    formatFrom_string, formatFrom_append_literal (by decide),
    formatFrom_string, formatFrom_append_literal (by decide)] at hformat
  simp only [Option.map_eq_some_iff] at hformat
  obtain ⟨-, ⟨-, ⟨-, ⟨-, ⟨tail, -, rfl⟩, rfl⟩, rfl⟩, rfl⟩, rfl⟩ := hformat
  refine ⟨opening, hopening, tail, ?_⟩
  simp [tableHead, tableName, hversion.cstr_eq]

theorem formatFrom_of_stringFormat {fmt text : Str} {args : List Arg}
    (hnul : '\x00' ∉ fmt) (hformat : stringFormat fmt args = some text) :
    formatFrom none fmt args = some text := by
  have hsome := (stringFormat_eq_some.mp hformat).1
  rwa [format, cstr_eq_self hnul] at hsome

theorem exists_append_of_foldlM {α : Type} {step : Str → α → Option Str}
    (hstep : ∀ text item next, step text item = some next →
      ∃ tail, next = text ++ tail)
    (items : List α) {text result : Str}
    (hfold : items.foldlM step text = some result) :
    ∃ tail, result = text ++ tail := by
  induction items generalizing text with
  | nil =>
      refine ⟨[], ?_⟩
      rw [List.append_nil]
      exact (Option.some.inj hfold).symm
  | cons item items ih =>
      rw [List.foldlM_cons] at hfold
      obtain ⟨next, hnext, hrest⟩ := Option.bind_eq_some_iff.mp hfold
      obtain ⟨first, rfl⟩ := hstep text item next hnext
      obtain ⟨second, rfl⟩ := ih hrest
      exact ⟨first ++ second, by rw [List.append_assoc]⟩

theorem exists_append_of_apply {values : List Param} {index : ℕ}
    {ss text : Str} (happly : Tuples.apply values index ss = some text) :
    ∃ tail, text = ss ++ tail := by
  obtain ⟨p, -, rfl⟩ := Option.map_eq_some_iff.mp happly
  unfold tupleFormatFunc
  dsimp only
  split_ifs
  · exact ⟨"'".toList ++ p.streamed ++ "'".toList, by simp⟩
  · exact ⟨p.streamed, rfl⟩

theorem exists_append_of_writeFields {fields : List Str} {ss text : Str}
    (hwrite : writeFields ss fields = some text) :
    ∃ tail, text = ss ++ tail := by
  have hne : fields ≠ [] := by
    rintro rfl
    cases hwrite
  rw [writeFields_eq hne] at hwrite
  exact ⟨_, (Option.some.inj hwrite).symm⟩

theorem exists_append_of_writeValues {values : List Param} {size : ℕ}
    {ss text : Str} (hwrite : writeValues values size ss = some text) :
    ∃ tail, text = ss ++ tail := by
  obtain ⟨middle, hfold, happly⟩ := Option.bind_eq_some_iff.mp hwrite
  obtain ⟨first, rfl⟩ := exists_append_of_foldlM
    (fun text index next hnext => by
      obtain ⟨applied, happlied, rfl⟩ := Option.map_eq_some_iff.mp hnext
      obtain ⟨tail, rfl⟩ := exists_append_of_apply happlied
      exact ⟨tail ++ ",".toList, by rw [List.append_assoc]⟩) _ hfold
  obtain ⟨second, rfl⟩ := exists_append_of_apply happly
  exact ⟨first ++ second, by rw [List.append_assoc]⟩

theorem opens_insertOne {version sql : Str} {A : TypeName} {fields : List Str}
    {params : List Param}
    (hsql : PgClient.insertOneStatement version A fields params = some sql) :
    Opens version A sql := by
  simp only [PgClient.insertOneStatement, insertStatement, Option.bind_eq_bind,
    Option.bind_eq_some_iff] at hsql
  obtain ⟨withFields, hfields, withValues, hvalues, hsql⟩ := hsql
  obtain ⟨first, rfl⟩ := exists_append_of_writeFields hfields
  obtain ⟨second, rfl⟩ := exists_append_of_writeValues hvalues
  refine ⟨"insert into ".toList, by decide, "(".toList ++ first ++
    ") values \n(".toList ++ second ++ ");".toList, ?_⟩
  rw [← Option.some.inj hsql]
  simp [tableHead, tableName]

def Starts (opening fmt : Str) : Prop :=
  opening ++ "%s.%s ".toList <+: fmt ∧ '\x00' ∉ fmt

instance (opening fmt : Str) : Decidable (Starts opening fmt) :=
  inferInstanceAs (Decidable (_ ∧ _))

theorem saveFormat_starts :
    Starts "\n              insert into ".toList saveFormat := by
  unfold saveFormat
  repeat rw [String.toList_ofList]
  decide +kernel

theorem selects_start :
    ∀ fmt ∈ [listQuery, Client.searchSql, Client.collectSql, Client.oneSql],
      Starts "select current from ".toList fmt := by
  unfold listQuery Client.searchSql Client.collectSql Client.oneSql
  repeat rw [String.toList_ofList]
  decide +kernel

theorem countSql_starts :
    Starts "select count(1) result from ".toList PgClient.countSql := by
  unfold PgClient.countSql
  repeat rw [String.toList_ofList]
  decide +kernel

theorem opens_of_stringFormat {version fmt sql : Str} {A : TypeName}
    {opening : Str} {args : List Arg} (hversion : Identifier version)
    (hopening : opening ∈ openings) (hstarts : Starts opening fmt)
    (hformat : stringFormat fmt
      (.str version :: .str (resolveTypeToString A) :: args) = some sql) :
    Opens version A sql := by
  have hsome := formatFrom_of_stringFormat hstarts.2 hformat
  obtain ⟨rest, rfl⟩ := hstarts.1
  exact opens_of_format hversion hopening hsome

theorem opens_query {version sql : Str} {A : TypeName} {request : Request}
    (hversion : Identifier version)
    (hsql : request.query version A = some sql) : Opens version A sql := by
  cases request with
  | search field text type offset limit sortKey sortDirection exact =>
      rw [Request.query, Client.search] at hsql
      exact opens_of_stringFormat hversion (by decide)
        (selects_start _ (by simp)) hsql
  | collect field type keys =>
      rw [Request.query, Client.collect] at hsql
      exact opens_of_stringFormat hversion (by decide)
        (selects_start _ (by simp)) hsql
  | one field text type =>
      rw [Request.query, Client.one] at hsql
      exact opens_of_stringFormat hversion (by decide)
        (selects_start _ (by simp)) hsql

/-- The second formatting keeps the front of a query, which has no percent
sign. -/
theorem opens_list {version query sql : Str} {A : TypeName}
    {offset limit : Int32} {sortKey sortDirection : Str}
    (hversion : Identifier version) (hname : Identifier (tableName A))
    (hopens : Opens version A query)
    (hsql : Client.list version A offset limit sortKey sortDirection query =
      some sql) : Opens version A sql := by
  obtain ⟨opening, hopening, tail, rfl⟩ := hopens
  have hplain := openings_plain opening hopening
  have hpercent := notMem_tableHead hplain.1 (hversion.notMem (by decide))
    (hname.notMem (by decide)) (show '%' ∉ ". ".toList by decide)
  have hnul := notMem_tableHead hplain.2 (hversion.notMem (by decide))
    (hname.notMem (by decide)) (show '\x00' ∉ ". ".toList by decide)
  have hformat := (stringFormat_eq_some.mp hsql).1
  rw [format, cstr_append hnul, formatFrom_append_literal hpercent,
    Option.map_eq_some_iff] at hformat
  obtain ⟨rest, -, rfl⟩ := hformat
  exact ⟨opening, hopening, rest, rfl⟩

theorem StoreStatement.opens {dump : Json → Str} {version sql : Str}
    {A : TypeName} {statement : StoreStatement}
    (hversion : Identifier version) (hname : Identifier (tableName A))
    (hsql : statement.sql dump version A = some sql) :
    Opens version A sql := by
  cases statement with
  | save j =>
      simp only [StoreStatement.sql, saveStatement, Option.bind_eq_bind,
        Option.bind_eq_some_iff] at hsql
      obtain ⟨id, -, name, -, type, -, related, -, hformat⟩ := hsql
      exact opens_of_stringFormat hversion (by decide) saveFormat_starts hformat
  | insertOne fields params => exact opens_insertOne hsql
  | list offset limit sortKey sortDirection =>
      rw [StoreStatement.sql, Client.list] at hsql
      exact opens_of_stringFormat hversion (by decide)
        (selects_start _ (by simp)) hsql
  | query request =>
      obtain ⟨query, hquery, hexecuted⟩ := Option.bind_eq_some_iff.mp hsql
      obtain ⟨sortKey, sortDirection, offset, limit, -, hlist⟩ :=
        request.executed_eq version A query
      exact opens_list hversion hname (opens_query hversion hquery)
        (hlist.symm.trans hexecuted)
  | count type search =>
      rw [StoreStatement.sql, PgClient.countQuery] at hsql
      exact opens_of_stringFormat hversion (by decide) countSql_starts hsql

/-! ## The commands of `createStore` -/

def storeColumns : List Column := [
  ⟨"id".toList, "varchar".toList⟩,
  ⟨"name".toList, "character".toList⟩,
  ⟨"ts".toList, "timestamp".toList⟩,
  ⟨"type".toList, "varchar".toList⟩,
  ⟨"related".toList, "varchar".toList⟩,
  ⟨"current".toList, "jsonb".toList⟩,
  ⟨"history".toList, "jsonb".toList⟩]

def IsGin (column : Str) : Prop :=
  column = "current".toList ∨ column = "history".toList

instance (column : Str) : Decidable (IsGin column) :=
  inferInstanceAs (Decidable (_ ∨ _))

def methodName (column : Str) : Str :=
  if IsGin column then "gin".toList else "btree".toList

def opclassName (column : Str) : Option Str :=
  if IsGin column then some "jsonb_ops".toList else none

def methodTokens (column : Str) : List Token :=
  [.word "using".toList, .word (methodName column), .symbol '(',
    .word column] ++ (opclassName column).toList.map .word ++
    [.symbol ')', .word "tablespace".toList]

def indexWord (table column : Str) : Str :=
  table ++ "_".toList ++ column ++ "_idx".toList

def indexCommand (place : Place) (table tablespace column : Str) : Command :=
  .createIndex (truncate (indexWord table column)) place (methodName column)
    column (opclassName column) tablespace

theorem indxs_method : ∀ column ∈ indxs,
    run .between (' ' :: indexMethod column) =
      (methodTokens column, .between) := by
  decide +kernel

def createTableTemplate : List Directive := [
  .text "\n            create table if not exists \"".toList, .string,
  .text "\".\"".toList, .string, .text tableBody, .string,
  .text ";                \n          ".toList]

theorem createTableSql_eq : createTableSql = source createTableTemplate := by
  unfold createTableSql createTableTemplate
  generalize tableBody = body
  repeat rw [String.toList_ofList]
  rfl

theorem createTableTemplate_avoids :
    Avoids '%' createTableTemplate ∧ Avoids '\x00' createTableTemplate := by
  unfold createTableTemplate tableBody
  repeat rw [String.toList_ofList]
  decide +kernel

theorem fill_createTableTemplate (schema table tablespace : Str) :
    fill createTableTemplate [.str schema, .str table, .str tablespace] =
    some ("\n            create table if not exists \"".toList ++
      (cstr schema ++ ("\".\"".toList ++ (cstr table ++ (tableBody ++
      (cstr tablespace ++ (";                \n          ".toList ++
      []))))))) := rfl

theorem createTable_eq {tableSchema tablespaceName text : Str} {A : TypeName}
    (hschema : Identifier tableSchema) (htablespace : Identifier tablespaceName)
    (hformat : stringFormat createTableSql [
      .str tableSchema, .str (resolveTypeToString A), .str tablespaceName] =
        some text) :
    text = "\n            create table if not exists \"".toList ++
      (tableSchema ++ ("\".\"".toList ++ (tableName A ++ (tableBody ++
        (tablespaceName ++ ";                \n          ".toList))))) := by
  have hfits : Fits createTableTemplate [.str tableSchema,
      .str (resolveTypeToString A), .str tablespaceName] := rfl
  have hsome := (stringFormat_eq_some.mp hformat).1
  rw [createTableSql_eq, format_source createTableTemplate_avoids.1
    createTableTemplate_avoids.2 hfits, fill_createTableTemplate,
    hschema.cstr_eq, htablespace.cstr_eq, List.append_nil] at hsome
  exact (Option.some.inj hsome).symm

theorem run_createTable :
    run .between "\n            create table if not exists \"".toList =
      (createTableWords, .name []) := by
  rw [String.toList_ofList]
  decide +kernel

def bodyTokens : List Token := (run .between (tableBody.drop 1)).1

theorem run_tableBody :
    run .between (tableBody.drop 1) = (bodyTokens, .between) := by
  have hmode : (run .between (tableBody.drop 1)).2 = .between := by
    unfold tableBody
    repeat rw [String.toList_ofList]
    decide +kernel
  exact Prod.ext rfl hmode

theorem read_bodyTokens (tablespace : Str) :
    readColumns 0 .skip (bodyTokens ++ [Token.word tablespace]) =
        storeColumns ∧
      readTablespace ((bodyTokens ++ [Token.word tablespace]).drop
        ((bodyTokens ++ [Token.word tablespace]).length - 2)) =
        readName (.word tablespace) := by
  unfold bodyTokens tableBody
  repeat rw [String.toList_ofList]
  constructor <;> rfl

theorem tableBody_eq : tableBody = '"' :: ' ' :: tableBody.drop 2 := by
  unfold tableBody
  repeat rw [String.toList_ofList]
  rfl

theorem scan_quote (rest : Str) : scan ('"' :: rest) = scanFrom (.name []) rest :=
  rfl

theorem scan_semicolon (rest : Str) :
    scan (';' :: rest) = .symbol ';' :: scan rest :=
  @scan_append_of_run [';'] [.symbol ';'] (by decide) rest

theorem scan_createTable {schema table tablespace : Str}
    (hschema : Identifier schema) (htable : Identifier table)
    (htablespace : Identifier tablespace) :
    scan ("\n            create table if not exists \"".toList ++
      (schema ++ ("\".\"".toList ++ (table ++ (tableBody ++
        (tablespace ++ ";                \n          ".toList)))))) =
      (createTableWords ++ (.name schema :: .symbol '.' :: .name table ::
        (bodyTokens ++ [.word (lower tablespace)]))) ++
        .symbol ';' :: scan "                \n          ".toList := by
  have hdot : "\".\"".toList = ['"', '.', '"'] := String.toList_ofList
  have hend : ";                \n          ".toList =
      ';' :: "                \n          ".toList := by
    repeat rw [String.toList_ofList]
  have hbody : ∀ rest, scan (' ' :: (tableBody.drop 2 ++ rest)) =
      bodyTokens ++ scan rest := fun rest => by
    have hdrop : tableBody.drop 1 = ' ' :: tableBody.drop 2 := by
      rw [tableBody_eq]
      rfl
    rw [← scan_append_of_run run_tableBody, hdrop]
    rfl
  have hpart : isPart '"' = false := by decide
  rw [scan, scanFrom_append, run_createTable, hdot, tableBody_eq, hend]
  simp only [List.cons_append, List.nil_append]
  rw [scanFrom_name_append (hschema.notMem hpart) (by decide), scan_dot,
    scan_quote, scanFrom_name_append (htable.notMem hpart) (by decide), hbody,
    scan_word_append htablespace.part htablespace.ne_nil (by decide),
    scan_semicolon]
  simp [lower]

theorem symbol_notMem_bodyTokens : .symbol ';' ∉ bodyTokens := by
  unfold bodyTokens tableBody
  repeat rw [String.toList_ofList]
  decide +kernel

theorem readName_word {text : Str} (hname : Identifier text)
    (hreserved : lower text ∉ reservedWords) :
    readName (.word (lower text)) = some (truncate (lower text)) := by
  simp [readName, lower_startsName hname.starts, hreserved]

theorem readCommand_table {schema table tablespace : Str}
    (hschema : Identifier schema) (htable : Identifier table)
    (htablespace : Identifier tablespace)
    (hreserved : lower tablespace ∉ reservedWords) :
    readCommand (createTableWords ++ (.name schema :: .symbol '.' ::
        .name table :: (bodyTokens ++ [.word (lower tablespace)]))) =
      some (.createTable ⟨truncate schema, truncate table⟩ storeColumns
        (truncate (lower tablespace))) := by
  obtain ⟨hcolumns, hlast⟩ := read_bodyTokens (lower tablespace)
  have hplace : ∀ rest, readPlace (.name schema :: .symbol '.' ::
      .name table :: rest) = some (⟨truncate schema, truncate table⟩, rest) := by
    intro rest
    simp [readPlace, readName, readLabel, hschema.ne_nil, htable.ne_nil]
  rw [readCommand, List.dropPrefix?_append_of_beq _ (beq_self_eq_true _)]
  dsimp only
  rw [readTable, hplace]
  simp only [Option.bind_eq_bind, Option.bind_some, hcolumns, hlast,
    readName_word htablespace hreserved]

theorem readCommands_createTable {schema table tablespace : Str}
    (hschema : Identifier schema) (htable : Identifier table)
    (htablespace : Identifier tablespace)
    (hreserved : lower tablespace ∉ reservedWords) :
    readCommands ("\n            create table if not exists \"".toList ++
      (schema ++ ("\".\"".toList ++ (table ++ (tableBody ++
        (tablespace ++ ";                \n          ".toList)))))) =
      some [.createTable ⟨truncate schema, truncate table⟩ storeColumns
        (truncate (lower tablespace))] := by
  have hblank : readCommands "                \n          ".toList = some [] := by
    rw [String.toList_ofList]
    decide +kernel
  rw [readCommands_cons (scan_createTable hschema htable htablespace) _
    (readCommand_table hschema htable htablespace hreserved), hblank]
  · rfl
  · simp [createTableWords, symbol_notMem_bodyTokens]

/-! ## The indexes -/

def createIndexTemplate : List Directive := [
  .text "create index if not exists ".toList, .string, .text "_".toList,
  .string, .text ("_idx".toList ++ " on ".toList), .string, .text ['.'],
  .string, .text [' ']]

theorem createIndexSql_eq : createIndexSql = source createIndexTemplate := by
  unfold createIndexSql createIndexTemplate
  repeat rw [String.toList_ofList]
  rfl

theorem createIndexTemplate_avoids :
    Avoids '%' createIndexTemplate ∧ Avoids '\x00' createIndexTemplate := by
  unfold createIndexTemplate
  repeat rw [String.toList_ofList]
  decide +kernel

def indexText (schema table tablespace column : Str) : Str :=
  "create index if not exists ".toList ++ (indexWord table column ++
    (" on ".toList ++ (schema ++ '.' :: (table ++ (' ' ::
      indexMethod column ++ (tablespace ++ ";".toList))))))

theorem fill_createIndexTemplate (table column schema : Str) :
    fill createIndexTemplate [.str table, .str column, .str schema,
      .str table] =
    some ("create index if not exists ".toList ++ (cstr table ++
      ("_".toList ++ (cstr column ++ (("_idx".toList ++ " on ".toList) ++
      (cstr schema ++ (['.'] ++ (cstr table ++ ([' '] ++ []))))))))) := rfl

theorem indxs_identifier : ∀ column ∈ indxs, startsName column ∧
    (∀ c ∈ column, isPart c) ∧ column.map Char.toLower = column := by
  have hall : indxs.all fun column => startsName column &&
      (column.all isPart && column.map Char.toLower == column) := by
    decide +kernel
  intro column hcolumn
  simpa using List.all_eq_true.mp hall column hcolumn

theorem appendIndex_eq {schema tablespace m column text : Str} {A : TypeName}
    (hschema : Identifier schema) (hcolumn : column ∈ indxs)
    (happend : appendIndex schema (resolveTypeToString A) tablespace m column =
      some text) :
    text = m ++ indexText schema (tableName A) tablespace column := by
  have hparts := indxs_identifier column hcolumn
  have hself : cstr column = column :=
    Identifier.cstr_eq ⟨hparts.1, hparts.2.1⟩
  have hfits : Fits createIndexTemplate [.str (resolveTypeToString A),
    .str column, .str schema, .str (resolveTypeToString A)] := rfl
  rw [appendIndex, Option.bind_eq_bind, Option.bind_eq_some_iff] at happend
  obtain ⟨ret, hret, hsome⟩ := happend
  rw [stringFormat_eq_some, createIndexSql_eq,
    format_source createIndexTemplate_avoids.1 createIndexTemplate_avoids.2
    hfits, fill_createIndexTemplate, hschema.cstr_eq, hself] at hret
  rw [← Option.some.inj hsome, ← Option.some.inj hret.1]
  unfold indexText indexWord tableName
  generalize "create index if not exists ".toList = opening
  generalize "_idx".toList = ending
  generalize " on ".toList = joint
  generalize indexMethod column = method
  simp only [List.append_assoc, List.cons_append, List.nil_append]

theorem foldlM_appendIndex {schema tablespace : Str} {A : TypeName}
    (hschema : Identifier schema) {columns : List Str}
    (hcolumns : columns ⊆ indxs) {m text : Str}
    (hfold : columns.foldlM
      (appendIndex schema (resolveTypeToString A) tablespace) m = some text) :
    text = m ++ columns.flatMap (indexText schema (tableName A) tablespace) := by
  induction columns generalizing m with
  | nil =>
      rw [List.flatMap_nil, List.append_nil]
      exact (Option.some.inj hfold).symm
  | cons column columns ih =>
      rw [List.foldlM_cons, Option.bind_eq_bind,
        Option.bind_eq_some_iff] at hfold
      obtain ⟨next, hnext, hrest⟩ := hfold
      rw [ih (fun c hc => hcolumns (List.mem_cons_of_mem _ hc)) hrest,
        appendIndex_eq hschema (hcolumns List.mem_cons_self) hnext,
        List.append_assoc, List.flatMap_cons]

theorem createIndexes_eq {schema tablespace text : Str} {A : TypeName}
    (hschema : Identifier schema)
    (hindexes : createIndexes schema (resolveTypeToString A) tablespace =
      some text) :
    text = indxs.flatMap (indexText schema (tableName A) tablespace) := by
  unfold createIndexes at hindexes
  rw [foldlM_appendIndex hschema (List.Subset.refl indxs) hindexes,
    List.nil_append]

theorem startsName_append {text : Str} (hstarts : startsName text)
    (rest : Str) : startsName (text ++ rest) := by
  cases text with
  | nil => cases hstarts
  | cons c text => exact hstarts

theorem indexWord_identifier {table column : Str} (htable : Identifier table)
    (hcolumn : column ∈ indxs) :
    Identifier (indexWord table column) := by
  have hparts := (indxs_identifier column hcolumn).2.1
  have hends : (∀ c ∈ "_".toList, isPart c) ∧ ∀ c ∈ "_idx".toList, isPart c :=
    ⟨List.all_eq_true.mp rfl, List.all_eq_true.mp rfl⟩
  clear hcolumn
  unfold indexWord
  constructor
  · rw [List.append_assoc, List.append_assoc]
    exact startsName_append htable.starts _
  · intro c hc
    rw [List.mem_append, List.mem_append, List.mem_append] at hc
    rcases hc with ((hc | hc) | hc) | hc
    · exact htable.part c hc
    · exact hends.1 c hc
    · exact hparts c hc
    · exact hends.2 c hc

theorem run_createIndex :
    run .between "create index if not exists ".toList =
      (createIndexWords, .between) := by
  decide +kernel

theorem scan_on (rest : Str) :
    scan (" on ".toList ++ rest) = .word "on".toList :: scan rest :=
  @scan_append_of_run " on ".toList [.word "on".toList] (by decide) rest

theorem scan_indexText {schema table tablespace column : Str}
    (hschema : Identifier schema) (htable : Identifier table)
    (htablespace : Identifier tablespace) (hcolumn : column ∈ indxs)
    (rest : Str) :
    scan (indexText schema table tablespace column ++ rest) =
      (createIndexWords ++ (.word (lower (indexWord table column)) ::
        .word "on".toList :: .word (lower schema) :: .symbol '.' ::
        .word (lower table) :: (methodTokens column ++
          [.word (lower tablespace)]))) ++ .symbol ';' :: scan rest := by
  have hword := indexWord_identifier htable hcolumn
  have hon : ∀ more, " on ".toList ++ more = ' ' :: ("on ".toList ++ more) :=
    fun more => rfl
  have hend : ";".toList = [';'] := rfl
  unfold indexText
  simp only [List.append_assoc, List.cons_append]
  rw [scan_append_of_run run_createIndex, hon, scan_word_append hword.part
    hword.ne_nil (by decide), ← hon, scan_on,
    scan_word_append hschema.part hschema.ne_nil (by decide), scan_dot,
    scan_word_append htable.part htable.ne_nil (by decide),
    ← List.cons_append, scan_append_of_run (indxs_method column hcolumn), hend,
    List.singleton_append,
    scan_word_append htablespace.part htablespace.ne_nil (by decide),
    scan_semicolon]
  simp [lower]

theorem reservedWords_ends : ∀ word ∈ reservedWords,
    ¬ "_idx".toList <:+ word := by
  decide +kernel

theorem lower_indexWord {table column : Str} (htable : lower table = table)
    (hcolumn : column ∈ indxs) :
    lower (indexWord table column) = indexWord table column := by
  have hends : "_".toList.map Char.toLower = "_".toList ∧
      "_idx".toList.map Char.toLower = "_idx".toList := by decide
  unfold lower at htable
  unfold lower indexWord
  rw [List.map_append, List.map_append, List.map_append, htable, hends.1,
    hends.2, (indxs_identifier column hcolumn).2.2]

theorem indexWord_notReserved (table column : Str) :
    indexWord table column ∉ reservedWords := fun hmem =>
  reservedWords_ends _ hmem (List.suffix_append _ _)

theorem read_methodTokens (name tablespace column : Str) (place : Place) :
    readMethod name place (methodTokens column ++ [.word tablespace]) =
      (readName (.word tablespace)).map
        (.createIndex name place (methodName column) column
          (opclassName column)) := by
  have hreturn : ∀ opclass, (do
      some (Command.createIndex name place (methodName column) column opclass
        (← readTablespace [.word "tablespace".toList, .word tablespace]))) =
      (readName (.word tablespace)).map
        (.createIndex name place (methodName column) column opclass) := by
    intro opclass
    rw [readTablespace, if_pos rfl]
    cases readName (.word tablespace) <;> rfl
  rw [← hreturn]
  unfold methodTokens opclassName
  split_ifs <;> rfl

theorem semicolon_notMem_methodTokens (column : Str) :
    Token.symbol ';' ∉ methodTokens column := by
  unfold methodTokens
  cases opclassName column <;> simp

theorem readCommand_index {schema table tablespace column : Str}
    (hschema : Identifier schema) (htable : Identifier table)
    (hlower : lower table = table) (htablespace : Identifier tablespace)
    (hcolumn : column ∈ indxs) (hreserved : lower schema ∉ reservedWords)
    (hplace : lower tablespace ∉ reservedWords) :
    readCommand (createIndexWords ++ (.word (lower (indexWord table column)) ::
        .word "on".toList :: .word (lower schema) :: .symbol '.' ::
        .word (lower table) :: (methodTokens column ++
          [.word (lower tablespace)]))) =
      some (indexCommand ⟨truncate (lower schema), truncate table⟩ table
        (truncate (lower tablespace)) column) := by
  have hword := indexWord_identifier htable hcolumn
  have hname : readName (.word (lower (indexWord table column))) =
      some (truncate (indexWord table column)) := by
    have hfolded := lower_indexWord hlower hcolumn
    rw [readName_word hword, hfolded]
    rw [hfolded]
    exact indexWord_notReserved table column
  have hread : ∀ rest, readPlace (.word (lower schema) :: .symbol '.' ::
      .word (lower table) :: rest) =
      some (⟨truncate (lower schema), truncate table⟩, rest) := by
    intro rest
    rw [readPlace, readName_word hschema hreserved, readLabel,
      if_pos (lower_startsName htable.starts), hlower]
    rfl
  have hother : ∀ rest, (createIndexWords ++ rest).dropPrefix? createTableWords =
      none := by
    intro rest
    rfl
  rw [readCommand, hother, List.dropPrefix?_append_of_beq _
    (beq_self_eq_true _)]
  dsimp only
  rw [Option.bind_some, readIndex, if_neg (not_not.mpr rfl), hread]
  simp [hname, read_methodTokens,
    readName_word htablespace hplace, indexCommand]

theorem readCommands_createIndexes {schema table tablespace : Str}
    (hschema : Identifier schema) (htable : Identifier table)
    (hlower : lower table = table) (htablespace : Identifier tablespace)
    (hreserved : lower schema ∉ reservedWords)
    (hplace : lower tablespace ∉ reservedWords) {columns : List Str}
    (hcolumns : columns ⊆ indxs) :
    readCommands (columns.flatMap (indexText schema table tablespace)) =
      some (columns.map (indexCommand ⟨truncate (lower schema), truncate table⟩
        table (truncate (lower tablespace)))) := by
  induction columns with
  | nil => rfl
  | cons column columns ih =>
      have hcolumn := hcolumns List.mem_cons_self
      rw [List.flatMap_cons, readCommands_cons
        (scan_indexText hschema htable htablespace hcolumn _) _
        (readCommand_index hschema htable hlower htablespace hcolumn hreserved
          hplace),
        ih fun c hc => hcolumns (List.mem_cons_of_mem _ hc)]
      · rfl
      · simp [createIndexWords, semicolon_notMem_methodTokens]

/-! ## The relations of a store -/

def storePlace (schema : Str) (A : TypeName) : Place :=
  ⟨truncate schema, truncate (tableName A)⟩

theorem indxs_takes : ∀ column ∈ indxs,
    ∃ other ∈ storeColumns, other.Takes column (opclassName column) := by
  decide +kernel

def madeIndex (place : Place) (table : Str) (columns : List Str)
    (other : Place) : Option Relation :=
  (columns.find? fun column =>
    ⟨place.schema, truncate (indexWord table column)⟩ = other).map
      fun column => .index place (methodName column) column

theorem madeIndex_cons (place other : Place) (table column : Str)
    (columns : List Str) :
    madeIndex place table (column :: columns) other =
      if ⟨place.schema, truncate (indexWord table column)⟩ = other then
        some (.index place (methodName column) column)
      else madeIndex place table columns other := by
  unfold madeIndex
  rw [List.find?_cons]
  split_ifs with hother <;> simp [hother]

/-- Each index takes its name when nothing has it yet. -/
theorem executeAll_indexes {place : Place} {table tablespace : Str}
    {columns : List Str} (hcolumns : columns ⊆ indxs) {catalog : Catalog}
    (htable : catalog.relations place = some (.table storeColumns))
    (htablespace : tablespace ∈ catalog.tablespaces) :
    ∃ next, executeAll catalog
        (columns.map (indexCommand place table tablespace)) = some next ∧
      ∀ other, next.relations other = (catalog.relations other).or
        (madeIndex place table columns other) := by
  induction columns generalizing catalog with
  | nil => exact ⟨catalog, rfl, fun other => by simp [madeIndex]⟩
  | cons column columns ih =>
      have htakes := indxs_takes column (hcolumns List.mem_cons_self)
      have hrest : columns ⊆ indxs :=
        fun c hc => hcolumns (List.mem_cons_of_mem _ hc)
      have hexecute : (indexCommand place table tablespace column).execute
          catalog =
          if (catalog.relations
              ⟨place.schema, truncate (indexWord table column)⟩).isSome then
            some catalog
          else some (catalog.add
            ⟨place.schema, truncate (indexWord table column)⟩
            (.index place (methodName column) column)) := by
        rw [indexCommand, Command.execute, htable]
        dsimp only
        rw [if_neg]
        rw [not_or, not_not, not_not]
        exact ⟨List.contains_iff_mem.mpr htablespace, htakes⟩
      rw [List.map_cons, executeAll_cons, hexecute]
      split_ifs with htaken
      · obtain ⟨next, hnext, hrelations⟩ := ih hrest htable htablespace
        refine ⟨next, hnext, fun other => ?_⟩
        rw [hrelations, madeIndex_cons]
        split_ifs with hother
        · obtain ⟨relation, hrelation⟩ := Option.isSome_iff_exists.mp htaken
          rw [← hother, hrelation, Option.some_or, Option.some_or]
        · rfl
      · rw [Option.not_isSome_iff_eq_none] at htaken
        have hextends := extends_add htaken
          (.index place (methodName column) column)
        obtain ⟨next, hnext, hrelations⟩ := ih hrest
          (hextends.relations place _ htable) htablespace
        refine ⟨next, hnext, fun other => ?_⟩
        rw [hrelations, madeIndex_cons]
        split_ifs with hother
        · rw [← hother, htaken, Catalog.add_relations_self, Option.some_or,
            Option.none_or]
        · rw [catalog.add_relations_of_ne (Ne.symm hother)]

/-! ## When the names stay apart -/

theorem truncate_append (table ending : Str) :
    truncate (table ++ ending) =
      truncate table ++ ending.take (nameLength - table.length) := by
  rw [truncate, List.take_append]
  rfl

def indexEnding (column : Str) : Str := "_".toList ++ column ++ "_idx".toList

theorem indexWord_eq (table column : Str) :
    indexWord table column = table ++ indexEnding column := by
  simp only [indexWord, indexEnding, List.append_assoc]

theorem indxs_apart : ∀ column ∈ indxs, ∀ other ∈ indxs,
    (indexEnding column).take 3 = (indexEnding other).take 3 →
      column = other := by
  decide +kernel

theorem truncate_indexWord_inj {table column other : Str}
    (hlength : table.length ≤ 60) (hcolumn : column ∈ indxs)
    (hother : other ∈ indxs)
    (hsame : truncate (indexWord table column) =
      truncate (indexWord table other)) : column = other := by
  rw [indexWord_eq, indexWord_eq, truncate_append, truncate_append,
    List.append_cancel_left_eq] at hsame
  refine indxs_apart column hcolumn other hother ?_
  have hthree : min 3 (nameLength - table.length) = 3 := by
    unfold nameLength
    omega
  have htake := congrArg (List.take 3) hsame
  rwa [List.take_take, List.take_take, hthree] at htake

theorem truncate_indexWord_ne {table column : Str}
    (hlength : table.length ≤ 60) :
    truncate (indexWord table column) ≠ truncate table := fun hsame => by
  have hlengths := congrArg List.length hsame
  rw [indexWord_eq, truncate_append, List.length_append, List.length_take]
    at hlengths
  have hending : 0 < (indexEnding column).length := by
    simp [indexEnding]
  have hroom : 0 < nameLength - table.length := by
    unfold nameLength
    omega
  omega

/-- In a longer name the indexes on the time and on the type are one. -/
theorem truncate_indexWord_same {table : Str} (hlength : 60 < table.length) :
    truncate (indexWord table "ts".toList) =
      truncate (indexWord table "type".toList) := by
  have htwo : (indexEnding "ts".toList).take 2 =
      (indexEnding "type".toList).take 2 := by decide
  have hmin : min (nameLength - table.length) 2 = nameLength - table.length := by
    unfold nameLength
    omega
  rw [indexWord_eq, indexWord_eq, truncate_append, truncate_append, ← hmin,
    ← List.take_take, ← List.take_take, htwo]

theorem mem_of_madeIndex {place other : Place} {table column method : Str}
    {columns : List Str}
    (hmade : madeIndex place table columns other =
      some (.index place method column)) :
    column ∈ columns ∧
      other = ⟨place.schema, truncate (indexWord table column)⟩ := by
  obtain ⟨found, hfound, hindex⟩ := Option.map_eq_some_iff.mp hmade
  have hname : found = column := by
    injection hindex
  subst hname
  have hplace := List.find?_some hfound
  rw [decide_eq_true_eq] at hplace
  exact ⟨List.mem_of_find?_eq_some hfound, hplace.symm⟩

theorem madeIndex_type_ne {place other : Place} {table method : Str}
    (hlength : 60 < table.length) :
    madeIndex place table indxs other ≠
      some (.index place method "type".toList) := by
  intro hmade
  have hother := (mem_of_madeIndex hmade).2
  rw [← truncate_indexWord_same hlength] at hother
  have hindxs : indxs = "name".toList :: "ts".toList ::
      ["type", "related", "current", "history"].map String.toList := rfl
  rw [hindxs, madeIndex_cons, madeIndex_cons, if_pos hother.symm] at hmade
  split_ifs at hmade <;>
    exact absurd (Relation.index.inj (Option.some.inj hmade)).2.2 (by decide)

/-- Every index has its name when the names are apart. -/
theorem madeIndex_self {place : Place} {table column : Str}
    (hlength : table.length ≤ 60) (hcolumn : column ∈ indxs) :
    madeIndex place table indxs
        ⟨place.schema, truncate (indexWord table column)⟩ =
      some (.index place (methodName column) column) := by
  have hsome : (indxs.find? fun found =>
      (⟨place.schema, truncate (indexWord table found)⟩ : Place) =
        ⟨place.schema, truncate (indexWord table column)⟩).isSome := by
    rw [List.find?_isSome]
    exact ⟨column, hcolumn, decide_eq_true rfl⟩
  obtain ⟨found, hfound⟩ := Option.isSome_iff_exists.mp hsome
  have hnames := List.find?_some hfound
  rw [decide_eq_true_eq, Place.mk.injEq] at hnames
  have hself := truncate_indexWord_inj hlength
    (List.mem_of_find?_eq_some hfound) hcolumn hnames.2
  rw [madeIndex, hfound, hself]
  rfl

/-! ## When the store can be used -/

def tablespaceName (schema : Str) (useSchemaTablespace : Bool) : Str :=
  if useSchemaTablespace then schema else "pg_default".toList

def indexTablespace (schema : Str) (useSchemaTablespace : Bool) : Str :=
  if useSchemaTablespace then schema ++ "_idx".toList
  else "pg_default".toList

/-- What `createStore` expects: the schema and the tablespaces, and no relation
under the names it gives. -/
structure Room (catalog : Catalog) (schema : Str) (A : TypeName)
    (useSchemaTablespace : Bool) : Prop where
  hasSchema : truncate schema ∈ catalog.schemas
  hasTablespace : truncate (lower (tablespaceName schema useSchemaTablespace)) ∈
    catalog.tablespaces
  hasIndexTablespace :
    truncate (lower (indexTablespace schema useSchemaTablespace)) ∈
      catalog.tablespaces
  free : catalog.relations (storePlace schema A) = none
  names : ∀ column ∈ indxs, catalog.relations
    ⟨truncate schema, truncate (indexWord (tableName A) column)⟩ = none
  unindexed : ∀ other method column, catalog.relations other ≠
    some (.index (storePlace schema A) method column)

/-- The table is there with an index on each of the six columns, and it is the
table that every statement of the client is about. -/
structure Usable (dump : Json → Str) (schema : Str) (A : TypeName)
    (catalog : Catalog) : Prop where
  table : catalog.relations (storePlace schema A) = some (.table storeColumns)
  indexed : ∀ column ∈ indxs, ∃ name, catalog.relations
    ⟨truncate schema, name⟩ =
      some (.index (storePlace schema A) (methodName column) column)
  addressed : ∀ (statement : StoreStatement) (sql : Str),
    statement.sql dump schema A = some sql →
      addressed sql = some (storePlace schema A)

structure Usual (schema : Str) (A : TypeName) : Prop where
  lowerCase : truncate (lower schema) = truncate schema
  notReserved : lower schema ∉ reservedWords
  short : (tableName A).length ≤ 60

theorem pgDefault_identifier : Identifier "pg_default".toList := by decide

theorem tablespaceName_identifier {schema : Str} (hschema : Identifier schema)
    (useSchemaTablespace : Bool) :
    Identifier (tablespaceName schema useSchemaTablespace) := by
  cases useSchemaTablespace with
  | false => exact pgDefault_identifier
  | true => exact hschema

theorem indexTablespace_identifier {schema : Str} (hschema : Identifier schema)
    (useSchemaTablespace : Bool) :
    Identifier (indexTablespace schema useSchemaTablespace) := by
  have hidx : ∀ c ∈ "_idx".toList, isPart c := List.all_eq_true.mp rfl
  cases useSchemaTablespace with
  | false => exact pgDefault_identifier
  | true =>
      refine ⟨startsName_append hschema.starts _, fun c hc => ?_⟩
      rcases List.mem_append.mp hc with hc | hc
      · exact hschema.part c hc
      · exact hidx c hc

theorem pgDefault_notReserved : lower "pg_default".toList ∉ reservedWords := by
  decide +kernel

theorem tablespaceName_notReserved {schema : Str}
    (hreserved : lower schema ∉ reservedWords) (useSchemaTablespace : Bool) :
    lower (tablespaceName schema useSchemaTablespace) ∉ reservedWords := by
  cases useSchemaTablespace with
  | false => exact pgDefault_notReserved
  | true => exact hreserved

theorem indexTablespace_notReserved (schema : Str)
    (useSchemaTablespace : Bool) :
    lower (indexTablespace schema useSchemaTablespace) ∉ reservedWords := by
  cases useSchemaTablespace with
  | false => exact pgDefault_notReserved
  | true =>
      intro hmem
      refine reservedWords_ends _ hmem ?_
      have hidx : "_idx".toList.map Char.toLower = "_idx".toList := by decide
      rw [indexTablespace, if_pos rfl, lower, List.map_append, hidx]
      exact List.suffix_append _ _

theorem indxs_plain : ∀ column ∈ indxs, '\x00' ∉ indexMethod column := by
  decide +kernel

theorem notMem_indexText {schema table tablespace column : Str}
    (hschema : Identifier schema) (htable : Identifier table)
    (htablespace : Identifier tablespace) (hcolumn : column ∈ indxs) :
    '\x00' ∉ indexText schema table tablespace column := by
  have hpart : isPart '\x00' = false := by decide
  have hword := (indexWord_identifier htable hcolumn).notMem hpart
  have hmethod := indxs_plain column hcolumn
  have hopening : '\x00' ∉ "create index if not exists ".toList := by
    decide +kernel
  have hon : '\x00' ∉ " on ".toList := by decide
  have hend : '\x00' ∉ ";".toList := by decide
  have hsides : '\x00' ≠ '.' ∧ '\x00' ≠ ' ' := by decide
  unfold indexText
  generalize "create index if not exists ".toList = opening at *
  generalize " on ".toList = joint at *
  generalize ";".toList = ending at *
  generalize indexMethod column = method at *
  simp only [List.mem_append, List.mem_cons, not_or]
  exact ⟨hopening, hword, hon, hschema.notMem hpart, hsides.1,
    htable.notMem hpart, ⟨hsides.2, hmethod⟩, htablespace.notMem hpart, hend⟩

theorem cstr_createTable {schema tablespace text : Str} {A : TypeName}
    (hformat : stringFormat createTableSql [
      .str schema, .str (resolveTypeToString A), .str tablespace] =
        some text) : cstr text = text := by
  have hfits : Fits createTableTemplate [.str schema,
      .str (resolveTypeToString A), .str tablespace] := rfl
  have hsome := (stringFormat_eq_some.mp hformat).1
  rw [createTableSql_eq, format_source createTableTemplate_avoids.1
    createTableTemplate_avoids.2 hfits] at hsome
  exact cstr_eq_self (nul_notMem_fill createTableTemplate_avoids.2 hfits hsome)

theorem saveOn_eq {message : Str → Str} {sql : Str} {catalog next : Catalog}
    {commands : List Command} (hread : readCommands (cstr sql) = some commands)
    (hexecute : executeAll catalog commands = some next) :
    PgClient.saveOn message sql catalog = ("Succeeded".toList, next) := by
  rw [PgClient.saveOn, execute, hread, Option.bind_some, hexecute]

/-- The commands that the two texts of `createStore` hold. -/
theorem createStore_eq {message : Str → Str} {A : TypeName} {schema : Str}
    {useSchemaTablespace : Bool} {catalog : Catalog}
    {result : Str × Catalog}
    (hschema : Identifier schema) (hname : Identifier (tableName A))
    (hreserved : lower schema ∉ reservedWords)
    (hcreate : PgClient.createStore message A schema useSchemaTablespace
      catalog = some result) :
    ∃ first second,
      readCommands (cstr first) = some [.createTable (storePlace schema A)
        storeColumns
        (truncate (lower (tablespaceName schema useSchemaTablespace)))] ∧
      readCommands (cstr second) = some (indxs.map (indexCommand
        ⟨truncate (lower schema), truncate (tableName A)⟩ (tableName A)
        (truncate (lower (indexTablespace schema useSchemaTablespace))))) ∧
      ∀ other, PgClient.createStore message A schema useSchemaTablespace other =
        some ((PgClient.saveOn message first other).1 ++ ";".toList ++
          (PgClient.saveOn message second
            (PgClient.saveOn message first other).2).1,
          (PgClient.saveOn message second
            (PgClient.saveOn message first other).2).2) := by
  have htablespace := tablespaceName_identifier hschema useSchemaTablespace
  have hindexTablespace :=
    indexTablespace_identifier hschema useSchemaTablespace
  rw [PgClient.createStore, Option.bind_eq_bind,
    Option.bind_eq_some_iff] at hcreate
  obtain ⟨first, hfirst, hcreate⟩ := hcreate
  obtain ⟨second, hsecond, -⟩ := Option.bind_eq_some_iff.mp hcreate
  have hfirstEq := createTable_eq hschema htablespace hfirst
  have hsecondEq := createIndexes_eq hschema hsecond
  have hplain : '\x00' ∉ second := by
    rw [hsecondEq]
    intro hmem
    obtain ⟨column, hcolumn, hmem⟩ := List.mem_flatMap.mp hmem
    exact notMem_indexText hschema hname hindexTablespace hcolumn hmem
  refine ⟨first, second, ?_, ?_, fun other => ?_⟩
  · rw [cstr_createTable hfirst, hfirstEq]
    exact readCommands_createTable hschema hname htablespace
      (tablespaceName_notReserved hreserved useSchemaTablespace)
  · rw [cstr_eq_self hplain, hsecondEq]
    exact readCommands_createIndexes hschema hname (lower_tableName A)
      hindexTablespace hreserved
      (indexTablespace_notReserved schema useSchemaTablespace)
      (List.Subset.refl indxs)
  · rw [PgClient.createStore, hfirst, Option.bind_eq_bind, Option.bind_some,
      hsecond]
    rfl

/-- A schema in lower case that is no key word gets the table and the indexes
that have a name of their own. -/
theorem createStore_run {message : Str → Str} {A : TypeName}
    {schema reply : Str} {useSchemaTablespace : Bool} {catalog next : Catalog}
    (hschema : Identifier schema) (hname : Identifier (tableName A))
    (hroom : Room catalog schema A useSchemaTablespace)
    (hreserved : lower schema ∉ reservedWords)
    (hlower : truncate (lower schema) = truncate schema)
    (hcreate : PgClient.createStore message A schema useSchemaTablespace
      catalog = some (reply, next)) :
    reply = "Succeeded;Succeeded".toList ∧
    PgClient.createStore message A schema useSchemaTablespace next =
      some (reply, next) ∧
    ∀ other, next.relations other =
      ((catalog.add (storePlace schema A) (.table storeColumns)).relations
        other).or
          (madeIndex (storePlace schema A) (tableName A) indxs other) := by
  obtain ⟨first, second, hfirst, hsecond, hresult⟩ :=
    createStore_eq hschema hname hreserved hcreate
  rw [hlower] at hsecond
  have htable : executeAll catalog [.createTable (storePlace schema A)
      storeColumns
      (truncate (lower (tablespaceName schema useSchemaTablespace)))] =
      some (catalog.add (storePlace schema A) (.table storeColumns)) := by
    have hschemas : catalog.schemas.contains (storePlace schema A).schema :=
      List.contains_iff_mem.mpr hroom.hasSchema
    have htablespaces := List.contains_iff_mem.mpr hroom.hasTablespace
    rw [executeAll_cons, Command.execute, if_neg (not_not.mpr hschemas),
      hroom.free, if_neg (by decide), if_neg (not_not.mpr htablespaces)]
    rfl
  obtain ⟨final, hindexes, hrelations⟩ := executeAll_indexes
    (List.Subset.refl indxs) (catalog.add_relations_self (storePlace schema A)
      (.table storeColumns)) hroom.hasIndexTablespace
  have hreply : "Succeeded".toList ++ ";".toList ++ "Succeeded".toList =
      "Succeeded;Succeeded".toList := rfl
  have honce := hresult catalog
  rw [hcreate, saveOn_eq hfirst htable, saveOn_eq hsecond hindexes,
    hreply] at honce
  obtain ⟨rfl, rfl⟩ := Prod.mk.inj (Option.some.inj honce)
  have hextends := executeAll_extends hindexes
  refine ⟨rfl, ?_, hrelations⟩
  rw [hresult next, saveOn_eq hfirst (executeAll_again htable hextends),
    saveOn_eq hsecond (executeAll_again hindexes (.refl next)), hreply]

def oneField : StoreStatement :=
  .insertOne ["id".toList] [.string []]

theorem oneField_sql (dump : Json → Str) (schema : Str) (A : TypeName) :
    ∃ sql, oneField.sql dump schema A = some sql :=
  ⟨_, insertStatement_eq schema (cstr (resolveTypeToString A))
    (List.cons_ne_nil "id".toList []) (.string []) [] rfl⟩

/-- `createStore` makes a store that the client can use exactly when the schema
is written in lower case and is no key word and the name of the type leaves the
names of the indexes apart.  Calling it again then changes nothing. -/
theorem createStore_usable_iff (dump : Json → Str) {message : Str → Str}
    {A : TypeName} {schema reply : Str} {useSchemaTablespace : Bool}
    {catalog next : Catalog}
    (hschema : Identifier schema) (hname : Identifier (tableName A))
    (hroom : Room catalog schema A useSchemaTablespace)
    (hcreate : PgClient.createStore message A schema useSchemaTablespace
      catalog = some (reply, next)) :
    (Usable dump schema A next ↔ Usual schema A) ∧
    (Usual schema A → reply = "Succeeded;Succeeded".toList ∧
      PgClient.createStore message A schema useSchemaTablespace next =
        some (reply, next)) := by
  have hrun := fun hreserved hlower => createStore_run hschema hname hroom
    hreserved hlower hcreate
  have haddressed : ∀ statement sql,
      StoreStatement.sql dump schema A statement = some sql →
        addressed sql = if lower schema ∈ reservedWords then none
          else some ⟨truncate (lower schema), truncate (tableName A)⟩ :=
    fun statement sql hsql => addressed_of_opens hschema hname
      (StoreStatement.opens hschema hname hsql)
  refine ⟨⟨fun husable => ?_, fun husual => ?_⟩, fun husual =>
    ⟨(hrun husual.notReserved husual.lowerCase).1,
      (hrun husual.notReserved husual.lowerCase).2.1⟩⟩
  · obtain ⟨sql, hsql⟩ := oneField_sql dump schema A
    have hplace := husable.addressed oneField sql hsql
    rw [haddressed oneField sql hsql] at hplace
    split_ifs at hplace with hreserved
    have hlower : truncate (lower schema) = truncate schema :=
      (Place.mk.inj (Option.some.inj hplace)).1
    obtain ⟨-, -, hrelations⟩ := hrun hreserved hlower
    refine ⟨hlower, hreserved, not_lt.mp fun hlong => ?_⟩
    obtain ⟨name, hindex⟩ := husable.indexed "type".toList (by decide)
    rw [hrelations] at hindex
    by_cases hself : (⟨truncate schema, name⟩ : Place) = storePlace schema A
    · rw [hself, Catalog.add_relations_self] at hindex
      cases hindex
    · rw [catalog.add_relations_of_ne hself] at hindex
      rcases Option.or_eq_some_iff.mp hindex with hold | ⟨-, hmade⟩
      · exact hroom.unindexed _ _ _ hold
      · exact madeIndex_type_ne hlong hmade
  · obtain ⟨-, -, hrelations⟩ := hrun husual.notReserved husual.lowerCase
    refine ⟨?_, fun column hcolumn => ?_, fun statement sql hsql => ?_⟩
    · rw [hrelations, Catalog.add_relations_self, Option.some_or]
    · refine ⟨truncate (indexWord (tableName A) column), ?_⟩
      have hne : (⟨truncate schema, truncate (indexWord (tableName A) column)⟩ :
          Place) ≠ storePlace schema A := fun heq =>
        truncate_indexWord_ne husual.short (Place.mk.inj heq).2
      rw [hrelations, catalog.add_relations_of_ne hne,
        hroom.names column hcolumn, Option.none_or]
      exact madeIndex_self husual.short hcolumn
    · rw [haddressed statement sql hsql, if_neg husual.notReserved,
        husual.lowerCase]
      rfl

def emptyCatalog (schema : Str) : Catalog where
  schemas := [schema]
  tablespaces := [schema, schema ++ "_idx".toList]
  relations _ := none

theorem masterStore_usable :
    ∃ reply next, PgClient.createStore id droidType "master".toList true
        (emptyCatalog "master".toList) = some (reply, next) ∧
      Usable (fun _ => []) "master".toList droidType next ∧
      reply = "Succeeded;Succeeded".toList := by
  have hsome : (PgClient.createStore id droidType "master".toList true
      (emptyCatalog "master".toList)).isSome := by decide +kernel
  obtain ⟨⟨reply, next⟩, hcreate⟩ := Option.isSome_iff_exists.mp hsome
  have hroom : Room (emptyCatalog "master".toList) "master".toList droidType
      true :=
    ⟨by decide, by decide, by decide, rfl, fun _ _ => rfl, nofun⟩
  have husual : Usual "master".toList droidType :=
    ⟨by decide, by decide +kernel, by decide⟩
  have hstore := createStore_usable_iff (fun _ => []) (by decide) (by decide)
    hroom hcreate
  exact ⟨reply, next, hcreate, hstore.1.mpr husual, (hstore.2 husual).1⟩

end StoreCpp
