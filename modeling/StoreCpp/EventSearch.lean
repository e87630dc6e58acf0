import StoreCpp.AppendEvent
import StoreCpp.DollarQuote
import StoreCpp.FormatTemplate

/-!
# The statement of a search

`PgEventStore::Search` compiles one `select` on the type and the sequence
number of the events, with a limit and no order.
-/

namespace StoreCpp

open Printf DollarQuote

/-- A text that keeps its meaning between apostrophes. -/
structure LiteralText where
  text : Str
  noQuote : '\'' ∉ text
  noNul : '\x00' ∉ text

def matchMustExistKeys (mustExistKeys : List Str) : Option Str :=
  let quotedKeys := join (mustExistKeys.map fun s => wrapString s) ",".toList
  if 0 < quotedKeys.length then
    stringFormat " and data ?& array[%s]".toList [.str quotedKeys]
  else some []

def matchFilters (filters : List (Str × List Str)) : Option Str :=
  let fragments := filters.map fun e =>
    "data->>'".toList ++ e.1 ++ "' in (".toList ++
      join (e.2.map fun s => wrapString s) ",".toList ++ ")".toList
  let joined := join fragments " and ".toList
  if 0 < joined.length then stringFormat " and %s".toList [.str joined]
  else some []

def searchFormat : Str :=
  "select seq_id, id, stream_id, type, version, data, timestamp ".toList ++
  "from %s.mt_events where type %s '%s' and seq_id > %lld %s %s ".toList ++
  "limit %d".toList

/-- The text that `Search` executes. -/
def searchStatement (dbSchema type : Str) (fromSeqId : Int64)
    (limit : Int32) (exact : Bool) (mustExistKeys : List Str)
    (filters : List (Str × List Str)) : Option Str := do
  let keys ← matchMustExistKeys mustExistKeys
  let filters ← matchFilters filters
  stringFormat searchFormat [
    .str dbSchema,
    .str (if exact then "=" else "~*").toList,
    .str type,
    .longLong fromSeqId,
    .str keys,
    .str filters,
    .int limit]

def searchTemplate : List Directive := [
  .text "select seq_id, id, stream_id, type, version, data, ".toList,
  .text "timestamp from ".toList, .string,
  .text ".mt_events where type ".toList, .string, .text " '".toList, .string,
  .text "' and seq_id > ".toList, .longLong, .text " ".toList, .string,
  .text " ".toList, .string, .text " limit ".toList, .int]

theorem searchFormat_eq : searchFormat = source searchTemplate := by
  decide +kernel

theorem searchTemplate_avoids :
    Avoids '%' searchTemplate ∧ Avoids '\x00' searchTemplate := by
  decide

def apostrophe : Delimiter Char where
  text := ['\'']
  ne_nil := by decide

def searchOpening (dbSchema : Str) : Str :=
  "select seq_id, id, stream_id, type, version, data, ".toList ++
    ("timestamp from ".toList ++ (cstr dbSchema ++
    (".mt_events where type ".toList ++ ("=".toList ++ " ".toList))))

def searchTail (fromSeqId : Int64) (limit : Int32) : Str :=
  " and seq_id > ".toList ++ (decimal fromSeqId.toInt ++ (" ".toList ++
    (" ".toList ++ (" limit ".toList ++ decimal limit.toInt))))

theorem searchTemplate_fits (dbSchema match_ type keys filters : Str)
    (fromSeqId : Int64) (limit : Int32) :
    Fits searchTemplate [.str dbSchema, .str match_, .str type,
      .longLong fromSeqId, .str keys, .str filters, .int limit] := rfl

theorem fill_searchTemplate (dbSchema match_ type keys filters : Str)
    (fromSeqId : Int64) (limit : Int32) :
    fill searchTemplate [.str dbSchema, .str match_, .str type,
      .longLong fromSeqId, .str keys, .str filters, .int limit] =
    some ("select seq_id, id, stream_id, type, version, data, ".toList ++
      ("timestamp from ".toList ++ (cstr dbSchema ++
      (".mt_events where type ".toList ++ (cstr match_ ++
      (" '".toList ++ (cstr type ++ ("' and seq_id > ".toList ++
      (decimal fromSeqId.toInt ++ (" ".toList ++ (cstr keys ++ (" ".toList ++
      (cstr filters ++ (" limit ".toList ++
      (decimal limit.toInt ++ []))))))))))))))) := rfl

theorem searchStatement_eq_render {dbSchema sql : Str} {type : LiteralText}
    {fromSeqId : Int64} {limit : Int32}
    (hsql : searchStatement dbSchema type.text fromSeqId limit true [] [] =
      some sql) :
    sql = render apostrophe [(searchOpening dbSchema, type.text)]
      (searchTail fromSeqId limit) := by
  have hkeys : matchMustExistKeys [] = some [] := rfl
  have hfilters : matchFilters [] = some [] := rfl
  have hopening : searchOpening dbSchema =
      "select seq_id, id, stream_id, type, version, data, ".toList ++
        ("timestamp from ".toList ++ (cstr dbSchema ++
        (".mt_events where type ".toList ++ ("=".toList ++ " ".toList)))) :=
    rfl
  have htail : searchTail fromSeqId limit =
      " and seq_id > ".toList ++ (decimal fromSeqId.toInt ++ (" ".toList ++
        (" ".toList ++ (" limit ".toList ++ decimal limit.toInt)))) := rfl
  have hequals : cstr "=".toList = "=".toList := by decide
  have hblank : " '".toList = " ".toList ++ ['\''] := by decide
  have hclose : "' and seq_id > ".toList = '\'' :: " and seq_id > ".toList := by
    decide
  have hnil : cstr [] = [] := rfl
  simp only [searchStatement, hkeys, hfilters, if_true, Option.bind_eq_bind,
    Option.bind_some] at hsql
  rw [searchFormat_eq, stringFormat_eq_some, format_source
    searchTemplate_avoids.1 searchTemplate_avoids.2
    (searchTemplate_fits _ _ _ _ _ _ _), fill_searchTemplate,
    cstr_eq_self type.noNul, hequals, hblank, hclose, hnil] at hsql
  rw [← Option.some.inj hsql.1, hopening, htail]
  simp only [render, apostrophe, List.flatMap_cons, List.flatMap_nil,
    List.append_assoc, List.append_nil, List.cons_append, List.nil_append]

theorem apostrophe_notMem_searchOpening {dbSchema : Str}
    (hschema : '\'' ∉ cstr dbSchema) : '\'' ∉ searchOpening dbSchema := by
  intro hmem
  rcases List.mem_append.mp hmem with hmem | hmem
  · exact absurd hmem (by decide)
  rcases List.mem_append.mp hmem with hmem | hmem
  · exact absurd hmem (by decide)
  rcases List.mem_append.mp hmem with hmem | hmem
  · exact hschema hmem
  · exact absurd hmem (by decide)

theorem apostrophe_notMem_searchTail (fromSeqId : Int64) (limit : Int32) :
    '\'' ∉ searchTail fromSeqId limit := by
  have hdecimal : ∀ value, '\'' ∉ decimal value := notMem_decimal (by decide)
  intro hmem
  rcases List.mem_append.mp hmem with hmem | hmem
  · exact absurd hmem (by decide)
  rcases List.mem_append.mp hmem with hmem | hmem
  · exact hdecimal _ hmem
  rcases List.mem_append.mp hmem with hmem | hmem
  · exact absurd hmem (by decide)
  rcases List.mem_append.mp hmem with hmem | hmem
  · exact absurd hmem (by decide)
  rcases List.mem_append.mp hmem with hmem | hmem
  · exact absurd hmem (by decide)
  · exact hdecimal _ hmem

/-- With its default arguments the statement compares the type with one
literal, which is the given type, and says nothing about an order. -/
theorem searchStatement_lex {dbSchema sql : Str} {type : LiteralText}
    {fromSeqId : Int64} {limit : Int32} (hschema : '\'' ∉ cstr dbSchema)
    (hsql : searchStatement dbSchema type.text fromSeqId limit true [] [] =
      some sql) :
    lex apostrophe sql = some ([(searchOpening dbSchema, type.text)],
      searchTail fromSeqId limit) := by
  have hclosed : ∀ text, '\'' ∉ text → Closed apostrophe text :=
    fun text htext => closed_of_head_notMem htext
  have htail : ¬ apostrophe.text <:+: searchTail fromSeqId limit := by
    intro hoccurs
    exact apostrophe_notMem_searchTail fromSeqId limit
      (hoccurs.subset List.mem_cons_self)
  rw [searchStatement_eq_render hsql, lex_render_iff htail]
  intro piece hpiece
  rw [List.mem_singleton.mp hpiece]
  exact ⟨hclosed _ (apostrophe_notMem_searchOpening hschema),
    hclosed _ type.noQuote⟩

end StoreCpp
