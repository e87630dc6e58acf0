import StoreCpp.EventSearch
import StoreCpp.QuotedLiteral
import StoreCpp.QuotedStatements

/-!
# The conditions of a search

`PgEventStore::Search` asks for a type, a sequence number, keys that the data
must have and fields whose values are listed.  All of these texts stand
between apostrophes in one `where` clause, with nothing doubled.
-/

namespace StoreCpp

open Printf QuotedLiteral

/-- A word between blanks, or the value of a literal. -/
inductive SqlToken where
  | word (text : Str)
  | literal (value : Str)
  deriving DecidableEq

def words (text : Str) : List Str := (text.splitOn ' ').filter (· ≠ [])

def pieceToken (piece : Str × Str) : List SqlToken :=
  (words piece.1).map .word ++ [.literal piece.2]

def pieceTokens (parts : List (Str × Str) × Str) : List SqlToken :=
  parts.1.flatMap pieceToken ++ (words parts.2).map .word

def tokens (text : Str) : Option (List SqlToken) :=
  (lex '\'' text).map pieceTokens

inductive Condition where
  | typeMatch (exact : Bool) (type : Str)
  | seqIdAfter (fromSeqId : Int64)
  | keysPresent (keys : List Str)
  | fieldAmong (field : Str) (values : List Str)
  deriving DecidableEq

def matchExact (exact : Bool) : Str := if exact then "=".toList else "~*".toList

def listTokens : List Str → List SqlToken
  | [] => []
  | value :: values =>
      .literal value :: values.flatMap fun other =>
        [.word ",".toList, .literal other]

def Condition.tokens : Condition → List SqlToken
  | typeMatch exact type =>
      [.word "type".toList, .word (matchExact exact), .literal type]
  | seqIdAfter fromSeqId =>
      [.word "seq_id".toList, .word ">".toList, .word (decimal fromSeqId.toInt)]
  | keysPresent keys =>
      [.word "data".toList, .word "?&".toList, .word "array[".toList] ++
        listTokens keys ++ [.word "]".toList]
  | fieldAmong field values =>
      [.word "data->>".toList, .literal field, .word "in".toList,
        .word "(".toList] ++ listTokens values ++ [.word ")".toList]

def conjunction : List Condition → List SqlToken
  | [] => []
  | condition :: conditions =>
      condition.tokens ++ conditions.flatMap fun other =>
        .word "and".toList :: other.tokens

/-- What the arguments of `Search` ask for. -/
def searchConditions (type : Str) (fromSeqId : Int64) (exact : Bool)
    (mustExistKeys : List Str) (filters : List (Str × List Str)) :
    List Condition :=
  [.typeMatch exact type, .seqIdAfter fromSeqId] ++
    (if mustExistKeys = [] then [] else [.keysPresent mustExistKeys]) ++
    filters.map fun e => .fieldAmong e.1 e.2

def searchSelect (dbSchema : Str) : Str :=
  "select seq_id, id, stream_id, type, version, data, ".toList ++
    "timestamp from ".toList ++ cstr dbSchema ++ ".mt_events where ".toList

/-- The `where` clause is the conjunction of the conditions, and the limit
follows it. -/
def SearchesExactly (dbSchema type : Str) (fromSeqId : Int64) (limit : Int32)
    (exact : Bool) (mustExistKeys : List Str) (filters : List (Str × List Str))
    (sql : Str) : Prop :=
  ∃ clause, sql = searchSelect dbSchema ++ clause ∧
    tokens clause =
      some (conjunction (searchConditions type fromSeqId exact mustExistKeys
          filters) ++
        [.word "limit".toList, .word (decimal limit.toInt)])

/-- The texts of the arguments that stand between apostrophes. -/
def searchTexts (type : Str) (mustExistKeys : List Str)
    (filters : List (Str × List Str)) : List Str :=
  type :: mustExistKeys ++ filters.flatMap fun e => e.1 :: e.2

/-! ## The clause -/

def keysText (mustExistKeys : List Str) : Str :=
  if mustExistKeys = [] then []
  else " and data ?& array[".toList ++
    cstr (join (mustExistKeys.map fun s => wrapString s) ",".toList) ++
      "]".toList

def fragment (e : Str × List Str) : Str :=
  "data->>'".toList ++ e.1 ++ "' in (".toList ++
    join (e.2.map fun s => wrapString s) ",".toList ++ ")".toList

def filtersText (filters : List (Str × List Str)) : Str :=
  if filters = [] then []
  else " and ".toList ++ cstr (join (filters.map fragment) " and ".toList)

def clauseText (type : Str) (fromSeqId : Int64) (limit : Int32) (exact : Bool)
    (mustExistKeys : List Str) (filters : List (Str × List Str)) : Str :=
  "type ".toList ++ matchExact exact ++ " '".toList ++ cstr type ++
    "' and seq_id > ".toList ++ decimal fromSeqId.toInt ++ " ".toList ++
      keysText mustExistKeys ++ " ".toList ++ filtersText filters ++
        " limit ".toList ++ decimal limit.toInt

theorem stringFormat_source {template : List Directive} {args : List Arg}
    {text : Str} (hplain : Avoids '%' template) (hnul : Avoids '\x00' template)
    (hfits : Fits template args)
    (htext : stringFormat (source template) args = some text) :
    fill template args = some text := by
  rw [← format_source hplain hnul hfits]
  exact (stringFormat_eq_some.mp htext).1

theorem join_eq_nil_iff {items : List Str} {separator : Str}
    (hitems : ∀ item ∈ items, item ≠ []) :
    join items separator = [] ↔ items = [] := by
  cases items with
  | nil => simp [join]
  | cons item items =>
      have hitem := hitems item List.mem_cons_self
      rw [join_cons hitem]
      simp [hitem]

theorem wrapString_ne_nil (s : Str) : wrapString s ≠ [] :=
  List.append_ne_nil_of_right_ne_nil _ (by decide)

theorem fragment_ne_nil (e : Str × List Str) : fragment e ≠ [] :=
  List.append_ne_nil_of_right_ne_nil _ (by decide)

def keysTemplate : List Directive :=
  [.text " and data ?& array[".toList, .string, .text "]".toList]

def filtersTemplate : List Directive := [.text " and ".toList, .string]

theorem keysFormat_eq :
    " and data ?& array[%s]".toList = source keysTemplate := by
  decide

theorem filtersFormat_eq : " and %s".toList = source filtersTemplate := by
  decide

theorem keysTemplate_avoids :
    Avoids '%' keysTemplate ∧ Avoids '\x00' keysTemplate := by
  decide

theorem filtersTemplate_avoids :
    Avoids '%' filtersTemplate ∧ Avoids '\x00' filtersTemplate := by
  decide

theorem keysTemplate_fits (keys : Str) : Fits keysTemplate [.str keys] := rfl

theorem filtersTemplate_fits (filters : Str) :
    Fits filtersTemplate [.str filters] := rfl

theorem fill_keysTemplate (keys : Str) :
    fill keysTemplate [.str keys] =
      some (" and data ?& array[".toList ++ (cstr keys ++
        ("]".toList ++ []))) := rfl

theorem fill_filtersTemplate (filters : Str) :
    fill filtersTemplate [.str filters] =
      some (" and ".toList ++ (cstr filters ++ [])) := rfl

theorem matchMustExistKeys_eq {mustExistKeys : List Str} {text : Str}
    (htext : matchMustExistKeys mustExistKeys = some text) :
    text = keysText mustExistKeys := by
  have hwrapped : ∀ item ∈ mustExistKeys.map fun s => wrapString s,
      item ≠ [] := by
    intro item hitem
    obtain ⟨s, _, rfl⟩ := List.mem_map.mp hitem
    exact wrapString_ne_nil s
  have hnil := @join_eq_nil_iff _ ",".toList hwrapped
  rw [List.map_eq_nil_iff] at hnil
  unfold matchMustExistKeys at htext
  unfold keysText
  dsimp only at htext
  by_cases hkeys : mustExistKeys = []
  · have hlength := List.eq_nil_iff_length_eq_zero.mp (hnil.mpr hkeys)
    rw [if_neg (by omega)] at htext
    rw [if_pos hkeys]
    exact (Option.some.inj htext).symm
  · rw [if_pos (List.length_pos_iff.mpr (mt hnil.mp hkeys)),
      keysFormat_eq] at htext
    have hfill := stringFormat_source keysTemplate_avoids.1
      keysTemplate_avoids.2 (keysTemplate_fits _) htext
    rw [fill_keysTemplate] at hfill
    rw [if_neg hkeys, ← Option.some.inj hfill, List.append_nil,
      List.append_assoc]

theorem matchFilters_eq {filters : List (Str × List Str)} {text : Str}
    (htext : matchFilters filters = some text) :
    text = filtersText filters := by
  have hfragments : ∀ item ∈ filters.map fragment, item ≠ [] := by
    intro item hitem
    obtain ⟨e, _, rfl⟩ := List.mem_map.mp hitem
    exact fragment_ne_nil e
  have hnil := @join_eq_nil_iff _ " and ".toList hfragments
  rw [List.map_eq_nil_iff] at hnil
  have hmatch : matchFilters filters =
      if 0 < (join (filters.map fragment) " and ".toList).length then
        stringFormat " and %s".toList
          [.str (join (filters.map fragment) " and ".toList)]
      else some [] := rfl
  rw [hmatch] at htext
  unfold filtersText
  by_cases hfilters : filters = []
  · have hlength := List.eq_nil_iff_length_eq_zero.mp (hnil.mpr hfilters)
    rw [if_neg (by omega)] at htext
    rw [if_pos hfilters]
    exact (Option.some.inj htext).symm
  · rw [if_pos (List.length_pos_iff.mpr (mt hnil.mp hfilters)),
      filtersFormat_eq] at htext
    have hfill := stringFormat_source filtersTemplate_avoids.1
      filtersTemplate_avoids.2 (filtersTemplate_fits _) htext
    rw [fill_filtersTemplate, List.append_nil] at hfill
    rw [if_neg hfilters, ← Option.some.inj hfill]

theorem nul_notMem_keysText (mustExistKeys : List Str) :
    '\x00' ∉ keysText mustExistKeys := by
  unfold keysText
  split_ifs
  · exact List.not_mem_nil
  · rw [List.mem_append, List.mem_append, not_or, not_or]
    exact ⟨⟨by decide, nul_notMem_cstr _⟩, by decide⟩

theorem nul_notMem_filtersText (filters : List (Str × List Str)) :
    '\x00' ∉ filtersText filters := by
  unfold filtersText
  split_ifs
  · exact List.not_mem_nil
  · rw [List.mem_append, not_or]
    exact ⟨by decide, nul_notMem_cstr _⟩

theorem nul_notMem_clauseText (type : Str) (fromSeqId : Int64) (limit : Int32)
    (exact : Bool) (mustExistKeys : List Str)
    (filters : List (Str × List Str)) :
    '\x00' ∉ clauseText type fromSeqId limit exact mustExistKeys filters := by
  have hdecimal : ∀ value, '\x00' ∉ decimal value := notMem_decimal (by decide)
  have hmatch : '\x00' ∉ matchExact exact := by
    cases exact <;> decide
  unfold clauseText
  simp only [List.mem_append, not_or]
  exact ⟨⟨⟨⟨⟨⟨⟨⟨⟨⟨⟨by decide, hmatch⟩, by decide⟩, nul_notMem_cstr _⟩,
    by decide⟩, hdecimal _⟩, by decide⟩, nul_notMem_keysText _⟩, by decide⟩,
      nul_notMem_filtersText _⟩, by decide⟩, hdecimal _⟩

theorem searchSelect_append (dbSchema rest : Str) :
    "select seq_id, id, stream_id, type, version, data, ".toList ++
      ("timestamp from ".toList ++ (cstr dbSchema ++
        (".mt_events where type ".toList ++ rest))) =
      searchSelect dbSchema ++ ("type ".toList ++ rest) := by
  have hwhere : ".mt_events where type ".toList =
      ".mt_events where ".toList ++ "type ".toList := by decide
  unfold searchSelect
  rw [List.append_assoc, List.append_assoc, List.append_assoc,
    ← List.append_assoc ".mt_events where ".toList, ← hwhere]

theorem searchStatement_eq {dbSchema type sql : Str} {fromSeqId : Int64}
    {limit : Int32} {exact : Bool} {mustExistKeys : List Str}
    {filters : List (Str × List Str)}
    (hsql : searchStatement dbSchema type fromSeqId limit exact mustExistKeys
      filters = some sql) :
    sql = searchSelect dbSchema ++
      clauseText type fromSeqId limit exact mustExistKeys filters := by
  unfold searchStatement at hsql
  obtain ⟨keys, hkeys, hrest⟩ := Option.bind_eq_some_iff.mp hsql
  obtain ⟨matched, hmatched, hformat⟩ := Option.bind_eq_some_iff.mp hrest
  rw [matchMustExistKeys_eq hkeys, matchFilters_eq hmatched,
    searchFormat_eq] at hformat
  have hfill := stringFormat_source searchTemplate_avoids.1
    searchTemplate_avoids.2 (searchTemplate_fits _ _ _ _ _ _ _) hformat
  have hcompare : cstr (if exact = true then "=" else "~*").toList =
      matchExact exact := by
    cases exact <;> decide
  rw [fill_searchTemplate, hcompare, cstr_eq_self (nul_notMem_keysText _),
    cstr_eq_self (nul_notMem_filtersText _)] at hfill
  rw [← Option.some.inj hfill, searchSelect_append]
  unfold clauseText
  simp only [List.append_assoc, List.append_nil]

/-! ## Its pieces -/

def afterType (fromSeqId : Int64) : Str :=
  " and seq_id > ".toList ++ decimal fromSeqId.toInt ++ " ".toList

/-- The plain text that is open before the keys is open after them too when
there are none. -/
def afterKeys (fromSeqId : Int64) (mustExistKeys : List Str) : Str :=
  (if mustExistKeys = [] then afterType fromSeqId else "]".toList) ++
    " ".toList

def keyPieces (fromSeqId : Int64) (mustExistKeys : List Str) :
    List (Str × Str) :=
  arrayPieces (afterType fromSeqId ++ " and data ?& array[".toList)
    mustExistKeys

def filterPieces : Str → List (Str × List Str) → List (Str × Str)
  | _, [] => []
  | opening, e :: filters =>
      (opening ++ " and data->>".toList, e.1) ::
        (arrayPieces " in (".toList e.2 ++ filterPieces ")".toList filters)

def afterFilters (opening : Str) (filters : List (Str × List Str)) : Str :=
  if filters = [] then opening else ")".toList

def clausePieces (type : Str) (fromSeqId : Int64) (exact : Bool)
    (mustExistKeys : List Str) (filters : List (Str × List Str)) :
    List (Str × Str) :=
  ("type ".toList ++ matchExact exact ++ " ".toList, type) ::
    (keyPieces fromSeqId mustExistKeys ++
      filterPieces (afterKeys fromSeqId mustExistKeys) filters)

def clauseTail (fromSeqId : Int64) (limit : Int32) (mustExistKeys : List Str)
    (filters : List (Str × List Str)) : Str :=
  afterFilters (afterKeys fromSeqId mustExistKeys) filters ++
    " limit ".toList ++ decimal limit.toInt

section Render

def rawPiece (piece : Str × Str) : Str := piece.1 ++ wrapString piece.2

theorem render_apostrophes (pieces : List (Str × Str)) (tail : Str) :
    DollarQuote.render (QuotedLiteral.delimiter '\'') pieces tail =
      pieces.flatMap rawPiece ++ tail := by
  unfold DollarQuote.render rawPiece wrapString
  simp [QuotedLiteral.delimiter]

theorem rawPiece_arrayPieces (opening : Str) {values : List Str}
    (hvalues : values ≠ []) :
    (arrayPieces opening values).flatMap rawPiece =
      opening ++ join (values.map fun s => wrapString s) ",".toList :=
  flatMap_arrayPieces wrapString_ne_nil opening hvalues

theorem rawPiece_filterPieces (opening : Str) {filters : List (Str × List Str)}
    (hfilters : ∀ e ∈ filters, e.2 ≠ []) :
    (filterPieces opening filters).flatMap rawPiece ++
        afterFilters opening filters =
      opening ++ filters.flatMap fun e => " and ".toList ++ fragment e := by
  induction filters generalizing opening with
  | nil => simp [filterPieces, afterFilters]
  | cons e filters ih =>
      obtain ⟨hvalues, hrest⟩ := List.forall_mem_cons.mp hfilters
      have hafter : afterFilters opening (e :: filters) =
          afterFilters ")".toList filters := by
        simp [afterFilters]
      have hnext := ih ")".toList hrest
      have hfield : " and data->>".toList = " and ".toList ++
          "data->>".toList := by decide
      have hquote : "data->>'".toList = "data->>".toList ++ ['\''] := by decide
      have hin : "' in (".toList = '\'' :: " in (".toList := by decide
      rw [filterPieces, List.flatMap_cons, List.flatMap_append,
        rawPiece_arrayPieces _ hvalues, hafter, List.append_assoc,
        List.append_assoc, hnext]
      unfold rawPiece fragment wrapString
      simp [hfield, hquote, hin]

theorem nul_notMem_wrapString {s : Str} (hnul : '\x00' ∉ s) :
    '\x00' ∉ wrapString s := by
  simp [wrapString, hnul]

theorem nul_notMem_joined {values : List Str}
    (hnul : ∀ value ∈ values, '\x00' ∉ value) :
    '\x00' ∉ join (values.map fun s => wrapString s) ",".toList := by
  apply notMem_join_map
  · exact fun value _ => wrapString_ne_nil value
  · decide
  · exact fun value hvalue => nul_notMem_wrapString (hnul value hvalue)

theorem rawPiece_keyPieces (fromSeqId : Int64) {mustExistKeys : List Str}
    (hnul : ∀ key ∈ mustExistKeys, '\x00' ∉ key) :
    (keyPieces fromSeqId mustExistKeys).flatMap rawPiece ++
        afterKeys fromSeqId mustExistKeys =
      afterType fromSeqId ++ keysText mustExistKeys ++ " ".toList := by
  unfold keyPieces afterKeys keysText
  by_cases hkeys : mustExistKeys = []
  · rw [if_pos hkeys, if_pos hkeys, hkeys]
    simp [arrayPieces]
  · rw [if_neg hkeys, if_neg hkeys, rawPiece_arrayPieces _ hkeys,
      cstr_eq_self (nul_notMem_joined hnul)]
    simp only [List.append_assoc]

theorem nul_notMem_fragment {e : Str × List Str}
    (hnul : ∀ text ∈ e.1 :: e.2, '\x00' ∉ text) : '\x00' ∉ fragment e := by
  obtain ⟨hfield, hvalues⟩ := List.forall_mem_cons.mp hnul
  unfold fragment
  simp only [List.mem_append, not_or]
  exact ⟨⟨⟨⟨by decide, hfield⟩, by decide⟩, nul_notMem_joined hvalues⟩,
    by decide⟩

theorem join_fragments {filters : List (Str × List Str)}
    (hfilters : filters ≠ []) :
    " and ".toList ++ join (filters.map fragment) " and ".toList =
      filters.flatMap fun e => " and ".toList ++ fragment e := by
  cases filters with
  | nil => exact absurd rfl hfilters
  | cons e filters =>
      rw [join_map_cons (fragment_ne_nil e), List.flatMap_cons,
        List.append_assoc]

theorem filtersText_eq {filters : List (Str × List Str)}
    (hnul : ∀ e ∈ filters, ∀ text ∈ e.1 :: e.2, '\x00' ∉ text) :
    filtersText filters =
      filters.flatMap fun e => " and ".toList ++ fragment e := by
  unfold filtersText
  by_cases hfilters : filters = []
  · rw [if_pos hfilters, hfilters]
    rfl
  · have hjoined : '\x00' ∉ join (filters.map fragment) " and ".toList := by
      apply notMem_join_map
      · exact fun e _ => fragment_ne_nil e
      · decide
      · exact fun e he => nul_notMem_fragment (hnul e he)
    rw [if_neg hfilters, cstr_eq_self hjoined, join_fragments hfilters]

theorem clauseText_eq_render {type : Str} (fromSeqId : Int64) (limit : Int32)
    (exact : Bool) {mustExistKeys : List Str}
    {filters : List (Str × List Str)}
    (hfilters : ∀ e ∈ filters, e.2 ≠ [])
    (hnul : ∀ text ∈ searchTexts type mustExistKeys filters, '\x00' ∉ text) :
    clauseText type fromSeqId limit exact mustExistKeys filters =
      DollarQuote.render (QuotedLiteral.delimiter '\'')
        (clausePieces type fromSeqId exact mustExistKeys filters)
        (clauseTail fromSeqId limit mustExistKeys filters) := by
  obtain ⟨htype, hrest⟩ := List.forall_mem_cons.mp hnul
  obtain ⟨hkeys, hvalues⟩ := List.forall_mem_append.mp hrest
  have hfields : ∀ e ∈ filters, ∀ text ∈ e.1 :: e.2, '\x00' ∉ text :=
    fun e he text htext => hvalues text (List.mem_flatMap.mpr ⟨e, he, htext⟩)
  have hkeyed := rawPiece_keyPieces fromSeqId hkeys
  have hfiltered := rawPiece_filterPieces
    (afterKeys fromSeqId mustExistKeys) hfilters
  rw [← filtersText_eq hfields] at hfiltered
  have hopen : rawPiece ("type ".toList ++ matchExact exact ++ " ".toList,
      type) ++ afterType fromSeqId =
        "type ".toList ++ matchExact exact ++ " '".toList ++ type ++
          "' and seq_id > ".toList ++ decimal fromSeqId.toInt ++
            " ".toList := by
    have hquote : " '".toList = " ".toList ++ ['\''] := by decide
    have hclose : "' and seq_id > ".toList =
        ['\''] ++ " and seq_id > ".toList := by decide
    have hwrap : wrapString type = ['\''] ++ (type ++ ['\'']) := by
      simp [wrapString]
    unfold rawPiece afterType
    rw [hquote, hclose, hwrap]
    simp only [List.append_assoc]
  unfold clauseText clausePieces clauseTail
  rw [render_apostrophes, List.flatMap_cons, List.flatMap_append,
    cstr_eq_self htype, ← hopen]
  simp only [List.append_assoc]
  rw [← List.append_assoc (List.flatMap _ (filterPieces _ _)), hfiltered,
    List.append_assoc, ← List.append_assoc (List.flatMap _ (keyPieces _ _)),
    hkeyed]
  simp only [List.append_assoc]

end Render

theorem notMem_afterType (fromSeqId : Int64) : '\'' ∉ afterType fromSeqId := by
  have hdecimal := @notMem_decimal '\'' (by decide) fromSeqId.toInt
  unfold afterType
  simp only [List.mem_append, not_or]
  exact ⟨⟨by decide, hdecimal⟩, by decide⟩

theorem notMem_afterKeys (fromSeqId : Int64) (mustExistKeys : List Str) :
    '\'' ∉ afterKeys fromSeqId mustExistKeys := by
  unfold afterKeys
  rw [List.mem_append, not_or]
  constructor
  · split_ifs
    · exact notMem_afterType fromSeqId
    · decide
  · decide

/-- Plain text that may stand between two literals. -/
def Separates (plain : Str) : Prop := '\'' ∉ plain ∧ plain ≠ []

theorem separates_append {before after : Str} (hbefore : '\'' ∉ before)
    (hafter : Separates after) : Separates (before ++ after) := by
  constructor
  · rw [List.mem_append, not_or]
    exact ⟨hbefore, hafter.1⟩
  · exact List.append_ne_nil_of_right_ne_nil _ hafter.2

theorem separates_arrayPieces {opening : Str} (hopening : Separates opening)
    {values : List Str} :
    ∀ piece ∈ arrayPieces opening values, Separates piece.1 := by
  intro piece hpiece
  rcases fst_mem_arrayPieces hpiece with h | h
  · rw [h]
    exact hopening
  · rw [h]
    exact ⟨by decide, by decide⟩

theorem separates_filterPieces {opening : Str} (hopening : '\'' ∉ opening)
    {filters : List (Str × List Str)} :
    ∀ piece ∈ filterPieces opening filters, Separates piece.1 := by
  induction filters generalizing opening with
  | nil => simp [filterPieces]
  | cons e filters ih =>
      rw [filterPieces, List.forall_mem_cons, List.forall_mem_append]
      refine ⟨?_, ?_, ih (by decide)⟩
      · exact separates_append hopening ⟨by decide, by decide⟩
      · exact separates_arrayPieces ⟨by decide, by decide⟩

theorem separated_clause (type : Str) (fromSeqId : Int64) (limit : Int32)
    (exact : Bool) (mustExistKeys : List Str)
    (filters : List (Str × List Str)) :
    Separated '\'' (clausePieces type fromSeqId exact mustExistKeys filters)
      (clauseTail fromSeqId limit mustExistKeys filters) := by
  have hkeys : ∀ piece ∈ keyPieces fromSeqId mustExistKeys,
      Separates piece.1 :=
    separates_arrayPieces
      (separates_append (notMem_afterType _) ⟨by decide, by decide⟩)
  have hfilters : ∀ piece ∈ filterPieces (afterKeys fromSeqId mustExistKeys)
      filters, Separates piece.1 :=
    separates_filterPieces (notMem_afterKeys _ _)
  have hrest := List.forall_mem_append.mpr ⟨hkeys, hfilters⟩
  have hdecimal := @notMem_decimal '\'' (by decide) limit.toInt
  have hopening : '\'' ∉ "type ".toList ++ matchExact exact ++ " ".toList := by
    cases exact <;> decide
  constructor
  · intro piece hpiece
    rcases List.mem_cons.mp hpiece with rfl | hpiece
    · exact hopening
    · exact (hrest piece hpiece).1
  · exact fun piece hpiece => (hrest piece hpiece).2
  · unfold clauseTail afterFilters
    simp only [List.mem_append, not_or]
    refine ⟨⟨?_, by decide⟩, hdecimal⟩
    split_ifs
    · exact notMem_afterKeys _ _
    · decide

/-! ## Its words -/

theorem words_append (before after : Str) :
    words (before ++ ' ' :: after) = words before ++ words after := by
  unfold words
  rw [List.splitOn_append_cons_self, List.filter_append]

theorem words_of_notMem {text : Str} (hblank : ' ' ∉ text) (hne : text ≠ []) :
    words text = [text] := by
  unfold words
  rw [List.splitOn_eq_singleton hblank]
  simp [hne]

theorem words_decimal (value : ℤ) : words (decimal value) = [decimal value] := by
  have hblank := @notMem_decimal ' ' (by decide) value
  apply words_of_notMem hblank
  unfold decimal
  exact List.append_ne_nil_of_right_ne_nil _
    (List.ne_nil_of_length_pos Nat.length_toDigits_pos)

theorem words_afterType_append (fromSeqId : Int64) (after : Str) :
    words (afterType fromSeqId ++ after) =
      ["and".toList, "seq_id".toList, ">".toList,
        decimal fromSeqId.toInt] ++ words after := by
  have hopen : " and seq_id > ".toList = " and seq_id >".toList ++ [' '] := by
    decide
  have hblank : " ".toList = [' '] := by decide
  have hwords : words " and seq_id >".toList =
      ["and".toList, "seq_id".toList, ">".toList] := by decide +kernel
  unfold afterType
  rw [hopen, hblank, List.append_assoc, List.append_assoc, List.append_assoc,
    List.singleton_append, List.singleton_append, words_append, words_append,
    hwords, words_decimal]
  simp

theorem pieceToken_arrayPieces (opening : Str) {values : List Str}
    (hvalues : values ≠ []) :
    (arrayPieces opening values).flatMap pieceToken =
      (words opening).map .word ++ listTokens values := by
  have hwords : words ",".toList = [",".toList] := by decide +kernel
  have hcomma : ∀ other, pieceToken (",".toList, other) =
      [.word ",".toList, .literal other] := by
    intro other
    rw [pieceToken, hwords]
    rfl
  cases values with
  | nil => exact absurd rfl hvalues
  | cons value values =>
      rw [arrayPieces, List.flatMap_cons, List.flatMap_map, pieceToken,
        listTokens, List.append_assoc]
      simp only [hcomma]
      rfl

theorem pieceToken_filterPieces (opening after : Str)
    {filters : List (Str × List Str)} (hfilters : ∀ e ∈ filters, e.2 ≠ []) :
    (filterPieces opening filters).flatMap pieceToken ++
        (words (afterFilters opening filters ++ ' ' :: after)).map .word =
      (words opening).map .word ++
        (filters.flatMap fun e => .word "and".toList ::
          (Condition.fieldAmong e.1 e.2).tokens) ++
            (words after).map .word := by
  induction filters generalizing opening with
  | nil => simp [filterPieces, afterFilters, words_append]
  | cons e filters ih =>
      obtain ⟨hvalues, hrest⟩ := List.forall_mem_cons.mp hfilters
      have hafter : afterFilters opening (e :: filters) =
          afterFilters ")".toList filters := by
        simp [afterFilters]
      have hfield : " and data->>".toList = ' ' :: "and data->>".toList := by
        decide
      have hfieldWords : words "and data->>".toList =
          ["and".toList, "data->>".toList] := by decide +kernel
      have hin : words " in (".toList = ["in".toList, "(".toList] := by
        decide +kernel
      have hclose : words ")".toList = [")".toList] := by decide +kernel
      rw [filterPieces, List.flatMap_cons, List.flatMap_append, hafter,
        pieceToken_arrayPieces _ hvalues, List.append_assoc,
        List.append_assoc, ih ")".toList hrest, pieceToken, hfield,
        words_append, hfieldWords, hin, hclose, List.flatMap_cons]
      simp [Condition.tokens]

theorem pieceToken_keyPieces (fromSeqId : Int64) (mustExistKeys : List Str) :
    (keyPieces fromSeqId mustExistKeys).flatMap pieceToken ++
        (words (afterKeys fromSeqId mustExistKeys)).map .word =
      (.word "and".toList :: (Condition.seqIdAfter fromSeqId).tokens) ++
        (if mustExistKeys = [] then []
          else .word "and".toList ::
            (Condition.keysPresent mustExistKeys).tokens) := by
  unfold keyPieces afterKeys
  by_cases hkeys : mustExistKeys = []
  · have hblank : words " ".toList = [] := by decide +kernel
    rw [if_pos hkeys, if_pos hkeys, hkeys, words_afterType_append, hblank]
    rfl
  · have hdata : words " and data ?& array[".toList =
        ["and".toList, "data".toList, "?&".toList, "array[".toList] := by
      decide +kernel
    have hclose : words ("]".toList ++ " ".toList) = ["]".toList] := by
      decide +kernel
    rw [if_neg hkeys, if_neg hkeys, pieceToken_arrayPieces _ hkeys,
      words_afterType_append, hdata, hclose]
    simp [Condition.tokens]

theorem pieceToken_type (type : Str) (exact : Bool) :
    pieceToken ("type ".toList ++ matchExact exact ++ " ".toList, type) =
      [.word "type".toList, .word (matchExact exact), .literal type] := by
  have hwords : words ("type ".toList ++ matchExact exact ++ " ".toList) =
      ["type".toList, matchExact exact] := by
    cases exact <;> decide +kernel
  rw [pieceToken, hwords]
  rfl

theorem words_limit (limit : Int32) :
    words ("limit ".toList ++ decimal limit.toInt) =
      ["limit".toList, decimal limit.toInt] := by
  have hblank : "limit ".toList = "limit".toList ++ [' '] := by decide
  have hwords : words "limit".toList = ["limit".toList] := by decide +kernel
  rw [hblank, List.append_assoc, List.singleton_append, words_append,
    hwords, words_decimal]
  rfl

theorem clauseTail_eq (fromSeqId : Int64) (limit : Int32)
    (mustExistKeys : List Str) (filters : List (Str × List Str)) :
    clauseTail fromSeqId limit mustExistKeys filters =
      afterFilters (afterKeys fromSeqId mustExistKeys) filters ++
        ' ' :: ("limit ".toList ++ decimal limit.toInt) := by
  have hblank : " limit ".toList = [' '] ++ "limit ".toList := by decide
  unfold clauseTail
  rw [hblank]
  simp only [List.append_assoc, List.cons_append, List.nil_append]

theorem conjunction_searchConditions (type : Str) (fromSeqId : Int64)
    (exact : Bool) (mustExistKeys : List Str)
    (filters : List (Str × List Str)) :
    conjunction (searchConditions type fromSeqId exact mustExistKeys
        filters) =
      [.word "type".toList, .word (matchExact exact), .literal type] ++
        (((.word "and".toList :: (Condition.seqIdAfter fromSeqId).tokens) ++
          (if mustExistKeys = [] then []
            else .word "and".toList ::
              (Condition.keysPresent mustExistKeys).tokens)) ++
          filters.flatMap fun e => .word "and".toList ::
            (Condition.fieldAmong e.1 e.2).tokens) := by
  unfold searchConditions
  split_ifs
  · simp [conjunction, Condition.tokens, List.flatMap_map]
  · simp [conjunction, Condition.tokens, List.flatMap_map]

/-- The literals of the clause and the words between them are those of the
conditions. -/
theorem pieceTokens_clause (type : Str) (fromSeqId : Int64) (limit : Int32)
    (exact : Bool) (mustExistKeys : List Str)
    {filters : List (Str × List Str)} (hfilters : ∀ e ∈ filters, e.2 ≠ []) :
    pieceTokens (clausePieces type fromSeqId exact mustExistKeys filters,
        clauseTail fromSeqId limit mustExistKeys filters) =
      conjunction (searchConditions type fromSeqId exact mustExistKeys
          filters) ++
        [.word "limit".toList, .word (decimal limit.toInt)] := by
  have hkeys := pieceToken_keyPieces fromSeqId mustExistKeys
  have hrest := pieceToken_filterPieces (afterKeys fromSeqId mustExistKeys)
    ("limit ".toList ++ decimal limit.toInt) hfilters
  rw [conjunction_searchConditions, ← hkeys, clauseTail_eq]
  unfold pieceTokens clausePieces
  dsimp only
  rw [List.flatMap_cons, pieceToken_type, List.flatMap_append,
    List.append_assoc, List.append_assoc, hrest, words_limit]
  simp only [List.append_assoc]
  rfl

/-! ## Reading it back -/

def SqlToken.value? : SqlToken → Option Str
  | .word _ => none
  | .literal value => some value

theorem values_words (texts : List Str) :
    (texts.map SqlToken.word).filterMap SqlToken.value? = [] := by
  induction texts with
  | nil => rfl
  | cons text texts ih => exact ih

theorem values_pieceTokens (parts : List (Str × Str) × Str) :
    (pieceTokens parts).filterMap SqlToken.value? = parts.1.map Prod.snd := by
  obtain ⟨pieces, tail⟩ := parts
  unfold pieceTokens
  rw [List.filterMap_append, values_words, List.append_nil]
  induction pieces with
  | nil => rfl
  | cons piece pieces ih =>
      dsimp only at ih
      rw [List.flatMap_cons, List.filterMap_append, ih, pieceToken,
        List.filterMap_append, values_words]
      rfl

theorem snd_arrayPieces (opening : Str) (values : List Str) :
    (arrayPieces opening values).map Prod.snd = values := by
  cases values with
  | nil => rfl
  | cons value values =>
      rw [arrayPieces, List.map_cons, List.map_map]
      simp [Function.comp_def]

theorem snd_filterPieces (opening : Str) (filters : List (Str × List Str)) :
    (filterPieces opening filters).map Prod.snd =
      filters.flatMap fun e => e.1 :: e.2 := by
  induction filters generalizing opening with
  | nil => rfl
  | cons e filters ih =>
      rw [filterPieces, List.map_cons, List.map_append, snd_arrayPieces, ih]
      rfl

theorem snd_clausePieces (type : Str) (fromSeqId : Int64) (exact : Bool)
    (mustExistKeys : List Str) (filters : List (Str × List Str)) :
    (clausePieces type fromSeqId exact mustExistKeys filters).map Prod.snd =
      searchTexts type mustExistKeys filters := by
  unfold clausePieces keyPieces searchTexts
  rw [List.map_cons, List.map_append, snd_arrayPieces, snd_filterPieces]
  rfl

section Reading

variable {dbSchema type sql : Str} {fromSeqId : Int64} {limit : Int32}
  {exact : Bool} {mustExistKeys : List Str} {filters : List (Str × List Str)}

theorem texts_of_searchesExactly (hfilters : ∀ e ∈ filters, e.2 ≠ [])
    (hsql : searchStatement dbSchema type fromSeqId limit exact mustExistKeys
      filters = some sql)
    (hsearches : SearchesExactly dbSchema type fromSeqId limit exact
      mustExistKeys filters sql) :
    ∀ text ∈ searchTexts type mustExistKeys filters,
      '\'' ∉ text ∧ '\x00' ∉ text := by
  have hvalues := snd_clausePieces type fromSeqId exact mustExistKeys filters
  obtain ⟨clause, hclause, htokens⟩ := hsearches
  rw [searchStatement_eq hsql] at hclause
  rw [← List.append_cancel_left hclause] at htokens
  obtain ⟨parts, hlex, hparts⟩ := Option.map_eq_some_iff.mp htokens
  have hsame : parts.1.map Prod.snd =
      searchTexts type mustExistKeys filters := by
    rw [← values_pieceTokens, hparts, ← pieceTokens_clause type fromSeqId limit
      exact mustExistKeys hfilters, values_pieceTokens, hvalues]
  have hnul : ∀ text ∈ searchTexts type mustExistKeys filters,
      '\x00' ∉ text := by
    intro text htext hmem
    rw [← hsame] at htext
    obtain ⟨piece, hpiece, rfl⟩ := List.mem_map.mp htext
    exact nul_notMem_clauseText _ _ _ _ _ _ (mem_of_lex hlex hpiece hmem)
  rw [clauseText_eq_render fromSeqId limit exact hfilters hnul] at hlex
  have hquote := notMem_of_lex_render (separated_clause _ _ _ _ _ _) hlex
    (hsame.trans hvalues.symm)
  intro text htext
  refine ⟨?_, hnul text htext⟩
  rw [← hvalues] at htext
  obtain ⟨piece, hpiece, rfl⟩ := List.mem_map.mp htext
  exact hquote piece hpiece

theorem searchesExactly_of_texts (hfilters : ∀ e ∈ filters, e.2 ≠ [])
    (hsql : searchStatement dbSchema type fromSeqId limit exact mustExistKeys
      filters = some sql)
    (htexts : ∀ text ∈ searchTexts type mustExistKeys filters,
      '\'' ∉ text ∧ '\x00' ∉ text) :
    SearchesExactly dbSchema type fromSeqId limit exact mustExistKeys filters
      sql := by
  have hquote : ∀ piece ∈ clausePieces type fromSeqId exact mustExistKeys
      filters, '\'' ∉ piece.2 := by
    intro piece hpiece
    have htext := List.mem_map_of_mem (f := Prod.snd) hpiece
    rw [snd_clausePieces] at htext
    exact (htexts _ htext).1
  refine ⟨_, searchStatement_eq hsql, ?_⟩
  rw [clauseText_eq_render fromSeqId limit exact hfilters
    fun text htext => (htexts text htext).2]
  unfold tokens
  rw [lex_render (separated_clause _ _ _ _ _ _) hquote, Option.map_some,
    pieceTokens_clause type fromSeqId limit exact mustExistKeys hfilters]

/-- The statement of a search asks for exactly what the arguments say when and
only when none of the texts between apostrophes has an apostrophe or a NUL. -/
theorem searchStatement_searchesExactly_iff
    (hfilters : ∀ e ∈ filters, e.2 ≠ [])
    (hsql : searchStatement dbSchema type fromSeqId limit exact mustExistKeys
      filters = some sql) :
    SearchesExactly dbSchema type fromSeqId limit exact mustExistKeys filters
        sql ↔
      ∀ text ∈ searchTexts type mustExistKeys filters,
        '\'' ∉ text ∧ '\x00' ∉ text :=
  ⟨texts_of_searchesExactly hfilters hsql,
    searchesExactly_of_texts hfilters hsql⟩

end Reading

def droidFilters (name : String) : List (Str × List Str) :=
  [("model".toList, ["2-1B".toList, "R2".toList]),
    ("name".toList, [name.toList])]

theorem droidSearch_searchesExactly :
    ∃ sql, searchStatement "master".toList "Droid".toList 0 10 true
        ["id".toList] (droidFilters "Zuckuss") = some sql ∧
      SearchesExactly "master".toList "Droid".toList 0 10 true
        ["id".toList] (droidFilters "Zuckuss") sql := by
  have hsome : (searchStatement "master".toList "Droid".toList 0 10 true
      ["id".toList] (droidFilters "Zuckuss")).isSome = true := by
    decide +kernel
  obtain ⟨sql, hsql⟩ := Option.isSome_iff_exists.mp hsome
  refine ⟨sql, hsql, ?_⟩
  apply (searchStatement_searchesExactly_iff (by decide) hsql).mpr
  decide +kernel

/-- A name with an apostrophe ends its literal. -/
theorem apostropheSearch_not_searchesExactly :
    ¬ ∀ (dbSchema type : Str) (fromSeqId : Int64) (limit : Int32)
        (exact : Bool) (mustExistKeys : List Str)
        (filters : List (Str × List Str)) (sql : Str),
      (∀ e ∈ filters, e.2 ≠ []) →
      searchStatement dbSchema type fromSeqId limit exact mustExistKeys
        filters = some sql →
      SearchesExactly dbSchema type fromSeqId limit exact mustExistKeys
        filters sql := by
  intro hclaim
  have hsome : (searchStatement "master".toList "Droid".toList 0 10 true []
      (droidFilters "D'Qar")).isSome = true := by
    decide +kernel
  obtain ⟨sql, hsql⟩ := Option.isSome_iff_exists.mp hsome
  have hsearches := hclaim _ _ _ _ _ _ _ sql (by decide) hsql
  have htexts := texts_of_searchesExactly (by decide) hsql hsearches
  have hquote := (htexts "D'Qar".toList (by decide)).1
  exact absurd (by decide : '\'' ∈ "D'Qar".toList) hquote

end StoreCpp
