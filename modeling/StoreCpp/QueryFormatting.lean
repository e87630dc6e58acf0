import StoreCpp.Extensions
import StoreCpp.FormatTemplate

/-!
# Queries that are formatted twice

`search`, `collect` and `one` compile a query with `string_format` and pass it
to `list`, which uses it as the format of a second `string_format` with
arguments of its own.
-/

namespace StoreCpp

open Printf

def typeFilter (type : Str) : Str :=
  if 0 < type.length then wrapString type else "null".toList

def inCollection (keys : List Str) : Str :=
  join (keys.map fun s => wrapString s) ",".toList

namespace Client

def list (version : Str) (A : TypeName) (offset limit : Int32)
    (sortKey sortDirection query : Str) : Option Str :=
  stringFormat query [
    .str version,
    .str (resolveTypeToString A),
    .str sortKey,
    .str sortDirection,
    .int offset,
    .int limit]

def searchSql : Str :=
  "select current from %s.%s where current->>'%s' %s '%s' ".toList ++
  "and type = coalesce(%s, type) ".toList ++
  "order by current->>'%s' %s offset %d limit %d".toList

def collectSql : Str :=
  "select current from %s.%s where type = '%s' ".toList ++
  "and %s in (%s) order by %s".toList

def oneSql : Str :=
  "select current from %s.%s where current->>'%s' = '%s' ".toList ++
  "and type = coalesce(%s, type) limit 1".toList

def search (version : Str) (A : TypeName) (field search type : Str)
    (offset limit : Int32) (sortKey sortDirection : Str) (exact : Bool) :
    Option Str :=
  let matchExact := if exact then "=" else "~*"
  stringFormat searchSql [
    .str version,
    .str (resolveTypeToString A),
    .str field,
    .str matchExact.toList,
    .str search,
    .str (typeFilter type),
    .str sortKey,
    .str sortDirection,
    .int offset,
    .int limit]

def collect (version : Str) (A : TypeName) (field type : Str)
    (keys : List Str) : Option Str :=
  stringFormat collectSql [
    .str version,
    .str (resolveTypeToString A),
    .str type,
    .str field,
    .str (inCollection keys),
    .str field]

def one (version : Str) (A : TypeName) (field search type : Str) :
    Option Str :=
  stringFormat oneSql [
    .str version,
    .str (resolveTypeToString A),
    .str field,
    .str search,
    .str (typeFilter type)]

end Client

inductive Request where
  | search (field search type : Str) (offset limit : Int32)
      (sortKey sortDirection : Str) (exact : Bool)
  | collect (field type : Str) (keys : List Str)
  | one (field search type : Str)

namespace Request

def query (version : Str) (A : TypeName) : Request → Option Str
  | search field text type offset limit sortKey sortDirection exact =>
      Client.search version A field text type offset limit sortKey
        sortDirection exact
  | collect field type keys => Client.collect version A field type keys
  | one field text type => Client.one version A field text type

def executed (version : Str) (A : TypeName) (query : Str) :
    Request → Option Str
  | search _ _ _ offset limit sortKey sortDirection _ =>
      Client.list version A offset limit sortKey sortDirection query
  | collect _ _ keys =>
      Client.list version A 0 (Int32.ofNat keys.length) "id".toList
        "ASC".toList query
  | one _ _ _ =>
      Client.list version A 0 1 "id".toList "ASC".toList query

def texts : Request → List Str
  | search field text type _ _ sortKey sortDirection _ =>
      [field, text, type, sortKey, sortDirection]
  | collect field type keys => [field, type, inCollection keys]
  | one field text type => [field, text, type]

/-- No text that the query contains has a percent sign, as far as it is
passed on. -/
def PercentFree (version : Str) (request : Request) : Prop :=
  ∀ text ∈ version :: request.texts, '%' ∉ cstr text

def sortArguments : Request → List Str
  | search _ _ _ _ _ sortKey sortDirection _ => [sortKey, sortDirection]
  | collect _ _ _ => ["id".toList, "ASC".toList]
  | one _ _ _ => ["id".toList, "ASC".toList]

def searchTemplate : List Directive := [
  .text "select current from ".toList, .string, .text ".".toList, .string,
  .text " where current->>'".toList, .string, .text "' ".toList, .string,
  .text " '".toList, .string, .text "' and type = coalesce(".toList,
  .string, .text ", type) order by current->>'".toList, .string,
  .text "' ".toList, .string, .text " offset ".toList, .int,
  .text " limit ".toList, .int]

def collectTemplate : List Directive := [
  .text "select current from ".toList, .string, .text ".".toList, .string,
  .text " where type = '".toList, .string, .text "' and ".toList, .string,
  .text " in (".toList, .string, .text ") order by ".toList, .string]

def oneTemplate : List Directive := [
  .text "select current from ".toList, .string, .text ".".toList, .string,
  .text " where current->>'".toList, .string, .text "' = '".toList,
  .string, .text "' and type = coalesce(".toList, .string,
  .text ", type) limit 1".toList]

def template : Request → List Directive
  | search .. => searchTemplate
  | collect .. => collectTemplate
  | one .. => oneTemplate

def arguments (version : Str) (A : TypeName) : Request → List Arg
  | search field text type offset limit sortKey sortDirection exact => [
      .str version, .str (resolveTypeToString A), .str field,
      .str (if exact then "=" else "~*").toList, .str text,
      .str (typeFilter type), .str sortKey, .str sortDirection,
      .int offset, .int limit]
  | collect field type keys => [
      .str version, .str (resolveTypeToString A), .str type, .str field,
      .str (inCollection keys), .str field]
  | one field text type => [
      .str version, .str (resolveTypeToString A), .str field, .str text,
      .str (typeFilter type)]

theorem template_avoids_percent (request : Request) :
    Avoids '%' request.template := by
  cases request <;> exact of_decide_eq_true rfl

theorem template_avoids_nul (request : Request) :
    Avoids '\x00' request.template := by
  cases request <;> exact of_decide_eq_true rfl

theorem template_fits (version : Str) (A : TypeName) (request : Request) :
    Fits request.template (request.arguments version A) := by
  cases request <;> rfl

theorem query_eq (version : Str) (A : TypeName) (request : Request) :
    request.query version A =
      stringFormat (source request.template)
        (request.arguments version A) := by
  cases request with
  | search field text type offset limit sortKey sortDirection exact =>
      have hformat : Client.searchSql = source searchTemplate := by
        decide +kernel
      rw [query, Client.search, hformat]
      rfl
  | collect field type keys =>
      have hformat : Client.collectSql = source collectTemplate := by
        decide +kernel
      rw [query, Client.collect, hformat]
      rfl
  | one field text type =>
      have hformat : Client.oneSql = source oneTemplate := by
        decide +kernel
      rw [query, Client.one, hformat]
      rfl

end Request

/-! ## Percent signs of the arguments -/

theorem eq_percent_of_toLower {c : Char} (hlower : c.toLower = '%') :
    c = '%' := by
  unfold Char.toLower at hlower
  split_ifs at hlower with hupper
  · have hval := congrArg (UInt32.toNat ∘ Char.val) hlower
    have hle := UInt32.le_iff_toNat_le.mp hupper.2
    have hge := UInt32.le_iff_toNat_le.mp hupper.1
    simp [UInt32.toNat_add] at hval hle hge
    omega
  · exact hlower

theorem percentFree_resolveTypeToString (A : TypeName) :
    '%' ∉ cstr (resolveTypeToString A) := by
  intro hmem
  rcases List.mem_append.mp (cstr_subset _ hmem) with hname | hpad
  · obtain ⟨c, hc, hlower⟩ := List.mem_map.mp hname
    rw [eq_percent_of_toLower hlower, List.mem_reverse] at hc
    have hdemangled := (List.takeWhile_subset _) hc
    exact A.noPercent (List.mem_reverse.mp hdemangled)
  · exact absurd (List.eq_of_mem_replicate hpad) (by decide)

theorem percent_mem_cstr_concat (text : Str) :
    '%' ∈ cstr (text ++ "'".toList) ↔ '%' ∈ cstr text := by
  unfold cstr
  rw [List.takeWhile_append]
  split_ifs with hlength
  · rw [(List.takeWhile_prefix _).eq_of_length hlength]
    simp
  · rfl

theorem percent_mem_typeFilter (type : Str) :
    '%' ∈ cstr (typeFilter type) ↔ '%' ∈ cstr type := by
  unfold typeFilter
  split_ifs with hlength
  · have hopen : cstr (wrapString type) =
        '\'' :: cstr (type ++ "'".toList) := rfl
    rw [hopen, List.mem_cons, percent_mem_cstr_concat]
    simp
  · have hnil : type = [] := List.length_eq_zero_iff.mp (by omega)
    rw [hnil]
    decide

namespace Request

theorem percent_mem_arguments (version : Str) (A : TypeName)
    (request : Request) :
    (∃ text, .str text ∈ request.arguments version A ∧ '%' ∈ cstr text) ↔
      ¬ request.PercentFree version := by
  have hname := percentFree_resolveTypeToString A
  unfold PercentFree
  push Not
  cases request with
  | search field text type offset limit sortKey sortDirection exact =>
      have hexact : '%' ∉ cstr (if exact then "=" else "~*").toList := by
        cases exact <;> decide
      simp [arguments, texts, hname, hexact, percent_mem_typeFilter]
  | collect field type keys =>
      simp [arguments, texts, hname]
      tauto
  | one field text type =>
      simp [arguments, texts, hname, percent_mem_typeFilter]

theorem query_eq_some {version : Str} {A : TypeName} {request : Request}
    {query : Str} (hquery : request.query version A = some query) :
    query.length ≤ intMax ∧ '\x00' ∉ query ∧
      ('%' ∉ query ↔ request.PercentFree version) := by
  rw [query_eq, stringFormat_eq_some, format_source
    request.template_avoids_percent request.template_avoids_nul
    (request.template_fits version A)] at hquery
  have hfits := request.template_fits version A
  refine ⟨hquery.2,
    nul_notMem_fill request.template_avoids_nul hfits hquery.1, ?_⟩
  rw [mem_fill_iff (by decide) request.template_avoids_percent hfits hquery.1,
    percent_mem_arguments, not_not]

theorem executed_eq (version : Str) (A : TypeName) (query : Str)
    (request : Request) :
    ∃ sortKey sortDirection offset limit,
      request.sortArguments = [sortKey, sortDirection] ∧
        request.executed version A query =
          Client.list version A offset limit sortKey sortDirection query := by
  cases request <;> exact ⟨_, _, _, _, rfl, rfl⟩

/-- A compiled query without percent signs is executed as it is.  When the
schema and the sort arguments have no percent sign, only such queries are. -/
theorem executed_eq_query_iff {version : Str} {A : TypeName}
    {request : Request} {query : Str}
    (hquery : request.query version A = some query) :
    (request.PercentFree version →
      request.executed version A query = some query) ∧
    ((∀ text ∈ version :: request.sortArguments, '%' ∉ cstr text) →
      request.executed version A query = some query →
        request.PercentFree version) := by
  obtain ⟨hlength, hnul, hpercent⟩ := query_eq_some hquery
  obtain ⟨sortKey, sortDirection, offset, limit, hsort, hexecuted⟩ :=
    executed_eq version A query request
  rw [hexecuted, Client.list, stringFormat_eq_some, ← hpercent, hsort]
  constructor
  · intro hfree
    exact ⟨format_eq_self hfree hnul _, hlength⟩
  · rintro htexts ⟨hformat, _⟩
    refine (format_eq_self_iff ?_ hnul).mp hformat
    have hname := percentFree_resolveTypeToString A
    simpa [Arg.PercentFree, hname] using htexts

end Request

def droidType : TypeName where
  demangled := "test::Droid".toList
  noPercent := by decide

def searchByName (text : Str) : Request :=
  .search "name".toList text [] 0 10 "id".toList "Asc".toList true

theorem searchByName_executed :
    ∃ query,
      (searchByName "c3po".toList).query "master".toList droidType =
        some query ∧
      (searchByName "c3po".toList).executed "master".toList droidType query =
        some query := by
  have hsome : ((searchByName "c3po".toList).query "master".toList
      droidType).isSome = true := by decide +kernel
  obtain ⟨query, hquery⟩ := Option.isSome_iff_exists.mp hsome
  refine ⟨query, hquery, (Request.executed_eq_query_iff hquery).1 ?_⟩
  unfold Request.PercentFree
  decide

/-- The search text `100%%` loses a percent sign. -/
theorem searchPercent_notExecuted :
    ¬ ∀ (version : Str) (A : TypeName) (request : Request) (query : Str),
      request.query version A = some query →
        request.executed version A query = some query := by
  intro hclaim
  have hdiffers : (((searchByName "100%%".toList).query "master".toList
      droidType).bind fun query => (searchByName "100%%".toList).executed
        "master".toList droidType query) ≠
      (searchByName "100%%".toList).query "master".toList droidType := by
    decide +kernel
  apply hdiffers
  cases hquery : (searchByName "100%%".toList).query "master".toList
      droidType with
  | none => rfl
  | some query => exact hclaim _ _ _ _ hquery

end StoreCpp
