import StoreCpp.Printf
import Mathlib.Data.Char
import Mathlib.Data.List.Lex
import Mathlib.Tactic

/-!
# String helpers of the store

A `std::string` is the list of its characters; embedded NULs are ordinary
characters of it and end the text only where `c_str()` is passed on.
-/

namespace StoreCpp

abbrev Str := List Char

abbrev Bytes := List UInt8

def intMax : ℕ := 2147483647

/-- `string_format`: the text that `snprintf` measures and then writes.  It is
undefined when `snprintf` is, and throws when the length is no `int`. -/
def stringFormat (format : Str) (args : List Printf.Arg) : Option Str :=
  (Printf.format format args).filter fun text => text.length ≤ intMax

def join (items : List Str) (separator : Str) : Str :=
  items.foldl (fun result item =>
    (if result.isEmpty then result else result ++ separator) ++ item) []

def wrapString (s : Str) (ch : Str := "'".toList) : Str :=
  ch ++ s ++ ch

structure TypeName where
  demangled : Str
  noPercent : '%' ∉ demangled

/-- `resolve_type_to_string`: the part of the name after its last colon in
lower case, in a string that keeps the length of the whole name. -/
def resolveTypeToString (A : TypeName) : Str :=
  let l := (A.demangled.reverse.takeWhile (· ≠ ':')).reverse
  l.map Char.toLower ++
    List.replicate (A.demangled.length - l.length) '\x00'

theorem stringFormat_eq_some {format text : Str} {args : List Printf.Arg} :
    stringFormat format args = some text ↔
      Printf.format format args = some text ∧ text.length ≤ intMax := by
  simp [stringFormat, Option.filter_eq_some_iff]

theorem join_foldl_eq {result separator : Str} (hresult : result ≠ [])
    (items : List Str) :
    items.foldl (fun result item =>
        (if result.isEmpty then result else result ++ separator) ++ item)
        result =
      result ++ items.flatMap (separator ++ ·) := by
  induction items generalizing result with
  | nil => simp
  | cons item items ih =>
      have hempty : result.isEmpty = false := by simpa using hresult
      rw [List.foldl_cons, hempty, ih (by simp [hresult])]
      simp

theorem join_cons {item : Str} (hitem : item ≠ []) (items : List Str)
    (separator : Str) :
    join (item :: items) separator =
      item ++ items.flatMap (separator ++ ·) := by
  have hfold := @join_foldl_eq item separator hitem items
  simpa [join] using hfold

theorem intercalate_cons_eq (separator item : Str) (items : List Str) :
    separator.intercalate (item :: items) =
      item ++ items.flatMap (separator ++ ·) := by
  induction items generalizing item with
  | nil => simp
  | cons next items ih =>
      rw [List.intercalate_cons_cons, ih next]
      simp

theorem flatMap_inj_of_width {α β : Type*} {f : α → List β}
    (hinj : Function.Injective f) {width : ℕ} (hwidth : width ≠ 0)
    (hlength : ∀ item, (f item).length = width) {first second : List α}
    (hsame : first.flatMap f = second.flatMap f) : first = second := by
  have hne : ∀ item, f item ≠ [] := fun item hnil =>
    hwidth ((hlength item).symm.trans (congrArg List.length hnil))
  induction first generalizing second with
  | nil =>
      cases second with
      | nil => rfl
      | cons item second =>
          rw [List.flatMap_nil, List.flatMap_cons] at hsame
          exact absurd (List.append_eq_nil_iff.mp hsame.symm).1 (hne item)
  | cons item first ih =>
      cases second with
      | nil =>
          rw [List.flatMap_nil, List.flatMap_cons] at hsame
          exact absurd (List.append_eq_nil_iff.mp hsame).1 (hne item)
      | cons other second =>
          rw [List.flatMap_cons, List.flatMap_cons] at hsame
          have hparts := List.append_inj hsame
            ((hlength item).trans (hlength other).symm)
          rw [hinj hparts.1, ih hparts.2]
theorem join_map_cons {α : Type*} {f : α → Str} {first : α}
    (hfirst : f first ≠ []) (rest : List α) (separator : Str) :
    join ((first :: rest).map f) separator =
      f first ++ rest.flatMap fun other => separator ++ f other := by
  rw [List.map_cons, join_cons hfirst, List.flatMap_map]

theorem notMem_join_map {α : Type*} {f : α → Str} {items : List α}
    {separator : Str} {c : Char} (hne : ∀ item ∈ items, f item ≠ [])
    (hseparator : c ∉ separator) (hitems : ∀ item ∈ items, c ∉ f item) :
    c ∉ join (items.map f) separator := by
  cases items with
  | nil => simp [join]
  | cons first rest =>
      obtain ⟨hfirst, hrest⟩ := List.forall_mem_cons.mp hitems
      rw [join_map_cons (hne first List.mem_cons_self), List.mem_append, not_or]
      refine ⟨hfirst, fun hmem => ?_⟩
      obtain ⟨other, hother, hmem⟩ := List.mem_flatMap.mp hmem
      cases List.mem_append.mp hmem with
      | inl hin => exact hseparator hin
      | inr hin => exact hrest other hother hin

end StoreCpp
