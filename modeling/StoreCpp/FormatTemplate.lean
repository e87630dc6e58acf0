import StoreCpp.Printf

/-!
# Formats made of literal text and plain conversions

Most formats of a program are literal text with the conversions `%s`, `%d` and
`%lld` in between.  Such a format is the source of a template, and formatting
it fills the template in.
-/

namespace Printf

inductive Directive where
  | text (literal : List Char)
  | string
  | int
  | longLong
  deriving DecidableEq

def Directive.source : Directive → List Char
  | .text literal => literal
  | .string => ['%', 's']
  | .int => ['%', 'd']
  | .longLong => ['%', 'l', 'l', 'd']

def source (template : List Directive) : List Char :=
  template.flatMap Directive.source

def fill : List Directive → List Arg → Option (List Char)
  | [], _ => some []
  | .text literal :: template, args =>
      (fill template args).map (literal ++ ·)
  | .string :: template, .str text :: args =>
      (fill template args).map (cstr text ++ ·)
  | .int :: template, .int value :: args =>
      (fill template args).map (decimal value.toInt ++ ·)
  | .longLong :: template, .longLong value :: args =>
      (fill template args).map (decimal value.toInt ++ ·)
  | _ :: _, _ => none

def Directive.literal : Directive → List Char
  | .text literal => literal
  | _ => []

def Avoids (c : Char) (template : List Directive) : Prop :=
  ∀ directive ∈ template, c ∉ directive.literal

instance (c : Char) (template : List Directive) :
    Decidable (Avoids c template) := by
  unfold Avoids
  infer_instance

/-- Each conversion of the template has its argument and no argument is left
over. -/
def Fits : List Directive → List Arg → Prop
  | [], args => args = []
  | .text _ :: template, args => Fits template args
  | .string :: template, .str _ :: args => Fits template args
  | .int :: template, .int _ :: args => Fits template args
  | .longLong :: template, .longLong _ :: args => Fits template args
  | _ :: _, _ => False

theorem Fits.string {template : List Directive} {args : List Arg}
    (hfits : Fits (.string :: template) args) :
    ∃ text rest, args = .str text :: rest ∧ Fits template rest := by
  cases args with
  | nil => cases hfits
  | cons arg args =>
      cases arg with
      | str text => exact ⟨text, args, rfl, hfits⟩
      | int value => cases hfits
      | longLong value => cases hfits

theorem Fits.int {template : List Directive} {args : List Arg}
    (hfits : Fits (.int :: template) args) :
    ∃ value rest, args = .int value :: rest ∧ Fits template rest := by
  cases args with
  | nil => cases hfits
  | cons arg args =>
      cases arg with
      | str text => cases hfits
      | int value => exact ⟨value, args, rfl, hfits⟩
      | longLong value => cases hfits

theorem Fits.longLong {template : List Directive} {args : List Arg}
    (hfits : Fits (.longLong :: template) args) :
    ∃ value rest, args = .longLong value :: rest ∧ Fits template rest := by
  cases args with
  | nil => cases hfits
  | cons arg args =>
      cases arg with
      | str text => cases hfits
      | int value => cases hfits
      | longLong value => exact ⟨value, args, rfl, hfits⟩

theorem Avoids.tail {c : Char} {directive : Directive}
    {template : List Directive} (havoids : Avoids c (directive :: template)) :
    Avoids c template :=
  fun other hmem => havoids other (List.mem_cons_of_mem _ hmem)

theorem formatFrom_longLong (value : Int64) (rest : List Char)
    (args : List Arg) :
    formatFrom none ('%' :: 'l' :: 'l' :: 'd' :: rest)
        (.longLong value :: args) =
      (formatFrom none rest args).map (decimal value.toInt ++ ·) := by
  have hfirst : ({} : Spec).feed 'l' =
      .more { length := .l, phase := .length } := by decide
  have hsecond : ({ length := .l, phase := .length } : Spec).feed 'l' =
      .more { length := .ll, phase := .length } := by decide
  have hthird : ({ length := .ll, phase := .length } : Spec).feed 'd' =
      .convert 'd' := by decide
  have hconvert : ({ length := .ll, phase := .length } : Spec).convert 'd'
      (.longLong value) = some (decimal value.toInt) := by
    have hlength : 0 < (Nat.toDigits 10 value.toInt.natAbs).length :=
      Nat.length_toDigits_pos
    have hzero : 1 - (Nat.toDigits 10 value.toInt.natAbs).length = 0 := by
      omega
    simp [Spec.convert, Spec.signedValue, Spec.pad, Spec.sign, Spec.digits,
      decimal, hzero]
  rw [formatFrom, if_pos rfl, formatFrom, hfirst]
  dsimp only
  rw [formatFrom, hsecond]
  dsimp only
  rw [formatFrom, hthird]
  simp [Spec.takeConversion, hconvert]

/-- Formatting the source of a template fills it in. -/
theorem formatFrom_source {template : List Directive} {args : List Arg}
    (hplain : Avoids '%' template) (hfits : Fits template args) :
    formatFrom none (source template) args = fill template args := by
  induction template generalizing args with
  | nil =>
      cases hfits
      rfl
  | cons directive template ih =>
      have hsource : source (directive :: template) =
          directive.source ++ source template := rfl
      rw [hsource]
      cases directive with
      | text literal =>
          have hliteral : '%' ∉ literal := hplain _ List.mem_cons_self
          rw [Directive.source, formatFrom_append_literal hliteral,
            ih hplain.tail hfits, fill]
      | string =>
          obtain ⟨text, rest, rfl, hrest⟩ := hfits.string
          exact (formatFrom_string text _ rest).trans
            (congrArg _ (ih hplain.tail hrest))
      | int =>
          obtain ⟨value, rest, rfl, hrest⟩ := hfits.int
          exact (formatFrom_int value _ rest).trans
            (congrArg _ (ih hplain.tail hrest))
      | longLong =>
          obtain ⟨value, rest, rfl, hrest⟩ := hfits.longLong
          exact (formatFrom_longLong value _ rest).trans
            (congrArg _ (ih hplain.tail hrest))

theorem nul_notMem_source {template : List Directive}
    (hnul : Avoids '\x00' template) : '\x00' ∉ source template := by
  intro hmem
  obtain ⟨directive, hdirective, hmem⟩ := List.mem_flatMap.mp hmem
  cases directive with
  | text literal => exact hnul _ hdirective hmem
  | string => exact absurd hmem (by decide)
  | int => exact absurd hmem (by decide)
  | longLong => exact absurd hmem (by decide)

theorem format_source {template : List Directive} {args : List Arg}
    (hplain : Avoids '%' template) (hnul : Avoids '\x00' template)
    (hfits : Fits template args) :
    format (source template) args = fill template args := by
  unfold format
  rw [cstr_eq_self (nul_notMem_source hnul)]
  exact formatFrom_source hplain hfits

theorem notMem_decimal {c : Char} (hc : c ∉ "-0123456789abcdef*".toList)
    (value : ℤ) : c ∉ decimal value := by
  intro hmem
  rcases List.mem_append.mp hmem with hsign | hdigit
  · split_ifs at hsign
    · have hminus : c = '-' := by simpa using hsign
      exact hc (hminus ▸ by decide)
    · cases hsign
  · obtain ⟨m, rfl⟩ := exists_digitChar_of_mem_toDigits hdigit
    have hcases := digitChar_cases m
    have hsubset : "0123456789abcdef*".toList ⊆
        "-0123456789abcdef*".toList := by decide
    exact hc (hsubset hcases)

/-- A character that neither the literals nor numbers contain is in the output
exactly when a string argument brings it along. -/
theorem mem_fill_iff {template : List Directive} {args : List Arg}
    {c : Char} {out : List Char} (hc : c ∉ "-0123456789abcdef*".toList)
    (havoids : Avoids c template) (hfits : Fits template args)
    (hfill : fill template args = some out) :
    c ∈ out ↔ ∃ text, .str text ∈ args ∧ c ∈ cstr text := by
  induction template generalizing args out with
  | nil =>
      cases hfits
      have hout : out = [] := by simpa [fill] using hfill.symm
      simp [hout]
  | cons directive template ih =>
      cases directive with
      | text literal =>
          obtain ⟨tail, htail, rfl⟩ := Option.map_eq_some_iff.mp hfill
          rw [List.mem_append, ← ih havoids.tail hfits htail]
          have hliteral : c ∉ literal := havoids _ List.mem_cons_self
          simp [hliteral]
      | string =>
          obtain ⟨text, rest, rfl, hrest⟩ := hfits.string
          obtain ⟨tail, htail, rfl⟩ := Option.map_eq_some_iff.mp hfill
          rw [List.mem_append, ih havoids.tail hrest htail]
          simp [or_and_right, exists_or]
      | int =>
          obtain ⟨value, rest, rfl, hrest⟩ := hfits.int
          obtain ⟨tail, htail, rfl⟩ := Option.map_eq_some_iff.mp hfill
          rw [List.mem_append, ih havoids.tail hrest htail]
          simp [notMem_decimal hc]
      | longLong =>
          obtain ⟨value, rest, rfl, hrest⟩ := hfits.longLong
          obtain ⟨tail, htail, rfl⟩ := Option.map_eq_some_iff.mp hfill
          rw [List.mem_append, ih havoids.tail hrest htail]
          simp [notMem_decimal hc]

theorem nul_notMem_fill {template : List Directive} {args : List Arg}
    {out : List Char} (hnul : Avoids '\x00' template)
    (hfits : Fits template args) (hfill : fill template args = some out) :
    '\x00' ∉ out := by
  rw [mem_fill_iff (by decide) hnul hfits hfill]
  rintro ⟨text, _, hmem⟩
  exact nul_notMem_cstr text hmem

end Printf
