import Mathlib.Data.List.Count
import Mathlib.Data.List.TakeWhile
import Mathlib.Tactic

/-!
# The text `snprintf` produces

A call formats a byte string with a list of arguments that are C strings,
`int`s or `long long`s.  The format is read one character at a time: outside
a conversion specification every character is copied, and a `%` starts a
specification that collects flags, width, precision and length modifier until
its conversion character.  The result is undefined (`none`) where ISO C gives
no text for the argument that is passed: a missing argument, a conversion for
another argument type, an unknown conversion, or `%n` and `%p`.
-/

namespace Printf

/-- A C string ends at its first NUL. -/
def cstr (text : List Char) : List Char := text.takeWhile (· ≠ '\x00')

inductive Arg where
  | str (text : List Char)
  | int (value : Int32)
  | longLong (value : Int64)
  deriving DecidableEq

inductive Length where
  | default
  | hh
  | h
  | l
  | ll
  | other
  deriving DecidableEq

inductive Phase where
  | flags
  | width
  | starWidth
  | point
  | precision
  | length
  deriving DecidableEq

structure Spec where
  leftAlign : Bool := false
  plus : Bool := false
  space : Bool := false
  alternate : Bool := false
  zeroPad : Bool := false
  width : ℕ := 0
  precision : Option ℕ := none
  length : Length := .default
  phase : Phase := .flags
  deriving DecidableEq

inductive Feed where
  | more (spec : Spec)
  | takeWidth
  | takePrecision
  | percent
  | convert (conversion : Char)
  | invalid
  deriving DecidableEq

def Spec.digit (spec : Spec) (d : ℕ) : Feed :=
  match spec.phase with
  | .flags =>
      if d = 0 then .more { spec with zeroPad := true }
      else .more { spec with width := d, phase := .width }
  | .width => .more { spec with width := spec.width * 10 + d }
  | .point => .more { spec with precision := some d, phase := .precision }
  | .precision =>
      .more { spec with precision := some (spec.precision.getD 0 * 10 + d) }
  | .starWidth | .length => .invalid

def Spec.flag (spec : Spec) (flagged : Spec) : Feed :=
  if spec.phase = .flags then .more flagged else .invalid

def Spec.lengthModifier (spec : Spec) (c : Char) : Feed :=
  match spec.length, c with
  | .default, 'h' => .more { spec with length := .h, phase := .length }
  | .default, 'l' => .more { spec with length := .l, phase := .length }
  | .default, _ => .more { spec with length := .other, phase := .length }
  | .h, 'h' => .more { spec with length := .hh }
  | .l, 'l' => .more { spec with length := .ll }
  | _, _ => .invalid

def Spec.feed (spec : Spec) (c : Char) : Feed :=
  if c = '%' then (if spec = {} then .percent else .invalid)
  else if c = '-' then spec.flag { spec with leftAlign := true }
  else if c = '+' then spec.flag { spec with plus := true }
  else if c = ' ' then spec.flag { spec with space := true }
  else if c = '#' then spec.flag { spec with alternate := true }
  else if c = '*' then
    match spec.phase with
    | .flags => .takeWidth
    | .point => .takePrecision
    | _ => .invalid
  else if c = '.' then
    match spec.phase with
    | .flags | .width | .starWidth =>
        .more { spec with precision := some 0, phase := .point }
    | _ => .invalid
  else if c.isDigit then spec.digit (c.toNat - '0'.toNat)
  else if c ∈ ['h', 'l', 'j', 'z', 't', 'L'] then spec.lengthModifier c
  else .convert c

def Spec.withWidth (spec : Spec) (value : Int32) : Spec :=
  if value.toInt < 0 then
    { spec with leftAlign := true, width := value.toInt.natAbs, phase := .starWidth }
  else { spec with width := value.toInt.natAbs, phase := .starWidth }

def Spec.withPrecision (spec : Spec) (value : Int32) : Spec :=
  if value.toInt < 0 then { spec with precision := none, phase := .length }
  else { spec with precision := some value.toInt.natAbs, phase := .length }

def Spec.signedValue (spec : Spec) : Arg → Option ℤ
  | .int value =>
      match spec.length with
      | .default => some value.toInt
      | .h => some value.toInt16.toInt
      | .hh => some value.toInt8.toInt
      | _ => none
  | .longLong value => if spec.length = .ll then some value.toInt else none
  | .str _ => none

def Spec.unsignedValue (spec : Spec) : Arg → Option ℕ
  | .int value =>
      match spec.length with
      | .default => some value.toUInt32.toNat
      | .h => some value.toInt16.toUInt16.toNat
      | .hh => some value.toInt8.toUInt8.toNat
      | _ => none
  | .longLong value =>
      if spec.length = .ll then some value.toUInt64.toNat else none
  | .str _ => none

def Spec.digits (spec : Spec) (base n : ℕ) : List Char :=
  let text := if spec.precision = some 0 ∧ n = 0 then []
    else Nat.toDigits base n
  List.replicate (spec.precision.getD 1 - text.length) '0' ++ text

def Spec.pad (spec : Spec) (sign body : List Char) : List Char :=
  let missing := spec.width - (sign.length + body.length)
  if spec.leftAlign then sign ++ body ++ List.replicate missing ' '
  else if spec.zeroPad ∧ spec.precision = none then
    sign ++ List.replicate missing '0' ++ body
  else List.replicate missing ' ' ++ sign ++ body

def Spec.padText (spec : Spec) (body : List Char) : List Char :=
  let missing := spec.width - body.length
  if spec.leftAlign then body ++ List.replicate missing ' '
  else List.replicate missing ' ' ++ body

def Spec.sign (spec : Spec) (value : ℤ) : List Char :=
  if value < 0 then ['-']
  else if spec.plus then ['+']
  else if spec.space then [' ']
  else []

def Spec.radixPrefix (spec : Spec) (conversion : Char) (n : ℕ) : List Char :=
  if spec.alternate ∧ n ≠ 0 then
    if conversion = 'x' then ['0', 'x']
    else if conversion = 'X' then ['0', 'X']
    else if conversion = 'o' then ['0']
    else []
  else []

def Spec.convert (spec : Spec) (conversion : Char) (arg : Arg) :
    Option (List Char) :=
  if conversion = 's' then
    match arg, spec.length with
    | .str text, .default =>
        some (spec.padText ((cstr text).take
          (spec.precision.getD (cstr text).length)))
    | _, _ => none
  else if conversion = 'c' then
    match arg, spec.length with
    | .int value, .default =>
        some (spec.padText [Char.ofNat value.toInt8.toUInt8.toNat])
    | _, _ => none
  else if conversion = 'd' ∨ conversion = 'i' then
    (spec.signedValue arg).map fun value =>
      spec.pad (spec.sign value) (spec.digits 10 value.natAbs)
  else if conversion = 'u' then
    (spec.unsignedValue arg).map fun n => spec.pad [] (spec.digits 10 n)
  else if conversion = 'o' then
    (spec.unsignedValue arg).map fun n =>
      spec.pad (spec.radixPrefix 'o' n) (spec.digits 8 n)
  else if conversion = 'x' then
    (spec.unsignedValue arg).map fun n =>
      spec.pad (spec.radixPrefix 'x' n) (spec.digits 16 n)
  else if conversion = 'X' then
    (spec.unsignedValue arg).map fun n =>
      spec.pad (spec.radixPrefix 'X' n)
        ((spec.digits 16 n).map Char.toUpper)
  else none

def takeInt : List Arg → Option (Int32 × List Arg)
  | .int value :: others => some (value, others)
  | _ => none

def Spec.takeConversion (spec : Spec) (conversion : Char) :
    List Arg → Option (List Char × List Arg)
  | arg :: others => (spec.convert conversion arg).map fun text => (text, others)
  | [] => none

/-- Format the rest of a format string, from inside a specification when one
is open. -/
def formatFrom : Option Spec → List Char → List Arg → Option (List Char)
  | none, [], _ => some []
  | some _, [], _ => none
  | none, c :: rest, args =>
      if c = '%' then formatFrom (some {}) rest args
      else (formatFrom none rest args).map (c :: ·)
  | some spec, c :: rest, args =>
      match spec.feed c with
      | .more next => formatFrom (some next) rest args
      | .percent => (formatFrom none rest args).map ('%' :: ·)
      | .takeWidth => (takeInt args).bind fun taken =>
          formatFrom (some (spec.withWidth taken.1)) rest taken.2
      | .takePrecision => (takeInt args).bind fun taken =>
          formatFrom (some (spec.withPrecision taken.1)) rest taken.2
      | .convert conversion => (spec.takeConversion conversion args).bind
          fun taken => (formatFrom none rest taken.2).map (taken.1 ++ ·)
      | .invalid => none

/-- The characters `snprintf(buf, n, fmt, args...)` writes into a buffer that
is large enough. -/
def format (fmt : List Char) (args : List Arg) : Option (List Char) :=
  formatFrom none (cstr fmt) args

/-! ## Literal text and plain conversions -/

theorem cstr_eq_self {text : List Char} (hnul : '\x00' ∉ text) :
    cstr text = text := by
  unfold cstr
  rw [List.takeWhile_eq_self_iff]
  intro c hc
  have hne : c ≠ '\x00' := by
    intro h
    exact hnul (h ▸ hc)
  simpa using hne

theorem nul_notMem_cstr (text : List Char) : '\x00' ∉ cstr text := by
  intro hmem
  simpa using List.mem_takeWhile_imp hmem

theorem cstr_subset (text : List Char) : cstr text ⊆ text :=
  (List.takeWhile_prefix _).subset

theorem formatFrom_append_literal {literal : List Char}
    (hliteral : '%' ∉ literal) (rest : List Char) (args : List Arg) :
    formatFrom none (literal ++ rest) args =
      (formatFrom none rest args).map (literal ++ ·) := by
  induction literal with
  | nil => simp
  | cons c literal ih =>
      have hc : c ≠ '%' := fun h => hliteral (h ▸ List.mem_cons_self)
      have hrest : '%' ∉ literal :=
        fun h => hliteral (List.mem_cons_of_mem _ h)
      rw [List.cons_append, formatFrom, if_neg hc, ih hrest]
      simp [Function.comp_def]

theorem formatFrom_literal {literal : List Char}
    (hliteral : '%' ∉ literal) (args : List Arg) :
    formatFrom none literal args = some literal := by
  simpa [formatFrom] using formatFrom_append_literal hliteral [] args

theorem formatFrom_string (text rest : List Char) (args : List Arg) :
    formatFrom none ('%' :: 's' :: rest) (.str text :: args) =
      (formatFrom none rest args).map (cstr text ++ ·) := by
  have hfeed : ({} : Spec).feed 's' = .convert 's' := by decide
  have hconvert : ({} : Spec).convert 's' (.str text) = some (cstr text) := by
    simp [Spec.convert, Spec.padText]
  rw [formatFrom, if_pos rfl, formatFrom, hfeed]
  simp [Spec.takeConversion, hconvert]

def decimal (value : ℤ) : List Char :=
  (if value < 0 then ['-'] else []) ++ Nat.toDigits 10 value.natAbs

theorem digits_default (n : ℕ) :
    ({} : Spec).digits 10 n = Nat.toDigits 10 n := by
  have hlength : 0 < (Nat.toDigits 10 n).length := Nat.length_toDigits_pos
  have hzero : 1 - (Nat.toDigits 10 n).length = 0 := by omega
  simp [Spec.digits, hzero]

theorem formatFrom_int (value : Int32) (rest : List Char) (args : List Arg) :
    formatFrom none ('%' :: 'd' :: rest) (.int value :: args) =
      (formatFrom none rest args).map (decimal value.toInt ++ ·) := by
  have hfeed : ({} : Spec).feed 'd' = .convert 'd' := by decide
  have hconvert : ({} : Spec).convert 'd' (.int value) =
      some (decimal value.toInt) := by
    simp [Spec.convert, Spec.signedValue, Spec.pad, Spec.sign,
      digits_default, decimal]
  rw [formatFrom, if_pos rfl, formatFrom, hfeed]
  simp [Spec.takeConversion, hconvert]

theorem format_eq_self {fmt : List Char} (hpercent : '%' ∉ fmt)
    (hnul : '\x00' ∉ fmt) (args : List Arg) :
    format fmt args = some fmt := by
  unfold format
  rw [cstr_eq_self hnul]
  exact formatFrom_literal hpercent args

/-! ## Percent signs in the output -/

theorem exists_digitChar_of_mem_toDigitsCore
    {base fuel n : ℕ} {acc : List Char} {c : Char}
    (hacc : ∀ d ∈ acc, ∃ m, d = Nat.digitChar m)
    (hmem : c ∈ Nat.toDigitsCore base fuel n acc) :
    ∃ m, c = Nat.digitChar m := by
  induction fuel generalizing n acc with
  | zero => exact hacc c (by simpa [Nat.toDigitsCore] using hmem)
  | succ fuel ih =>
      have hnext : ∀ d ∈ Nat.digitChar (n % base) :: acc,
          ∃ m, d = Nat.digitChar m := by
        intro d hd
        rcases List.mem_cons.mp hd with rfl | hd
        · exact ⟨n % base, rfl⟩
        · exact hacc d hd
      simp only [Nat.toDigitsCore] at hmem
      split_ifs at hmem with hzero
      · exact hnext c hmem
      · exact ih hnext hmem

theorem exists_digitChar_of_mem_toDigits {base n : ℕ} {c : Char}
    (hmem : c ∈ Nat.toDigits base n) : ∃ m, c = Nat.digitChar m :=
  exists_digitChar_of_mem_toDigitsCore (by simp) hmem

theorem digitChar_cases (n : ℕ) :
    Nat.digitChar n ∈ "0123456789abcdef*".toList := by
  by_cases hlarge : 16 ≤ n
  · rw [Nat.digitChar_eq_star.mpr hlarge]
    decide
  · have hsmall : n < 16 := by omega
    interval_cases n <;> decide

theorem percent_notMem_toDigits (base n : ℕ) :
    '%' ∉ Nat.toDigits base n := by
  intro hmem
  obtain ⟨m, hm⟩ := exists_digitChar_of_mem_toDigits hmem
  have hcases := digitChar_cases m
  rw [← hm] at hcases
  exact absurd hcases (by decide)

theorem percent_notMem_toDigits_toUpper (base n : ℕ) :
    '%' ∉ (Nat.toDigits base n).map Char.toUpper := by
  intro hmem
  obtain ⟨c, hc, hupper⟩ := List.mem_map.mp hmem
  obtain ⟨m, rfl⟩ := exists_digitChar_of_mem_toDigits hc
  have hnone : "0123456789abcdef*".toList.all (fun d => d.toUpper ≠ '%') := by
    decide
  have hne := List.all_eq_true.mp hnone _ (digitChar_cases m)
  exact of_decide_eq_true hne hupper

theorem Spec.count_percent_digits (spec : Spec) (base n : ℕ) :
    (spec.digits base n).count '%' = 0 := by
  rw [List.count_eq_zero]
  simp only [Spec.digits, List.mem_append, List.mem_replicate, not_or]
  refine ⟨by simp, ?_⟩
  split_ifs
  · simp
  · exact percent_notMem_toDigits base n

theorem Spec.count_percent_digits_toUpper (spec : Spec) (base n : ℕ) :
    ((spec.digits base n).map Char.toUpper).count '%' = 0 := by
  rw [List.count_eq_zero]
  simp only [Spec.digits, List.map_append, List.mem_append, not_or]
  refine ⟨?_, ?_⟩
  · simp only [List.map_replicate, List.mem_replicate, not_and]
    intro _
    decide
  · split_ifs
    · simp
    · exact percent_notMem_toDigits_toUpper base n

theorem Spec.count_percent_pad (spec : Spec) (sign body : List Char) :
    (spec.pad sign body).count '%' = sign.count '%' + body.count '%' := by
  unfold Spec.pad
  split_ifs <;> simp [List.count_append, List.count_replicate]

theorem Spec.count_percent_padText (spec : Spec) (body : List Char) :
    (spec.padText body).count '%' = body.count '%' := by
  unfold Spec.padText
  split_ifs <;> simp [List.count_append, List.count_replicate]

theorem Spec.count_percent_sign (spec : Spec) (value : ℤ) :
    (spec.sign value).count '%' = 0 := by
  unfold Spec.sign
  split_ifs <;> decide

theorem Spec.count_percent_radixPrefix (spec : Spec) (conversion : Char)
    (n : ℕ) : (spec.radixPrefix conversion n).count '%' = 0 := by
  unfold Spec.radixPrefix
  split_ifs <;> decide

def Arg.PercentFree : Arg → Prop
  | .str text => '%' ∉ cstr text
  | .int _ => True
  | .longLong _ => True

theorem count_percent_of_map_eq_some {β : Type*} {value : Option β}
    {render : β → List Char} {out : List Char}
    (hrender : ∀ v, (render v).count '%' = 0)
    (hsome : value.map render = some out) : out.count '%' = 0 := by
  obtain ⟨v, _, rfl⟩ := Option.map_eq_some_iff.mp hsome
  exact hrender v

theorem Spec.count_percent_convert_of_ne_c {spec : Spec} {conversion : Char}
    {arg : Arg} {out : List Char} (hne : conversion ≠ 'c')
    (harg : arg.PercentFree)
    (hconvert : spec.convert conversion arg = some out) :
    out.count '%' = 0 := by
  unfold Spec.convert at hconvert
  split_ifs at hconvert
  · cases arg with
    | str text =>
        cases hlength : spec.length <;> simp [hlength] at hconvert
        subst out
        rw [Spec.count_percent_padText, List.count_eq_zero]
        exact fun hmem => harg (List.take_subset _ _ hmem)
    | int value => simp at hconvert
    | longLong value => simp at hconvert
  · exact count_percent_of_map_eq_some (fun v => by
      rw [Spec.count_percent_pad, Spec.count_percent_sign,
        Spec.count_percent_digits]) hconvert
  · exact count_percent_of_map_eq_some (fun v => by
      rw [Spec.count_percent_pad, Spec.count_percent_digits]
      rfl) hconvert
  · exact count_percent_of_map_eq_some (fun v => by
      rw [Spec.count_percent_pad, Spec.count_percent_radixPrefix,
        Spec.count_percent_digits]) hconvert
  · exact count_percent_of_map_eq_some (fun v => by
      rw [Spec.count_percent_pad, Spec.count_percent_radixPrefix,
        Spec.count_percent_digits]) hconvert
  · exact count_percent_of_map_eq_some (fun v => by
      rw [Spec.count_percent_pad, Spec.count_percent_radixPrefix,
        Spec.count_percent_digits_toUpper]) hconvert

theorem Spec.convert_c_eq_some {spec : Spec} {arg : Arg} {out : List Char}
    (hconvert : spec.convert 'c' arg = some out) :
    out.count '%' ≤ 1 ∧ ∃ value, arg = .int value := by
  cases arg with
  | str text => simp [Spec.convert] at hconvert
  | int value =>
      cases hlength : spec.length <;>
        simp [Spec.convert, hlength] at hconvert
      subst out
      rw [Spec.count_percent_padText]
      exact ⟨List.count_le_length, value, rfl⟩
  | longLong value => simp [Spec.convert] at hconvert

theorem Spec.count_percent_convert {spec : Spec} {conversion : Char}
    {arg : Arg} {out : List Char} (harg : arg.PercentFree)
    (hconvert : spec.convert conversion arg = some out) :
    out.count '%' ≤ 1 := by
  by_cases hc : conversion = 'c'
  · subst hc
    exact (Spec.convert_c_eq_some hconvert).1
  · rw [Spec.count_percent_convert_of_ne_c hc harg hconvert]
    exact Nat.zero_le 1

theorem Spec.count_percent_convert_str {spec : Spec} {conversion : Char}
    {text out : List Char} (htext : '%' ∉ cstr text)
    (hconvert : spec.convert conversion (.str text) = some out) :
    out.count '%' = 0 := by
  have harg : (Arg.str text).PercentFree := htext
  refine Spec.count_percent_convert_of_ne_c ?_ harg hconvert
  rintro rfl
  obtain ⟨_, value, hvalue⟩ := Spec.convert_c_eq_some hconvert
  cases hvalue

theorem Spec.eq_percent_of_feed {spec : Spec} {c : Char}
    (hfeed : spec.feed c = .percent) : c = '%' := by
  by_contra hc
  unfold Spec.feed at hfeed
  simp only [if_neg hc, Spec.flag, Spec.digit, Spec.lengthModifier] at hfeed
  repeat' split at hfeed
  all_goals cases hfeed

theorem Spec.takeConversion_eq_some {spec : Spec} {conversion : Char}
    {args : List Arg} {taken : List Char × List Arg}
    (htaken : spec.takeConversion conversion args = some taken) :
    ∃ arg, args = arg :: taken.2 ∧
      spec.convert conversion arg = some taken.1 := by
  cases args with
  | nil => cases htaken
  | cons arg others =>
      obtain ⟨text, htext, rfl⟩ := Option.map_eq_some_iff.mp htaken
      exact ⟨arg, rfl, htext⟩

theorem forall_of_takeInt {args : List Arg} {taken : Int32 × List Arg}
    (hargs : ∀ arg ∈ args, arg.PercentFree)
    (htaken : takeInt args = some taken) :
    ∀ arg ∈ taken.2, arg.PercentFree := by
  cases args with
  | nil => cases htaken
  | cons arg others =>
      cases arg with
      | str text => cases htaken
      | longLong value => cases htaken
      | int value =>
          cases htaken
          exact fun a ha => hargs a (List.mem_cons_of_mem _ ha)

theorem formatFrom_none_cons {c : Char} {rest out : List Char}
    {args : List Arg} (hformat : formatFrom none (c :: rest) args = some out) :
    c = '%' ∧ formatFrom (some {}) rest args = some out ∨
      c ≠ '%' ∧ ∃ tail, formatFrom none rest args = some tail ∧
        out = c :: tail := by
  rw [formatFrom] at hformat
  split_ifs at hformat with hc
  · exact .inl ⟨hc, hformat⟩
  · obtain ⟨tail, htail, rfl⟩ := Option.map_eq_some_iff.mp hformat
    exact .inr ⟨hc, tail, htail, rfl⟩

/-- What one character does to a specification in progress: it goes on, ends
as `%%`, takes a width or a precision, or converts the first argument. -/
theorem formatFrom_some_cons {spec : Spec} {c : Char} {rest out : List Char}
    {args : List Arg}
    (hformat : formatFrom (some spec) (c :: rest) args = some out) :
    (∃ next, formatFrom (some next) rest args = some out) ∨
    (c = '%' ∧ ∃ tail, formatFrom none rest args = some tail ∧
      out = '%' :: tail) ∨
    (∃ next taken, takeInt args = some taken ∧
      formatFrom (some next) rest taken.2 = some out) ∨
    ∃ conversion arg others text tail, args = arg :: others ∧
      spec.convert conversion arg = some text ∧
      formatFrom none rest others = some tail ∧ out = text ++ tail := by
  rw [formatFrom] at hformat
  cases hfeed : spec.feed c with
  | more next =>
      rw [hfeed] at hformat
      exact .inl ⟨next, hformat⟩
  | percent =>
      rw [hfeed] at hformat
      obtain ⟨tail, htail, rfl⟩ := Option.map_eq_some_iff.mp hformat
      exact .inr (.inl ⟨Spec.eq_percent_of_feed hfeed, tail, htail, rfl⟩)
  | takeWidth =>
      rw [hfeed] at hformat
      obtain ⟨taken, htaken, htail⟩ := Option.bind_eq_some_iff.mp hformat
      exact .inr (.inr (.inl ⟨_, taken, htaken, htail⟩))
  | takePrecision =>
      rw [hfeed] at hformat
      obtain ⟨taken, htaken, htail⟩ := Option.bind_eq_some_iff.mp hformat
      exact .inr (.inr (.inl ⟨_, taken, htaken, htail⟩))
  | convert conversion =>
      rw [hfeed] at hformat
      obtain ⟨taken, htaken, hmapped⟩ := Option.bind_eq_some_iff.mp hformat
      obtain ⟨tail, htail, rfl⟩ := Option.map_eq_some_iff.mp hmapped
      obtain ⟨arg, hargs, hconvert⟩ := Spec.takeConversion_eq_some htaken
      exact .inr (.inr (.inr ⟨conversion, arg, taken.2, taken.1, tail, hargs,
        hconvert, htail, rfl⟩))
  | invalid =>
      rw [hfeed] at hformat
      cases hformat

/-- The percent signs a specification in progress may still account for. -/
def openPercent : Option Spec → ℕ
  | none => 0
  | some _ => 1

/-- Formatting never adds percent signs: each one of the output comes from
`%%`, which has two, or from a `%c`, which has one. -/
theorem formatFrom_count_percent_le {spec : Option Spec} {fmt : List Char}
    {args : List Arg} {out : List Char}
    (hargs : ∀ arg ∈ args, arg.PercentFree)
    (hformat : formatFrom spec fmt args = some out) :
    out.count '%' ≤ fmt.count '%' + openPercent spec := by
  induction fmt generalizing spec args out with
  | nil =>
      cases spec with
      | none =>
          have hout : out = [] := by simpa [formatFrom] using hformat.symm
          simp [hout]
      | some spec => simp [formatFrom] at hformat
  | cons c rest ih =>
      have hle : rest.count '%' ≤ (c :: rest).count '%' :=
        List.count_le_count_cons
      cases spec with
      | none =>
          rcases formatFrom_none_cons hformat with
            ⟨hc, hopened⟩ | ⟨hc, tail, htail, rfl⟩
          · have hrest := ih hargs hopened
            simpa [hc, openPercent] using hrest
          · have hrest := ih hargs htail
            simpa [hc, openPercent] using hrest
      | some spec =>
          rcases formatFrom_some_cons hformat with
            ⟨next, hnext⟩ | ⟨hc, tail, htail, rfl⟩ |
            ⟨next, taken, htaken, hnext⟩ |
            ⟨conversion, arg, others, text, tail, rfl, hconvert, htail, rfl⟩
          · have hrest := ih hargs hnext
            simp only [openPercent] at hrest ⊢
            omega
          · have hrest := ih hargs htail
            simp only [hc, openPercent, List.count_cons_self] at hrest ⊢
            omega
          · have hrest := ih (forall_of_takeInt hargs htaken) hnext
            simp only [openPercent] at hrest ⊢
            omega
          · have hrest :=
              ih (fun a ha => hargs a (List.mem_cons_of_mem _ ha)) htail
            have htext := Spec.count_percent_convert
              (hargs arg List.mem_cons_self) hconvert
            simp only [openPercent, List.count_append] at hrest ⊢
            omega

/-- When the first argument is a string, a format with a percent sign loses
at least one: the first conversion is `%%` or prints that string. -/
theorem formatFrom_count_percent_lt {spec : Option Spec} {fmt : List Char}
    {text : List Char} {args : List Arg} {out : List Char}
    (hargs : ∀ arg ∈ Arg.str text :: args, arg.PercentFree)
    (hopen : '%' ∈ fmt ∨ spec.isSome)
    (hformat : formatFrom spec fmt (.str text :: args) = some out) :
    out.count '%' < fmt.count '%' + openPercent spec := by
  induction fmt generalizing spec out with
  | nil =>
      cases spec with
      | none => simp at hopen
      | some spec => simp [formatFrom] at hformat
  | cons c rest ih =>
      have hle : rest.count '%' ≤ (c :: rest).count '%' :=
        List.count_le_count_cons
      cases spec with
      | none =>
          rcases formatFrom_none_cons hformat with
            ⟨hc, hopened⟩ | ⟨hc, tail, htail, rfl⟩
          · have hrest := ih (Or.inr rfl) hopened
            simpa [hc, openPercent] using hrest
          · have hmem : '%' ∈ rest := by
              simpa [Ne.symm hc] using hopen
            have hrest := ih (Or.inl hmem) htail
            simpa [hc, openPercent] using hrest
      | some spec =>
          rcases formatFrom_some_cons hformat with
            ⟨next, hnext⟩ | ⟨hc, tail, htail, rfl⟩ |
            ⟨next, taken, htaken, hnext⟩ |
            ⟨conversion, arg, others, printed, tail, hargsEq, hconvert, htail,
              rfl⟩
          · have hrest := ih (Or.inr rfl) hnext
            simp only [openPercent] at hrest ⊢
            omega
          · have hrest := formatFrom_count_percent_le hargs htail
            simp only [hc, openPercent, List.count_cons_self] at hrest ⊢
            omega
          · cases htaken
          · cases hargsEq
            have hrest := formatFrom_count_percent_le
              (fun a ha => hargs a (List.mem_cons_of_mem _ ha)) htail
            have htext := Spec.count_percent_convert_str
              (hargs _ List.mem_cons_self) hconvert
            simp only [openPercent, List.count_append] at hrest ⊢
            omega

/-- With a string as first argument and no percent sign in any argument, the
formats that `snprintf` leaves unchanged are those without a percent sign. -/
theorem format_eq_self_iff {fmt text : List Char} {args : List Arg}
    (hargs : ∀ arg ∈ Arg.str text :: args, arg.PercentFree)
    (hnul : '\x00' ∉ fmt) :
    format fmt (.str text :: args) = some fmt ↔ '%' ∉ fmt := by
  constructor
  · intro hformat hmem
    unfold format at hformat
    rw [cstr_eq_self hnul] at hformat
    have hlt := formatFrom_count_percent_lt hargs (Or.inl hmem) hformat
    simp only [openPercent] at hlt
    omega
  · intro hpercent
    exact format_eq_self hpercent hnul _

end Printf
