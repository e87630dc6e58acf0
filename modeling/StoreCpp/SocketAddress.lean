import StoreCpp.Extensions
import Mathlib.Computability.RegularExpressions
import Mathlib.Tactic.IntervalCases

/-!
# The address of a socket

`createSocket` takes a host name for a dotted address when it matches
`ipAddressRegEx`, which counts in decimal, and gives it to `inet_addr`, which
reads a number with a leading zero in octal.  Any other name is looked up.
-/

namespace StoreCpp

namespace SocketImpl

def digits : List Char := ['0', '1', '2', '3', '4', '5', '6', '7', '8', '9']

def digitValue (c : Char) : ℕ := c.toNat - '0'.toNat

/-- The value of a numeral to a base. -/
def radixValue (base : ℕ) (text : Str) : ℕ :=
  text.foldl (fun value c => base * value + digitValue c) 0

/-! ## The regular expression -/

/-- The class `[0-n]`. -/
def digitsTo (n : ℕ) : RegularExpression Char :=
  (digits.take (n + 1)).foldr (fun c p => .char c + p) 0

def optional (p : RegularExpression Char) : RegularExpression Char := p + 1

/-- `25[0-5]|2[0-4][0-9]|[01]?[0-9][0-9]?`. -/
def octetRegEx : RegularExpression Char :=
  .char '2' * .char '5' * digitsTo 5 +
    .char '2' * digitsTo 4 * digitsTo 9 +
    optional (digitsTo 1) * digitsTo 9 * optional (digitsTo 9)

def ipAddressRegEx : RegularExpression Char :=
  (octetRegEx * .char '.') ^ 3 * octetRegEx

def isWordChar (c : Char) : Bool := c.isAlphanum || c = '_'

/-- `regex_match`, with the `\b` at both ends of the text. -/
def matchesIpAddress (hostname : Str) : Bool :=
  hostname.head?.any isWordChar && hostname.getLast?.any isWordChar &&
    ipAddressRegEx.rmatch hostname

/-! ## The socket -/

/-- One number of `inet_addr`, whose digits are known to be decimal. -/
def partValue : Str → Option ℕ
  | '0' :: c :: rest =>
      if (c :: rest).all fun d => digitValue d < 8 then
        some (radixValue 8 (c :: rest))
      else none
  | text => some (radixValue 10 text)

/-- `inet_addr` on four numbers; `INADDR_NONE` is the broadcast address. -/
def inetAddr (hostname : Str) : List ℕ :=
  ((hostname.splitOn '.').mapM partValue).getD [255, 255, 255, 255]

structure CreatedSocket where
  hasSocket : Bool
  address : Option (List ℕ)
  sock : Option ℤ

/-- The test `sock < 0` looks at the pointer, so a `socket` that has failed is
kept. -/
def createSocket (gethostbyname : Str → Option (List ℕ)) (socket : ℤ)
    (hostname : Str) : CreatedSocket :=
  let hostaddr := if matchesIpAddress hostname then some (inetAddr hostname)
    else gethostbyname hostname
  match hostaddr with
  | none => ⟨false, none, none⟩
  | some address => ⟨true, some address, some socket⟩

/-! ## Dotted addresses -/

/-- A decimal number of one to three digits that is at most 255. -/
structure Octet where
  text : Str
  digit : ∀ c ∈ text, c ∈ digits
  nonempty : text ≠ []
  length : text.length ≤ 3
  bound : radixValue 10 text ≤ 255

def Octet.value (octet : Octet) : ℕ := radixValue 10 octet.text

structure DottedQuad where
  octets : List Octet
  four : octets.length = 4

def DottedQuad.text (quad : DottedQuad) : Str :=
  ['.'].intercalate (quad.octets.map Octet.text)

theorem digitValue_getElem (i : ℕ) (hi : i < digits.length) :
    digitValue digits[i] = i := by
  have hten : i < 10 := hi
  interval_cases i <;> rfl

theorem mem_take_digits {n : ℕ} {c : Char} :
    c ∈ digits.take (n + 1) ↔ c ∈ digits ∧ digitValue c ≤ n := by
  rw [List.mem_take_iff_getElem]
  constructor
  · rintro ⟨i, hi, rfl⟩
    have hsmall := lt_min_iff.mp hi
    rw [digitValue_getElem i hsmall.2]
    exact ⟨List.getElem_mem _, Nat.le_of_lt_succ hsmall.1⟩
  · rintro ⟨hc, hvalue⟩
    obtain ⟨i, hi, rfl⟩ := List.mem_iff_getElem.mp hc
    rw [digitValue_getElem i hi] at hvalue
    exact ⟨i, lt_min (Nat.lt_succ_of_le hvalue) hi, rfl⟩

theorem digitValue_le {c : Char} (hc : c ∈ digits) : digitValue c ≤ 9 := by
  obtain ⟨i, hi, rfl⟩ := List.mem_iff_getElem.mp hc
  rw [digitValue_getElem i hi]
  exact Nat.le_of_lt_succ hi

theorem digitsTo_rmatch {n : ℕ} {text : Str} :
    (digitsTo n).rmatch text ↔
      ∃ c ∈ digits, digitValue c ≤ n ∧ text = [c] := by
  have hclass : ∀ cs : List Char,
      (cs.foldr (fun c p => RegularExpression.char c + p) 0).rmatch text ↔
        ∃ c ∈ cs, text = [c] := by
    intro cs
    induction cs with
    | nil => simp [RegularExpression.zero_rmatch]
    | cons c rest ih =>
        rw [List.foldr_cons, RegularExpression.add_rmatch_iff, ih,
          RegularExpression.char_rmatch_iff]
        simp
  rw [digitsTo, hclass]
  simp only [mem_take_digits, and_assoc]

theorem optional_rmatch {p : RegularExpression Char} {text : Str} :
    (optional p).rmatch text ↔ p.rmatch text ∨ text = [] := by
  rw [optional, RegularExpression.add_rmatch_iff,
    RegularExpression.one_rmatch_iff]

/-! ## What one part matches -/

theorem radixValue_two (base : ℕ) (a b : Char) :
    radixValue base [a, b] = base * digitValue a + digitValue b := by
  simp [radixValue]

theorem radixValue_three (base : ℕ) (a b c : Char) :
    radixValue base [a, b, c] =
      base * (base * digitValue a + digitValue b) + digitValue c := by
  simp [radixValue]

def IsOctet (text : Str) : Prop :=
  ∃ octet : Octet, octet.text = text

theorem eq_of_digitValue {c d : Char} (hc : c ∈ digits) (hd : d ∈ digits)
    (hvalue : digitValue c = digitValue d) : c = d := by
  obtain ⟨i, hi, rfl⟩ := List.mem_iff_getElem.mp hc
  obtain ⟨j, hj, rfl⟩ := List.mem_iff_getElem.mp hd
  rw [digitValue_getElem i hi, digitValue_getElem j hj] at hvalue
  simp only [hvalue]

theorem isOctet_one {a : Char} (ha : a ∈ digits) : IsOctet [a] := by
  have hten := digitValue_le ha
  refine ⟨⟨[a], by simpa, by simp, by simp, ?_⟩, rfl⟩
  simp [radixValue]
  omega

theorem isOctet_two {a b : Char} (ha : a ∈ digits) (hb : b ∈ digits) :
    IsOctet [a, b] := by
  have hten := digitValue_le ha
  have hone := digitValue_le hb
  refine ⟨⟨[a, b], by simp [ha, hb], by simp, by simp, ?_⟩, rfl⟩
  rw [radixValue_two]
  omega

theorem isOctet_three {a b c : Char} (ha : a ∈ digits) (hb : b ∈ digits)
    (hc : c ∈ digits)
    (hbound : 100 * digitValue a + 10 * digitValue b + digitValue c ≤ 255) :
    IsOctet [a, b, c] := by
  refine ⟨⟨[a, b, c], by simp [ha, hb, hc], by simp, by simp, ?_⟩, rfl⟩
  rw [radixValue_three]
  omega

theorem isOctet_cases {text : Str} (hoctet : IsOctet text) :
    (∃ a ∈ digits, text = [a]) ∨
    (∃ a ∈ digits, ∃ b ∈ digits, text = [a, b]) ∨
    (∃ a ∈ digits, ∃ b ∈ digits, ∃ c ∈ digits, text = [a, b, c] ∧
      100 * digitValue a + 10 * digitValue b + digitValue c ≤ 255) := by
  obtain ⟨⟨text, hdigit, hnonempty, hlength, hbound⟩, rfl⟩ := hoctet
  match text with
  | [] => exact absurd rfl hnonempty
  | [a] => exact .inl ⟨a, hdigit a (by simp), rfl⟩
  | [a, b] =>
      exact .inr (.inl ⟨a, hdigit a (by simp), b, hdigit b (by simp), rfl⟩)
  | [a, b, c] =>
      rw [radixValue_three] at hbound
      exact .inr (.inr ⟨a, hdigit a (by simp), b, hdigit b (by simp), c,
        hdigit c (by simp), rfl, by omega⟩)
  | a :: b :: c :: d :: rest =>
      simp only [List.length_cons] at hlength
      omega

theorem two_mem_digits : '2' ∈ digits := by decide

theorem five_mem_digits : '5' ∈ digits := by decide

/-- The third form takes every number of one or two digits, and those of three
that begin with 0 or 1. -/
theorem shortForm_rmatch {text : Str} :
    (optional (digitsTo 1) * digitsTo 9 * optional (digitsTo 9)).rmatch text ↔
      (∃ a ∈ digits, text = [a]) ∨
      (∃ a ∈ digits, ∃ b ∈ digits, text = [a, b]) ∨
      (∃ a ∈ digits, ∃ b ∈ digits, ∃ c ∈ digits, text = [a, b, c] ∧
        digitValue a ≤ 1) := by
  simp only [RegularExpression.mul_rmatch_iff, optional_rmatch,
    digitsTo_rmatch]
  constructor
  · rintro ⟨front, last, rfl, ⟨first, second, rfl, hfirst, b, hb, -, rfl⟩,
      hlast⟩
    rcases hfirst with ⟨a, ha, hone, rfl⟩ | rfl <;>
      rcases hlast with ⟨c, hc, -, rfl⟩ | rfl
    · exact .inr (.inr ⟨a, ha, b, hb, c, hc, rfl, hone⟩)
    · exact .inr (.inl ⟨a, ha, b, hb, rfl⟩)
    · exact .inr (.inl ⟨b, hb, c, hc, rfl⟩)
    · exact .inl ⟨b, hb, rfl⟩
  · rintro (⟨a, ha, rfl⟩ | ⟨a, ha, b, hb, rfl⟩ | ⟨a, ha, b, hb, c, hc, rfl, hone⟩)
    · exact ⟨[a], [], rfl, ⟨[], [a], rfl, .inr rfl, a, ha, digitValue_le ha,
        rfl⟩, .inr rfl⟩
    · exact ⟨[a], [b], rfl, ⟨[], [a], rfl, .inr rfl, a, ha, digitValue_le ha,
        rfl⟩, .inl ⟨b, hb, digitValue_le hb, rfl⟩⟩
    · exact ⟨[a, b], [c], rfl, ⟨[a], [b], rfl, .inl ⟨a, ha, hone, rfl⟩, b, hb,
        digitValue_le hb, rfl⟩, .inl ⟨c, hc, digitValue_le hc, rfl⟩⟩

theorem octetRegEx_rmatch {text : Str} :
    octetRegEx.rmatch text ↔ IsOctet text := by
  unfold octetRegEx
  rw [RegularExpression.add_rmatch_iff, RegularExpression.add_rmatch_iff,
    shortForm_rmatch]
  simp only [RegularExpression.mul_rmatch_iff, RegularExpression.char_rmatch_iff,
    digitsTo_rmatch]
  constructor
  · rintro ((⟨-, -, rfl, ⟨-, -, rfl, rfl, rfl⟩, c, hc, hfive, rfl⟩ |
      ⟨-, -, rfl, ⟨-, -, rfl, rfl, b, hb, hfour, rfl⟩, c, hc, hnine, rfl⟩) |
      ⟨a, ha, rfl⟩ | ⟨a, ha, b, hb, rfl⟩ | ⟨a, ha, b, hb, c, hc, rfl, hone⟩)
    · exact isOctet_three two_mem_digits five_mem_digits hc (by
        have htwo : digitValue '2' = 2 := rfl
        have hfive' : digitValue '5' = 5 := rfl
        omega)
    · exact isOctet_three two_mem_digits hb hc (by
        have htwo : digitValue '2' = 2 := rfl
        omega)
    · exact isOctet_one ha
    · exact isOctet_two ha hb
    · have hnine := digitValue_le hb
      have hlast := digitValue_le hc
      exact isOctet_three ha hb hc (by omega)
  · intro hoctet
    rcases isOctet_cases hoctet with hone | htwo |
      ⟨a, ha, b, hb, c, hc, rfl, hbound⟩
    · exact .inr (.inl hone)
    · exact .inr (.inr (.inl htwo))
    · have hnine := digitValue_le hc
      by_cases hsmall : digitValue a ≤ 1
      · exact .inr (.inr (.inr ⟨a, ha, b, hb, c, hc, rfl, hsmall⟩))
      have htwo : a = '2' := eq_of_digitValue ha two_mem_digits
        (show digitValue a = 2 by omega)
      by_cases hfour : digitValue b ≤ 4
      · exact .inl (.inr ⟨[a, b], [c], rfl, ⟨[a], [b], rfl, by rw [htwo],
          b, hb, hfour, rfl⟩, c, hc, hnine, rfl⟩)
      · have hfive : b = '5' := eq_of_digitValue hb five_mem_digits
          (show digitValue b = 5 by omega)
        exact .inl (.inl ⟨[a, b], [c], rfl, ⟨[a], [b], rfl, by rw [htwo],
          by rw [hfive]⟩, c, hc, by omega, rfl⟩)

/-! ## What the whole name matches -/

theorem isWordChar_of_mem : ∀ c ∈ digits, isWordChar c :=
  List.all_eq_true.mp rfl

theorem dot_notMem_digits : '.' ∉ digits := by decide

theorem DottedQuad.four_cases (quad : DottedQuad) :
    ∃ a b c d : Octet, quad.octets = [a, b, c, d] := by
  obtain ⟨octets, hfour⟩ := quad
  match octets with
  | [a, b, c, d] => exact ⟨a, b, c, d, rfl⟩

theorem pow_rmatch (p : RegularExpression Char) (n : ℕ) (text : Str) :
    (p ^ (n + 1)).rmatch text ↔
      ∃ front last, text = front ++ last ∧ (p ^ n).rmatch front ∧
        p.rmatch last :=
  RegularExpression.mul_rmatch_iff (p ^ n) p text

theorem dottedOctet_rmatch {text : Str} :
    (octetRegEx * .char '.').rmatch text ↔
      ∃ octet : Octet, text = octet.text ++ ['.'] := by
  rw [RegularExpression.mul_rmatch_iff]
  simp only [octetRegEx_rmatch, RegularExpression.char_rmatch_iff]
  constructor
  · rintro ⟨-, -, rfl, ⟨octet, rfl⟩, rfl⟩
    exact ⟨octet, rfl⟩
  · rintro ⟨octet, rfl⟩
    exact ⟨octet.text, ['.'], rfl, ⟨octet, rfl⟩, rfl⟩

theorem ipAddressRegEx_rmatch {text : Str} :
    ipAddressRegEx.rmatch text ↔ ∃ quad : DottedQuad, text = quad.text := by
  unfold ipAddressRegEx
  rw [RegularExpression.mul_rmatch_iff]
  simp only [pow_rmatch, dottedOctet_rmatch, octetRegEx_rmatch]
  constructor
  · rintro ⟨-, -, rfl, ⟨-, -, rfl, ⟨-, -, rfl, ⟨empty, -, rfl, hempty, a, rfl⟩,
      b, rfl⟩, c, rfl⟩, d, rfl⟩
    have hnil : empty = [] := (RegularExpression.one_rmatch_iff empty).mp hempty
    refine ⟨⟨[a, b, c, d], rfl⟩, ?_⟩
    simp [DottedQuad.text, hnil, List.intercalate]
  · rintro ⟨quad, rfl⟩
    obtain ⟨a, b, c, d, hoctets⟩ := quad.four_cases
    refine ⟨_, d.text, ?_, ⟨_, _, rfl, ⟨_, _, rfl, ⟨[], _, rfl,
      (RegularExpression.one_rmatch_iff []).mpr rfl, a, rfl⟩, b, rfl⟩, c, rfl⟩,
      d, rfl⟩
    simp [DottedQuad.text, hoctets, List.intercalate]

theorem Octet.head?_isWordChar (octet : Octet) (rest : Str) :
    (octet.text ++ rest).head?.any isWordChar = true := by
  cases htext : octet.text with
  | nil => exact absurd htext octet.nonempty
  | cons c text =>
      simpa using isWordChar_of_mem c (octet.digit c (by simp [htext]))

theorem Octet.getLast?_isWordChar (octet : Octet) (front : Str) :
    (front ++ octet.text).getLast?.any isWordChar = true := by
  have hlast := List.getLast_mem octet.nonempty
  rw [List.getLast?_append_of_ne_nil _ octet.nonempty,
    List.getLast?_eq_some_getLast octet.nonempty]
  exact isWordChar_of_mem _ (octet.digit _ hlast)

theorem matchesIpAddress_iff {hostname : Str} :
    matchesIpAddress hostname ↔
      ∃ quad : DottedQuad, hostname = quad.text := by
  unfold matchesIpAddress
  rw [Bool.and_eq_true, ipAddressRegEx_rmatch, and_iff_right_of_imp]
  rintro ⟨quad, rfl⟩
  obtain ⟨a, b, c, d, hoctets⟩ := quad.four_cases
  rw [Bool.and_eq_true]
  constructor
  · have hfront := a.head?_isWordChar
      ('.' :: (b.text ++ '.' :: (c.text ++ '.' :: d.text)))
    simpa [DottedQuad.text, hoctets, List.intercalate] using hfront
  · have hback := d.getLast?_isWordChar
      (a.text ++ '.' :: (b.text ++ '.' :: (c.text ++ ['.'])))
    simpa [DottedQuad.text, hoctets, List.intercalate] using hback

/-! ## What `inet_addr` reads -/

def Octet.ReadAsDecimal (octet : Octet) : Prop :=
  octet.text.head? = some '0' → octet.value < 8

theorem partValue_of_ne_zero {c : Char} (hc : c ≠ '0') (rest : Str) :
    partValue (c :: rest) = some (radixValue 10 (c :: rest)) := by
  unfold partValue
  split
  · rename_i heq
    exact absurd (List.cons.inj heq).1 hc
  · rfl

theorem partValue_zero_two (c : Char) :
    partValue ['0', c] =
      if digitValue c < 8 then some (digitValue c) else none := by
  simp [partValue, radixValue]

theorem partValue_zero_three (b c : Char) :
    partValue ['0', b, c] = if digitValue b < 8 ∧ digitValue c < 8 then
      some (8 * digitValue b + digitValue c) else none := by
  simp [partValue, radixValue]

theorem Octet.partValue_iff (octet : Octet) :
    partValue octet.text = some octet.value ↔ octet.ReadAsDecimal := by
  have hzero : digitValue '0' = 0 := rfl
  unfold ReadAsDecimal Octet.value
  rcases isOctet_cases ⟨octet, rfl⟩ with ⟨a, ha, htext⟩ |
    ⟨a, ha, b, hb, htext⟩ | ⟨a, ha, b, hb, c, hc, htext, -⟩ <;> rw [htext]
  · refine iff_of_true (by simp [partValue]) fun hhead => ?_
    rw [Option.some.inj hhead]
    decide
  · by_cases hlead : a = '0'
    · subst hlead
      rw [partValue_zero_two, radixValue_two, hzero]
      by_cases hsmall : digitValue b < 8 <;> simp [hsmall]
    · rw [partValue_of_ne_zero hlead]
      simp [hlead]
  · by_cases hlead : a = '0'
    · subst hlead
      rw [partValue_zero_three, radixValue_three, hzero]
      by_cases hsmall : digitValue b < 8 ∧ digitValue c < 8
      · rw [if_pos hsmall]
        simp only [Option.some.injEq, List.head?_cons, forall_const]
        omega
      · rw [if_neg hsmall]
        simp only [reduceCtorEq, List.head?_cons, forall_const, false_iff]
        omega
    · rw [partValue_of_ne_zero hlead]
      simp [hlead]

/-- A number that `inet_addr` refuses begins with a zero. -/
theorem Octet.value_lt_of_partValue_none {octet : Octet}
    (hnone : partValue octet.text = none) : octet.value < 255 := by
  have hzero : digitValue '0' = 0 := rfl
  unfold Octet.value
  rcases isOctet_cases ⟨octet, rfl⟩ with ⟨a, ha, htext⟩ |
    ⟨a, ha, b, hb, htext⟩ | ⟨a, ha, b, hb, c, hc, htext, -⟩ <;>
    rw [htext] at hnone ⊢
  · simp [partValue] at hnone
  · have hten := digitValue_le ha
    have hone := digitValue_le hb
    rw [radixValue_two]
    omega
  · by_cases hlead : a = '0'
    · have hten := digitValue_le hb
      have hone := digitValue_le hc
      rw [radixValue_three, hlead, hzero]
      omega
    · rw [partValue_of_ne_zero hlead] at hnone
      cases hnone

theorem mapM_partValue_iff (octets : List Octet) :
    (octets.map Octet.text).mapM partValue = some (octets.map Octet.value) ↔
      ∀ octet ∈ octets, octet.ReadAsDecimal := by
  induction octets with
  | nil => simp
  | cons octet octets ih =>
      rw [List.forall_mem_cons, ← ih, ← octet.partValue_iff]
      cases hpart : partValue octet.text <;>
        cases hrest : (octets.map Octet.text).mapM partValue <;>
        simp [List.mapM_cons, hpart, hrest]

theorem exists_of_mapM_partValue_none {octets : List Octet}
    (hnone : (octets.map Octet.text).mapM partValue = none) :
    ∃ octet ∈ octets, partValue octet.text = none := by
  induction octets with
  | nil => simp at hnone
  | cons octet octets ih =>
      cases hpart : partValue octet.text with
      | none => exact ⟨octet, List.mem_cons_self, hpart⟩
      | some value =>
          obtain ⟨found, hfound, hpartNone⟩ := ih (by
            cases hrest : (octets.map Octet.text).mapM partValue with
            | none => rfl
            | some values =>
                simp [List.mapM_cons, hpart, hrest] at hnone)
          exact ⟨found, List.mem_cons_of_mem octet hfound, hpartNone⟩

theorem DottedQuad.splitOn_text (quad : DottedQuad) :
    quad.text.splitOn '.' = quad.octets.map Octet.text := by
  refine List.splitOn_intercalate '.' ?_ ?_
  · intro part hpart hdot
    obtain ⟨octet, -, rfl⟩ := List.mem_map.mp hpart
    exact dot_notMem_digits (octet.digit '.' hdot)
  · intro hnil
    have hfour := quad.four
    rw [List.map_eq_nil_iff.mp hnil] at hfour
    cases hfour

theorem inetAddr_iff (quad : DottedQuad) :
    inetAddr quad.text = quad.octets.map Octet.value ↔
      ∀ octet ∈ quad.octets, octet.ReadAsDecimal := by
  unfold inetAddr
  rw [quad.splitOn_text, ← mapM_partValue_iff]
  cases hvalues : (quad.octets.map Octet.text).mapM partValue with
  | some values => simp
  | none =>
      refine iff_of_false ?_ (by simp)
      intro hbroadcast
      obtain ⟨octet, hoctet, hnone⟩ := exists_of_mapM_partValue_none hvalues
      have hvalue : octet.value ∈ [255, 255, 255, 255] := by
        rw [Option.getD_none] at hbroadcast
        rw [hbroadcast]
        exact List.mem_map_of_mem hoctet
      have hlt := Octet.value_lt_of_partValue_none hnone
      simp only [List.mem_cons, List.not_mem_nil, or_false, or_self] at hvalue
      omega

/-- A host name is taken for an address exactly when it is a dotted one; then
the socket points at that address exactly when no number of it has a leading
zero before a value of eight or more.  Any other name is what the lookup says,
and no failure of `socket` is noticed. -/
theorem createSocket_address (gethostbyname : Str → Option (List ℕ))
    (socket : ℤ) (hostname : Str) :
    (matchesIpAddress hostname ↔
      ∃ quad : DottedQuad, hostname = quad.text) ∧
    (∀ quad : DottedQuad, hostname = quad.text →
      ∃ address, createSocket gethostbyname socket hostname =
          ⟨true, some address, some socket⟩ ∧
        (address = quad.octets.map Octet.value ↔
          ∀ octet ∈ quad.octets, octet.ReadAsDecimal)) ∧
    ((∀ quad : DottedQuad, hostname ≠ quad.text) →
      createSocket gethostbyname socket hostname =
        ⟨(gethostbyname hostname).isSome, gethostbyname hostname,
          (gethostbyname hostname).map fun _ => socket⟩) := by
  refine ⟨matchesIpAddress_iff, ?_, ?_⟩
  · rintro quad rfl
    refine ⟨inetAddr quad.text, ?_, inetAddr_iff quad⟩
    have hmatches := matchesIpAddress_iff.mpr ⟨quad, rfl⟩
    rw [createSocket, if_pos hmatches]
  · intro hname
    have hmatches : ¬ matchesIpAddress hostname := fun hmatch => by
      obtain ⟨quad, hquad⟩ := matchesIpAddress_iff.mp hmatch
      exact hname quad hquad
    rw [createSocket, if_neg hmatches]
    cases gethostbyname hostname <;> rfl

end SocketImpl

end StoreCpp
