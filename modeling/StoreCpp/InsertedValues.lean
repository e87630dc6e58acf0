import StoreCpp.PooledOperations
import StoreCpp.QuotedLiteral

/-!
# Inserting one record

`insertOne` of both SQL clients writes the names of the columns as they are
and the parameters through `TupleFormatFunc`, which decides on quotes by the
mangled name of the parameter's type.
-/

namespace StoreCpp

open Printf QuotedLiteral ResourcePool

inductive IntegerType where
  | signedChar
  | unsignedChar
  | short
  | unsignedShort
  | int
  | unsignedInt
  | long
  | unsignedLong
  | longLong
  | unsignedLongLong
  deriving DecidableEq

namespace IntegerType

def mangled : IntegerType → Char
  | signedChar => 'a'
  | unsignedChar => 'h'
  | short => 's'
  | unsignedShort => 't'
  | int => 'i'
  | unsignedInt => 'j'
  | long => 'l'
  | unsignedLong => 'm'
  | longLong => 'x'
  | unsignedLongLong => 'y'

def minimum : IntegerType → ℤ
  | signedChar => -2 ^ 7
  | short => -2 ^ 15
  | int => -2 ^ 31
  | long | longLong => -2 ^ 63
  | unsignedChar | unsignedShort | unsignedInt | unsignedLong
  | unsignedLongLong => 0

def maximum : IntegerType → ℤ
  | signedChar => 2 ^ 7 - 1
  | unsignedChar => 2 ^ 8 - 1
  | short => 2 ^ 15 - 1
  | unsignedShort => 2 ^ 16 - 1
  | int => 2 ^ 31 - 1
  | unsignedInt => 2 ^ 32 - 1
  | long | longLong => 2 ^ 63 - 1
  | unsignedLong | unsignedLongLong => 2 ^ 64 - 1

/-- A stream writes these as one character. -/
def IsChar (type : IntegerType) : Prop :=
  type = signedChar ∨ type = unsignedChar

instance (type : IntegerType) : Decidable type.IsChar :=
  inferInstanceAs (Decidable (_ ∨ _))

end IntegerType

/-- An argument of `insertOne`. -/
inductive Param where
  | string (value : Str)
  | cString (isConst : Bool) (chars : Str)
  | integer (type : IntegerType) (value : ℤ)
      (least : type.minimum ≤ value) (most : value ≤ type.maximum)
  deriving DecidableEq

namespace Param

/-- `typeid(p).name()`. -/
def typeName : Param → Str
  | string _ => "NSt7__cxx1112basic_stringIcSt11char_traitsIcESaIcEEE".toList
  | cString true _ => "PKc".toList
  | cString false _ => "Pc".toList
  | integer type _ _ _ => [type.mangled]

/-- What `operator<<` writes. -/
def streamed : Param → Str
  | string value => value
  | cString _ chars => cstr chars
  | integer type value _ _ =>
      if type.IsChar then [Char.ofNat (value % 256).toNat] else decimal value

end Param

def tupleFormatFunc (ss : Str) (p : Param) : Str :=
  let tyname := p.typeName
  let ty := tyname.getLast?
  if "basic_string".toList <:+: tyname ∨ ty = some 'c' ∨ ty = some 's' then
    ss ++ "'".toList ++ p.streamed ++ "'".toList
  else ss ++ p.streamed

/-- `tuples::apply`, whose array of functions has one entry for each value. -/
def Tuples.apply (values : List Param) (index : ℕ) (ss : Str) : Option Str :=
  values[index]?.map (tupleFormatFunc ss)

/-- The loop over the iterators up to `end() - 1`, and the last name. -/
def writeFields : Str → List Str → Option Str
  | _, [] => none
  | ss, [field] => some (ss ++ field)
  | ss, field :: fields => writeFields (ss ++ field ++ ",".toList) fields

def writeValues (values : List Param) (size : ℕ) (ss : Str) : Option Str :=
  (List.range (size - 1)).foldlM (fun ss i =>
    (Tuples.apply values i ss).map (· ++ ",".toList)) ss >>=
      Tuples.apply values (size - 1)

def insertStatement (schema table : Str) (fields : List Str)
    (params : List Param) : Option Str := do
  let ss := "insert into ".toList ++ schema ++ ".".toList ++ table ++
    " (".toList
  let ss ← writeFields ss fields
  let ss ← writeValues params fields.length (ss ++ ") values \n(".toList)
  some (ss ++ ");".toList)

namespace PgClient

def insertOneStatement (version : Str) (U : TypeName) (fields : List Str)
    (params : List Param) : Option Str :=
  insertStatement version (cstr (resolveTypeToString U)) fields params

def insertOne {σ κ ρ π : Type} (pool : ClientPool σ κ) (driver : Driver κ ρ π)
    (version : Str) (U : TypeName) (fields : List Str) (params : List Param)
    (state : Traced σ κ) : Option (Str × Traced σ κ) := do
  let sql ← insertOneStatement version U fields params
  let saved ← save pool driver sql none state
  some (saved.1.1, saved.2)

end PgClient

namespace MsSqlBaseClient

def insertOneStatement (schema table_name : Str) (fields : List Str)
    (params : List Param) : Option Str :=
  insertStatement schema table_name fields params

end MsSqlBaseClient

/-! ## Reading the values -/

inductive Literal where
  | text (value : Str)
  | number (value : ℤ)
  deriving DecidableEq

def readDigits (text : Str) : Option (ℕ × Str) :=
  let digits := text.takeWhile Char.isDigit
  if digits = [] then none
  else some (Nat.ofDigitChars 10 digits 0, text.dropWhile Char.isDigit)

def readLiteral : Str → Option (Literal × Str)
  | '\'' :: rest =>
      (readBody '\'' rest).map fun parts => (.text parts.1, parts.2)
  | '-' :: rest =>
      (readDigits rest).map fun parts => (.number (-parts.1), parts.2)
  | text => (readDigits text).map fun parts => (.number parts.1, parts.2)

theorem readDigits_length_lt {text rest : Str} {n : ℕ}
    (hread : readDigits text = some (n, rest)) :
    rest.length < text.length := by
  unfold readDigits at hread
  dsimp only at hread
  split_ifs at hread with hdigits
  cases hread
  have hsplit := List.takeWhile_append_dropWhile (p := Char.isDigit) (l := text)
  have hlength := congrArg List.length hsplit
  have hpos := List.length_pos_iff.mpr hdigits
  rw [List.length_append] at hlength
  omega

theorem readLiteral_length_lt {text rest : Str} {value : Literal}
    (hread : readLiteral text = some (value, rest)) :
    rest.length < text.length := by
  unfold readLiteral at hread
  split at hread
  · obtain ⟨parts, hparts, hsame⟩ := Option.map_eq_some_iff.mp hread
    cases hsame
    have hlength := readBody_length_lt hparts
    rw [List.length_cons]
    omega
  · obtain ⟨parts, hparts, hsame⟩ := Option.map_eq_some_iff.mp hread
    cases hsame
    have hlength := readDigits_length_lt hparts
    rw [List.length_cons]
    omega
  · obtain ⟨parts, hparts, hsame⟩ := Option.map_eq_some_iff.mp hread
    cases hsame
    exact readDigits_length_lt hparts

/-- The literals of a `values` list behind its opening parenthesis. -/
def readValues (text : Str) : Option (List Literal) :=
  match _hread : readLiteral text with
  | none => none
  | some (value, ',' :: rest) => (readValues rest).map (value :: ·)
  | some (value, rest) =>
      if rest = ");".toList then some [value] else none
termination_by text.length
decreasing_by
  have hlength := readLiteral_length_lt _hread
  rw [List.length_cons] at hlength
  omega

def readClause : Str → Option (List Literal)
  | '(' :: text => readValues text
  | _ => none

/-- The literal that has the value of a parameter. -/
def Param.literal : Param → Literal
  | .string value => .text value
  | .cString _ chars => .text (cstr chars)
  | .integer _ value _ _ => .number value

/-- The statement lists the columns in order and then exactly the literals of
the parameters. -/
def InsertsExactly (schema table : Str) (fields : List Str)
    (params : List Param) (sql : Str) : Prop :=
  ∃ clause, sql = "insert into ".toList ++ schema ++ ".".toList ++ table ++
      " (".toList ++ List.intercalate ",".toList fields ++
        ") values \n".toList ++ clause ∧
    readClause clause = some (params.map Param.literal)

/-- Texts without an apostrophe, and numbers that are not taken for one. -/
def Param.ReadBack : Param → Prop
  | .string value => '\'' ∉ value
  | .cString _ chars => '\'' ∉ cstr chars
  | .integer type _ _ _ => type ≠ .short ∧ ¬ type.IsChar

/-! ## What is written -/

def Param.written (p : Param) : Str := tupleFormatFunc [] p

theorem tupleFormatFunc_eq (ss : Str) (p : Param) :
    tupleFormatFunc ss p = ss ++ p.written := by
  unfold Param.written tupleFormatFunc
  dsimp only
  split_ifs <;> simp

theorem basicString_infix :
    "basic_string".toList <:+:
      "NSt7__cxx1112basic_stringIcSt11char_traitsIcESaIcEEE".toList := by
  decide +kernel

theorem Param.written_string (value : Str) :
    (Param.string value).written = '\'' :: (value ++ ['\'']) := by
  have hquoted : "basic_string".toList <:+: (Param.string value).typeName :=
    basicString_infix
  unfold Param.written tupleFormatFunc
  dsimp only
  rw [if_pos (Or.inl hquoted)]
  rfl

theorem Param.written_cString (isConst : Bool) (chars : Str) :
    (Param.cString isConst chars).written =
      '\'' :: (cstr chars ++ ['\'']) := by
  have hlast : (Param.cString isConst chars).typeName.getLast? =
      some 'c' := by
    cases isConst <;> rfl
  unfold Param.written tupleFormatFunc
  dsimp only
  rw [if_pos (Or.inr (Or.inl hlast))]
  rfl

theorem Param.written_integer {type : IntegerType} {value : ℤ}
    (least : type.minimum ≤ value) (most : value ≤ type.maximum) :
    (Param.integer type value least most).written =
      if type = .short then '\'' :: (decimal value ++ ['\''])
      else (Param.integer type value least most).streamed := by
  cases type <;> rfl

/-! ## One value -/

/-- The text that follows a value. -/
def EndsValue (text : Str) : Prop :=
  ∃ c rest, text = c :: rest ∧ (c = ',' ∨ c = ')')

theorem EndsValue.head_ne {text : Str} (h : EndsValue text) :
    text.head? ≠ some '\'' := by
  obtain ⟨c, rest, rfl, rfl | rfl⟩ := h
  · simp
  · simp

theorem readDigits_append {digits text : Str}
    (hdigits : ∀ c ∈ digits, c.isDigit = true) (hne : digits ≠ [])
    (htext : EndsValue text) :
    readDigits (digits ++ text) =
      some (Nat.ofDigitChars 10 digits 0, text) := by
  obtain ⟨c, rest, rfl, hc⟩ := htext
  have hstop : c.isDigit = false := by
    cases hc with
    | inl h => rw [h]; rfl
    | inr h => rw [h]; rfl
  have htake : (digits ++ c :: rest).takeWhile Char.isDigit = digits := by
    rw [List.takeWhile_append_of_pos hdigits]
    simp [hstop]
  have hdrop : (digits ++ c :: rest).dropWhile Char.isDigit = c :: rest := by
    rw [List.dropWhile_append_of_pos hdigits]
    simp [hstop]
  unfold readDigits
  dsimp only
  rw [htake, hdrop, if_neg hne]

theorem readDigits_endsValue {text : Str} (htext : EndsValue text) :
    readDigits text = none := by
  obtain ⟨c, rest, rfl, rfl | rfl⟩ := htext
  · rfl
  · rfl

theorem readLiteral_digit {c : Char} (hc : c.isDigit = true) (rest : Str) :
    readLiteral (c :: rest) =
      (readDigits (c :: rest)).map fun parts =>
        (.number parts.1, parts.2) := by
  have hquote : c ≠ '\'' := fun h => absurd (h ▸ hc) (by decide)
  have hminus : c ≠ '-' := fun h => absurd (h ▸ hc) (by decide)
  unfold readLiteral
  split
  · rename_i heq
    exact absurd (List.cons.inj heq).1 hquote
  · rename_i heq
    exact absurd (List.cons.inj heq).1 hminus
  · rfl

theorem readLiteral_decimal {text : Str} (htext : EndsValue text)
    (value : ℤ) :
    readLiteral (decimal value ++ text) = some (.number value, text) := by
  have hdigits : ∀ c ∈ Nat.toDigits 10 value.natAbs, c.isDigit = true :=
    fun c hc => Nat.isDigit_of_mem_toDigits (by decide) (by decide) hc
  have hne : Nat.toDigits 10 value.natAbs ≠ [] :=
    List.ne_nil_of_length_pos Nat.length_toDigits_pos
  have hread := readDigits_append hdigits hne htext
  rw [Nat.ofDigitChars_ten_toDigits] at hread
  unfold decimal
  by_cases hneg : value < 0
  · rw [if_pos hneg, List.append_assoc, List.singleton_append, readLiteral,
      hread, Option.map_some]
    have habs : (-(value.natAbs : ℤ)) = value := by omega
    rw [habs]
  · obtain ⟨c, digits, hcons⟩ := List.exists_cons_of_ne_nil hne
    have hc : c.isDigit = true := hdigits c (by simp [hcons])
    rw [if_neg hneg, List.nil_append, hcons, List.cons_append,
      readLiteral_digit hc, ← List.cons_append, ← hcons, hread,
      Option.map_some]
    have habs : (value.natAbs : ℤ) = value := by omega
    rw [habs]

theorem readLiteral_quoted_iff {value rest text : Str}
    (htext : EndsValue text) :
    readLiteral ('\'' :: (value ++ ['\'']) ++ text) =
        some (.text value, rest) ↔
      '\'' ∉ value ∧ rest = text := by
  rw [← readBody_append_iff htext.head_ne]
  simp [readLiteral]

theorem readLiteral_quoted_ne_number {value rest text : Str} {n : ℤ} :
    readLiteral ('\'' :: (value ++ ['\'']) ++ text) ≠
      some (.number n, rest) := by
  simp [readLiteral]

theorem toNat_ofByte (value : ℤ) :
    (Char.ofNat (value % 256).toNat).toNat = (value % 256).toNat := by
  have hvalid : (value % 256).toNat.isValidChar := Or.inl (by omega)
  rw [Char.ofNat, dif_pos hvalid]
  rfl

/-- A character that is a digit is the literal of another number. -/
theorem readLiteral_byte_ne {text rest : Str} {value : ℤ}
    (htext : EndsValue text) (hleast : -128 ≤ value) (hmost : value ≤ 255) :
    readLiteral (Char.ofNat (value % 256).toNat :: text) ≠
      some (.number value, rest) := by
  have hbyte := toNat_ofByte value
  generalize Char.ofNat (value % 256).toNat = c at hbyte
  intro hread
  by_cases hdigit : c.isDigit = true
  · have hdigits := @readDigits_append [c] text (by simpa using hdigit)
      (List.cons_ne_nil _ _) htext
    rw [readLiteral_digit hdigit, ← List.singleton_append, hdigits,
      Option.map_some] at hread
    have hnumber : (Nat.ofDigitChars 10 [c] 0 : ℤ) = value := by
      simpa using congrArg (Option.map Prod.fst) hread
    have hrange := Char.isDigit_iff_toNat.mp hdigit
    have hzero : '0'.toNat = 48 := rfl
    rw [Nat.ofDigitChars_cons, Nat.ofDigitChars_nil, hzero] at hnumber
    rw [hzero] at hrange
    omega
  · unfold readLiteral at hread
    split at hread
    · simp at hread
    · rename_i heq
      rw [← (List.cons.inj heq).2, readDigits_endsValue htext] at hread
      cases hread
    · have hnone : readDigits (c :: text) = none := by
        unfold readDigits
        simp [hdigit]
      rw [hnone] at hread
      cases hread

theorem Param.readLiteral_iff {p : Param} {rest text : Str}
    (htext : EndsValue text) :
    readLiteral (p.written ++ text) = some (p.literal, rest) ↔
      p.ReadBack ∧ rest = text := by
  cases p with
  | string value =>
      rw [Param.written_string]
      exact readLiteral_quoted_iff htext
  | cString isConst chars =>
      rw [Param.written_cString]
      exact readLiteral_quoted_iff htext
  | integer type value least most =>
      rw [Param.written_integer]
      unfold Param.ReadBack Param.literal Param.streamed
      dsimp only
      by_cases hshort : type = .short
      · rw [if_pos hshort]
        apply iff_of_false readLiteral_quoted_ne_number
        exact fun h => h.1.1 hshort
      · rw [if_neg hshort]
        by_cases hchar : type.IsChar
        · rw [if_pos hchar]
          have hrange : -128 ≤ value ∧ value ≤ 255 := by
            rcases hchar with rfl | rfl
            · exact ⟨least, most.trans (by decide)⟩
            · exact ⟨le_trans (by decide) least, most⟩
          apply iff_of_false (readLiteral_byte_ne htext hrange.1 hrange.2)
          exact fun h => h.1.2 hchar
        · rw [if_neg hchar, readLiteral_decimal htext]
          simp [hshort, hchar, eq_comm]

/-! ## The list of values -/

/-- The values after the first one, and the end of the statement. -/
def restText (params : List Param) : Str :=
  params.flatMap (fun p => ',' :: p.written) ++ ");".toList

theorem endsValue_restText (params : List Param) :
    EndsValue (restText params) := by
  cases params with
  | nil => exact ⟨')', _, rfl, Or.inr rfl⟩
  | cons p params => exact ⟨',', _, rfl, Or.inl rfl⟩

theorem readLiteral_of_readValues {text : Str} {value : Literal}
    {values : List Literal} (hread : readValues text = some (value :: values)) :
    ∃ rest, readLiteral text = some (value, rest) := by
  rw [readValues] at hread
  split at hread
  · cases hread
  · rename_i first rest hfirst
    obtain ⟨others, _, hcons⟩ := Option.map_eq_some_iff.mp hread
    rw [← (List.cons.inj hcons).1]
    exact ⟨_, hfirst⟩
  · rename_i first rest _ hfirst
    split_ifs at hread
    have hcons := Option.some.inj hread
    rw [← (List.cons.inj hcons).1]
    exact ⟨_, hfirst⟩

theorem readValues_of_comma {text rest : Str} {value : Literal}
    (hread : readLiteral text = some (value, ',' :: rest)) :
    readValues text = (readValues rest).map (value :: ·) := by
  rw [readValues]
  split
  · rename_i hnone
    rw [hread] at hnone
    cases hnone
  · rename_i hfirst
    rw [hread] at hfirst
    cases hfirst
    rfl
  · rename_i first after hafter hfirst
    rw [hread] at hfirst
    cases hfirst
    exact absurd rfl (hafter rest)

theorem readValues_of_end {text : Str} {value : Literal}
    (hread : readLiteral text = some (value, ");".toList)) :
    readValues text = some [value] := by
  rw [readValues]
  split
  · rename_i hnone
    rw [hread] at hnone
    cases hnone
  · rename_i hfirst
    rw [hread] at hfirst
    cases hfirst
  · rename_i hfirst
    rw [hread] at hfirst
    cases hfirst
    exact if_pos rfl

theorem readValues_iff (p : Param) (params : List Param) :
    readValues (p.written ++ restText params) =
        some (p.literal :: params.map Param.literal) ↔
      p.ReadBack ∧ ∀ other ∈ params, other.ReadBack := by
  induction params generalizing p with
  | nil =>
      constructor
      · intro hread
        obtain ⟨rest, hfirst⟩ := readLiteral_of_readValues hread
        have hp := (Param.readLiteral_iff (endsValue_restText [])).mp hfirst
        exact ⟨hp.1, by simp⟩
      · intro ⟨hp, _⟩
        apply readValues_of_end
        exact (Param.readLiteral_iff (endsValue_restText [])).mpr ⟨hp, rfl⟩
  | cons next params ih =>
      have hrest : restText (next :: params) =
          ',' :: (next.written ++ restText params) := by
        simp [restText]
      have hends := endsValue_restText (next :: params)
      rw [List.forall_mem_cons, ← ih]
      constructor
      · intro hread
        obtain ⟨rest, hfirst⟩ := readLiteral_of_readValues hread
        have hp := (Param.readLiteral_iff hends).mp hfirst
        rw [hp.2, hrest] at hfirst
        rw [hrest, readValues_of_comma hfirst] at hread
        obtain ⟨values, hvalues, hcons⟩ := Option.map_eq_some_iff.mp hread
        rw [hvalues, (List.cons.inj hcons).2]
        exact ⟨hp.1, rfl⟩
      · intro ⟨hp, hread⟩
        have hfirst := (Param.readLiteral_iff hends).mpr ⟨hp, rfl⟩
        rw [hrest] at hfirst
        rw [hrest, readValues_of_comma hfirst, hread]
        rfl

/-! ## The statement -/

theorem writeFields_eq {fields : List Str} (hfields : fields ≠ []) (ss : Str) :
    writeFields ss fields =
      some (ss ++ List.intercalate ",".toList fields) := by
  induction fields generalizing ss with
  | nil => exact absurd rfl hfields
  | cons field fields ih =>
      cases fields with
      | nil => simp [writeFields, List.intercalate]
      | cons next fields =>
          rw [writeFields, ih (List.cons_ne_nil _ _)]
          · simp [List.intercalate]
          · simp

theorem writeValues_front (front back : List Param) (ss : Str) :
    (List.range front.length).foldlM (fun ss i =>
      (Tuples.apply (front ++ back) i ss).map (· ++ ",".toList)) ss =
        some (ss ++ front.flatMap (fun p => p.written ++ ",".toList)) := by
  induction front using List.reverseRecOn generalizing back with
  | nil => simp
  | append_singleton front p ih =>
      have hfront := ih (p :: back)
      rw [List.length_append, List.length_singleton, List.range_succ,
        List.foldlM_append, List.append_assoc, List.singleton_append, hfront]
      simp [Tuples.apply, tupleFormatFunc_eq]

theorem commas_shift {p last : Param} {params front : List Param}
    (hsplit : p :: params = front ++ [last]) :
    front.flatMap (fun p => p.written ++ ",".toList) ++ last.written =
      p.written ++ params.flatMap (fun p => ',' :: p.written) := by
  induction front generalizing p params with
  | nil =>
      obtain ⟨rfl, rfl⟩ := List.cons.inj hsplit
      simp
  | cons first front ih =>
      obtain ⟨rfl, hrest⟩ := List.cons.inj hsplit
      cases params with
      | nil => exact absurd hrest.symm (by simp)
      | cons next params =>
          have hnext := ih hrest
          rw [List.flatMap_cons, List.append_assoc, hnext]
          simp

theorem writeValues_eq (p : Param) (params : List Param) (ss : Str) :
    (writeValues (p :: params) (params.length + 1) ss).map
        (· ++ ");".toList) =
      some (ss ++ p.written ++ restText params) := by
  obtain ⟨front, last, hsplit⟩ :=
    (List.eq_nil_or_concat' (p :: params)).resolve_left (List.cons_ne_nil _ _)
  have hlength : params.length = front.length := by
    simpa using congrArg List.length hsplit
  have hshift := commas_shift hsplit
  have hlast : Tuples.apply (front ++ [last]) front.length
      (ss ++ front.flatMap fun p => p.written ++ ",".toList) =
        some (ss ++ (p.written ++
          params.flatMap fun p => ',' :: p.written)) := by
    rw [← hshift]
    simp [Tuples.apply, tupleFormatFunc_eq]
  rw [hsplit, writeValues, Nat.add_sub_cancel, hlength, writeValues_front,
    Option.bind_eq_bind, Option.bind_some, hlast]
  simp [restText]

theorem insertStatement_eq (schema table : Str) {fields : List Str}
    (hfields : fields ≠ []) (p : Param) (params : List Param)
    (hparams : (p :: params).length = fields.length) :
    insertStatement schema table fields (p :: params) =
      some ("insert into ".toList ++ schema ++ ".".toList ++ table ++
        " (".toList ++ List.intercalate ",".toList fields ++
          ") values \n".toList ++
            '(' :: (p.written ++ restText params)) := by
  unfold insertStatement
  dsimp only
  have hopen : ") values \n(".toList = ") values \n".toList ++ ['('] := by decide
  rw [writeFields_eq hfields, ← hparams, List.length_cons, hopen]
  simp only [Option.bind_eq_bind, Option.bind_some]
  have hvalues := writeValues_eq p params ("insert into ".toList ++ schema ++
    ".".toList ++ table ++ " (".toList ++
      List.intercalate ",".toList fields ++
        (") values \n".toList ++ ['(']))
  rw [Option.map_eq_bind] at hvalues
  exact hvalues.trans (congrArg some (by simp))

theorem insertStatement_iff (schema table : Str) {fields : List Str}
    {params : List Param} (hfields : fields ≠ [])
    (hparams : params.length = fields.length) :
    (∃ sql, insertStatement schema table fields params = some sql ∧
        InsertsExactly schema table fields params sql) ↔
      ∀ p ∈ params, p.ReadBack := by
  cases params with
  | nil =>
      have hnil := List.eq_nil_of_length_eq_zero hparams.symm
      exact absurd hnil hfields
  | cons p params =>
      rw [insertStatement_eq schema table hfields p params hparams,
        List.forall_mem_cons, ← readValues_iff]
      constructor
      · intro ⟨sql, hsql, clause, hclause, hread⟩
        rw [← Option.some.inj hsql] at hclause
        rw [← List.append_cancel_left hclause] at hread
        exact hread
      · intro hread
        exact ⟨_, rfl, _, rfl, hread⟩

theorem returned_of_insertOne {σ κ ρ π : Type} [DecidableEq κ]
    {pool : ClientPool σ κ} {driver : Driver κ ρ π} {version affected : Str}
    {U : TypeName} {fields : List Str} {params : List Param}
    {state final : Traced σ κ}
    (hinsert : PgClient.insertOne pool driver version U fields params state =
      some (affected, final)) : pool.Returned state final := by
  obtain ⟨sql, _, hsent⟩ := Option.bind_eq_some_iff.mp hinsert
  obtain ⟨saved, hsaved, hresult⟩ := Option.bind_eq_some_iff.mp hsent
  have hfinal : saved.2 = final :=
    congrArg Prod.snd (Option.some.inj hresult)
  unfold PgClient.save at hsaved
  rw [← hfinal]
  exact Pool.returned_of_borrowing hsaved

/-- The statements of both clients insert exactly the parameters when and only
when no text has an apostrophe and no number is a `short` or a character. -/
theorem insertOne_insertsExactly_iff (version schema table_name : Str)
    (U : TypeName) {fields : List Str} {params : List Param}
    (hfields : 1 ≤ fields.length) (hparams : params.length = fields.length) :
    ((∃ sql, PgClient.insertOneStatement version U fields params = some sql ∧
        InsertsExactly version (cstr (resolveTypeToString U)) fields params
          sql) ↔ ∀ p ∈ params, p.ReadBack) ∧
      ((∃ sql, MsSqlBaseClient.insertOneStatement schema table_name fields
          params = some sql ∧
        InsertsExactly schema table_name fields params sql) ↔
          ∀ p ∈ params, p.ReadBack) := by
  have hne := List.ne_nil_of_length_pos hfields
  exact ⟨insertStatement_iff _ _ hne hparams,
    insertStatement_iff _ _ hne hparams⟩

def participantType : TypeName where
  demangled := "Participant".toList
  noPercent := by decide

def participantColumns : List Str :=
  ["firstname".toList, "lastname".toList, "processed".toList]

def participantValues : List Param := [
  .cString true "foo".toList,
  .string "bar".toList,
  .integer .int 0 (by decide) (by decide)]

theorem participantValues_inserted :
    (∃ sql, PgClient.insertOneStatement "epic".toList participantType
        participantColumns participantValues = some sql ∧
      InsertsExactly "epic".toList (cstr (resolveTypeToString
        participantType)) participantColumns participantValues sql) ∧
    ∃ sql, MsSqlBaseClient.insertOneStatement "epic".toList
        "participant_hist".toList participantColumns participantValues =
          some sql ∧
      InsertsExactly "epic".toList "participant_hist".toList
        participantColumns participantValues sql := by
  have hinserted := insertOne_insertsExactly_iff "epic".toList "epic".toList
    "participant_hist".toList participantType
      (by decide : 1 ≤ participantColumns.length)
        (rfl : participantValues.length = participantColumns.length)
  have hread : ∀ p ∈ participantValues, p.ReadBack := by
    intro p hp
    fin_cases hp
    · exact (by decide : '\'' ∉ cstr "foo".toList)
    · exact (by decide : '\'' ∉ "bar".toList)
    · exact ⟨by decide, by decide⟩
  exact ⟨hinserted.1.mpr hread, hinserted.2.mpr hread⟩

/-- An apostrophe in a name ends its literal. -/
theorem apostrophe_not_inserted :
    ¬ ∀ (version : Str) (U : TypeName) (fields : List Str)
        (params : List Param),
      1 ≤ fields.length → params.length = fields.length →
        ∃ sql, PgClient.insertOneStatement version U fields params =
          some sql ∧
            InsertsExactly version (cstr (resolveTypeToString U)) fields
              params sql := by
  intro hclaim
  have hinserted := hclaim "epic".toList participantType ["name".toList]
    [.string "D'Qar".toList] (by decide) rfl
  have hread := (insertStatement_iff _ _ (by decide) rfl).mp hinserted
  have hquote := hread _ List.mem_cons_self
  exact absurd (by decide : '\'' ∈ "D'Qar".toList) hquote

end StoreCpp
