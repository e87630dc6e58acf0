import StoreCpp.InsertedValues

/-!
# Insert statements with placeholders

`getInsertStatement` writes one placeholder for each column and then binds
every position through `BindCassParameter`, whose overload is chosen by the
exact type of the parameter.  The overload for all other types binds nothing.
-/

namespace StoreCpp

open Printf

/-- The built-in integer types beside those of `IntegerType`. -/
inductive CharacterType where
  | char
  | wideChar
  | char16
  | char32
  deriving DecidableEq

structure CassUuid where
  timeAndVersion : UInt64
  clockSeqAndNode : UInt64
  deriving DecidableEq

/-- A parameter with its exact type; the two kinds of numbers with a fraction
are given by their bits. -/
inductive CassParam where
  | cString (isConst : Bool) (chars : Str)
  | string (value : Str)
  | bool (value : Bool)
  | float (bits : UInt32)
  | double (bits : UInt64)
  | integer (type : IntegerType) (value : ℤ)
      (least : type.minimum ≤ value) (most : value ≤ type.maximum)
  | character (type : CharacterType) (code : ℤ)
  | uuid (value : CassUuid)

/-- What a position of a statement is bound to. -/
inductive CassValue where
  | string (text : Str)
  | bool (value : Bool)
  | float (bits : UInt32)
  | double (bits : UInt64)
  | int32 (value : ℤ)
  | int64 (value : ℤ)
  | uuid (value : CassUuid)
  deriving DecidableEq

/-- The overloads of `BindCassParameter`; `none` is the one that is empty.
Here `int32_t` is `int` and `int64_t` is `long`. -/
def bindCassParameter : CassParam → Option CassValue
  | .cString true chars => some (.string (cstr chars))
  | .string value => some (.string (cstr value))
  | .bool value => some (.bool value)
  | .float bits => some (.float bits)
  | .double bits => some (.double bits)
  | .integer .int value _ _ => some (.int32 value)
  | .integer .long value _ _ => some (.int64 value)
  | .uuid value => some (.uuid value)
  | _ => none

structure CassStatement where
  query : Str
  values : List (Option CassValue)
  deriving DecidableEq

namespace CassStatement

/-- `cass_statement_new`. -/
def new (query : Str) (parameterCount : ℕ) : CassStatement :=
  ⟨cstr query, List.replicate parameterCount none⟩

/-- `TupleFormatCassParamFunc`. -/
def bind (statement : CassStatement) (pos : ℕ) (p : CassParam) :
    CassStatement :=
  match bindCassParameter p with
  | some value =>
      { statement with values := statement.values.set pos (some value) }
  | none => statement

/-- `tuples::apply` with that function. -/
def apply (values : List CassParam) (index : ℕ) (statement : CassStatement) :
    Option CassStatement :=
  values[index]?.map (statement.bind index)

end CassStatement

namespace CassandraBaseClient

/-- The loop that writes the placeholders but the last. -/
def writePlaceholders (ss : Str) (size : ℕ) : Str :=
  (List.range (size - 1)).foldl (fun ss _ => ss ++ "?,".toList) ss

def insertQuery (table_name : Str) (fields : List Str) : Option Str := do
  let ss ← writeFields ("insert into ".toList ++ table_name ++ " (".toList)
    fields
  let ss := writePlaceholders (ss ++ ") values \n(".toList) fields.length
  some (ss ++ "?);".toList)

def getInsertStatement (table_name : Str) (fields : List Str)
    (params : List CassParam) : Option CassStatement := do
  let query ← insertQuery table_name fields
  (List.range fields.length).foldlM
    (fun statement i => CassStatement.apply params i statement)
    (CassStatement.new query fields.length)

end CassandraBaseClient

/-! ## Reading a statement -/

/-- Whether a quoted name is open, and the placeholders so far. -/
def scanPlaceholder (state : Bool × ℕ) (c : Char) : Bool × ℕ :=
  if c = '"' then (!state.1, state.2)
  else if c = '?' ∧ state.1 = false then (state.1, state.2 + 1)
  else state

def scanPlaceholders (state : Bool × ℕ) (text : Str) : Bool × ℕ :=
  text.foldl scanPlaceholder state

/-- The placeholders of a statement, which are outside its quoted names. -/
def placeholders (query : Str) : ℕ :=
  (scanPlaceholders (false, 0) query).2

/-- A name of a table or a column, which may be quoted and qualified. -/
structure CqlName where
  text : Str
  noNul : '\x00' ∉ text
  closed : scanPlaceholders (false, 0) text = (false, 0)

/-- The value is that of the parameter. -/
def CassValue.Denotes : CassValue → CassParam → Prop
  | .string text, .cString _ chars => text = cstr chars
  | .string text, .string value => text = value
  | .bool value, .bool given => value = given
  | .float bits, .float given => bits = given
  | .double bits, .double given => bits = given
  | .int32 value, .integer _ given _ _ => value = given
  | .int64 value, .integer _ given _ _ => value = given
  | .int32 value, .character _ code => value = code
  | .int64 value, .character _ code => value = code
  | .uuid value, .uuid given => value = given
  | _, _ => False

/-- A statement with one placeholder for each column comes out, and every
position is bound to the value of its parameter. -/
structure BindsAll (table : CqlName) (columns : List (CqlName × CassParam))
    (statement : CassStatement) : Prop where
  made : CassandraBaseClient.getInsertStatement table.text
    (columns.map fun column => column.1.text) (columns.map Prod.snd) =
      some statement
  positions : statement.values.length = columns.length
  placeholders : placeholders statement.query = columns.length
  bound : ∀ (i : ℕ) (column : CqlName × CassParam),
    columns[i]? = some column → ∃ value : CassValue,
      statement.values[i]? = some (some value) ∧ value.Denotes column.2

/-- The type of the parameter is one of those with an overload of its own, and
a string has no NUL inside. -/
def CassParam.Bindable : CassParam → Prop
  | .cString isConst _ => isConst = true
  | .string value => '\x00' ∉ value
  | .integer type _ _ _ => type = .int ∨ type = .long
  | .character _ _ => False
  | _ => True

theorem cstr_eq_self_iff (text : Str) :
    cstr text = text ↔ '\x00' ∉ text := by
  constructor
  · intro hsame hmem
    rw [← hsame] at hmem
    exact nul_notMem_cstr text hmem
  · exact cstr_eq_self

theorem bindable_iff (p : CassParam) :
    p.Bindable ↔ ∃ value, bindCassParameter p = some value ∧
      value.Denotes p := by
  cases p with
  | cString isConst chars =>
      cases isConst with
      | true => exact iff_of_true rfl ⟨_, rfl, rfl⟩
      | false => simp [CassParam.Bindable, bindCassParameter]
  | string value =>
      rw [CassParam.Bindable, ← cstr_eq_self_iff]
      simp [bindCassParameter, CassValue.Denotes]
  | integer type value least most =>
      cases type with
      | int => exact iff_of_true (Or.inl rfl) ⟨_, rfl, rfl⟩
      | long => exact iff_of_true (Or.inr rfl) ⟨_, rfl, rfl⟩
      | _ => simp [CassParam.Bindable, bindCassParameter]
  | character type code => simp [CassParam.Bindable, bindCassParameter]
  | bool value => exact iff_of_true trivial ⟨_, rfl, rfl⟩
  | float bits => exact iff_of_true trivial ⟨_, rfl, rfl⟩
  | double bits => exact iff_of_true trivial ⟨_, rfl, rfl⟩
  | uuid value => exact iff_of_true trivial ⟨_, rfl, rfl⟩

/-! ## The placeholders of the text -/

/-- A text without NUL in which every quoted name is closed. -/
structure HasPlaceholders (n : ℕ) (text : Str) : Prop where
  noNul : '\x00' ∉ text
  scan : scanPlaceholders (false, 0) text = (false, n)

theorem scanPlaceholders_add (quoted : Bool) (m n : ℕ) (text : Str) :
    scanPlaceholders (quoted, m + n) text =
      ((scanPlaceholders (quoted, m) text).1,
        (scanPlaceholders (quoted, m) text).2 + n) := by
  induction text generalizing quoted m with
  | nil => rfl
  | cons c text ih =>
      unfold scanPlaceholders at ih ⊢
      rw [List.foldl_cons, List.foldl_cons]
      unfold scanPlaceholder
      dsimp only
      split_ifs
      · exact ih (!quoted) m
      · rw [Nat.add_right_comm]
        exact ih quoted (m + 1)
      · exact ih quoted m

theorem HasPlaceholders.append {m n : ℕ} {front back : Str}
    (hfront : HasPlaceholders m front) (hback : HasPlaceholders n back) :
    HasPlaceholders (m + n) (front ++ back) := by
  refine ⟨?_, ?_⟩
  · rw [List.mem_append]
    exact fun h => h.elim hfront.noNul hback.noNul
  · have hfold : scanPlaceholders (false, 0) (front ++ back) =
        scanPlaceholders (scanPlaceholders (false, 0) front) back :=
      List.foldl_append
    have hshift := scanPlaceholders_add false 0 m back
    rw [Nat.zero_add, hback.scan] at hshift
    rw [hfold, hfront.scan, hshift, Nat.add_comm]

theorem HasPlaceholders.of_closed {m : ℕ} {front back : Str}
    (hfront : HasPlaceholders m front) (hback : HasPlaceholders 0 back) :
    HasPlaceholders m (front ++ back) :=
  hfront.append hback

theorem CqlName.hasPlaceholders (name : CqlName) :
    HasPlaceholders 0 name.text :=
  ⟨name.noNul, name.closed⟩

theorem HasPlaceholders.cstr_eq {n : ℕ} {text : Str}
    (htext : HasPlaceholders n text) : cstr text = text :=
  cstr_eq_self htext.noNul

theorem writeFields_hasPlaceholders {n : ℕ} {ss : Str}
    (hss : HasPlaceholders n ss) {fields : List CqlName}
    (hfields : fields ≠ []) :
    ∃ text, writeFields ss (fields.map CqlName.text) = some text ∧
      HasPlaceholders n text := by
  induction fields generalizing ss with
  | nil => exact absurd rfl hfields
  | cons field fields ih =>
      have hfield := hss.of_closed field.hasPlaceholders
      cases fields with
      | nil => exact ⟨ss ++ field.text, rfl, hfield⟩
      | cons next fields =>
          have hcomma : HasPlaceholders 0 ",".toList := ⟨by decide, by decide⟩
          exact ih (hfield.of_closed hcomma) (List.cons_ne_nil next fields)

theorem writePlaceholders_hasPlaceholders {m : ℕ} {ss : Str}
    (hss : HasPlaceholders m ss) (size : ℕ) :
    HasPlaceholders (m + (size - 1))
      (CassandraBaseClient.writePlaceholders ss size) := by
  unfold CassandraBaseClient.writePlaceholders
  have hmark : HasPlaceholders 1 "?,".toList := ⟨by decide, by decide⟩
  induction size - 1 with
  | zero => exact hss
  | succ k ih =>
      rw [List.range_succ, List.foldl_append]
      exact ih.append hmark

theorem insertQuery_hasPlaceholders (table : CqlName) {fields : List CqlName}
    (hfields : fields ≠ []) :
    ∃ query,
      CassandraBaseClient.insertQuery table.text (fields.map CqlName.text) =
        some query ∧
      HasPlaceholders fields.length query := by
  have hinto : HasPlaceholders 0 "insert into ".toList :=
    ⟨by decide, by decide +kernel⟩
  have hopening : HasPlaceholders 0 " (".toList := ⟨by decide, by decide⟩
  have hvalues : HasPlaceholders 0 ") values \n(".toList :=
    ⟨by decide, by decide +kernel⟩
  have hlast : HasPlaceholders 1 "?);".toList := ⟨by decide, by decide⟩
  obtain ⟨text, hwrite, htext⟩ := writeFields_hasPlaceholders
    ((hinto.of_closed table.hasPlaceholders).of_closed hopening) hfields
  have hquery := (writePlaceholders_hasPlaceholders
    (htext.of_closed hvalues) fields.length).append hlast
  have hpos : 0 < fields.length := List.length_pos_iff.mpr hfields
  have hcount : 0 + (fields.length - 1) + 1 = fields.length := by omega
  rw [hcount] at hquery
  refine ⟨_, ?_, hquery⟩
  unfold CassandraBaseClient.insertQuery
  rw [hwrite, List.length_map]
  rfl

/-! ## The positions -/

theorem apply_bind {values : List CassParam} {index : ℕ} {p : CassParam}
    (hp : values[index]? = some p) (query : Str)
    (front : List (Option CassValue)) (hfront : front.length = index)
    (k : ℕ) :
    CassStatement.apply values index
        ⟨query, front ++ List.replicate (k + 1) none⟩ =
      some ⟨query,
        (front ++ [bindCassParameter p]) ++ List.replicate k none⟩ := by
  subst hfront
  unfold CassStatement.apply CassStatement.bind
  rw [hp]
  cases hbinding : bindCassParameter p with
  | none => simp [hbinding, List.replicate_succ]
  | some value => simp [hbinding, List.replicate_succ]

/-- The loop after some of its positions. -/
theorem bindLoop_eq (params : List CassParam) (query : Str) (k : ℕ)
    (hk : k ≤ params.length) :
    (List.range k).foldlM
        (fun statement i => CassStatement.apply params i statement)
        ⟨query, List.replicate params.length none⟩ =
      some ⟨query, (params.take k).map bindCassParameter ++
        List.replicate (params.length - k) none⟩ := by
  induction k with
  | zero => simp
  | succ k ih =>
      have hlt : k < params.length := hk
      have hparam : params[k]? = some params[k] :=
        List.getElem?_eq_getElem hlt
      have hrest : params.length - k = params.length - (k + 1) + 1 := by
        omega
      have hlength : ((params.take k).map bindCassParameter).length = k := by
        rw [List.length_map, List.length_take]
        omega
      rw [List.range_succ, List.foldlM_append, ih (Nat.le_of_lt hlt), hrest]
      simp only [Option.bind_eq_bind, Option.bind_some, List.foldlM_cons,
        List.foldlM_nil]
      rw [apply_bind hparam query _ hlength,
        List.take_succ_eq_append_getElem hlt, List.map_append,
        List.map_singleton]
      rfl

/-- Each position gets what its parameter's overload binds, if anything. -/
theorem getInsertStatement_eq {table : Str} {fields : List Str}
    {params : List CassParam} {query : Str}
    (hlength : fields.length = params.length)
    (hquery : CassandraBaseClient.insertQuery table fields = some query) :
    CassandraBaseClient.getInsertStatement table fields params =
      some ⟨cstr query, params.map bindCassParameter⟩ := by
  unfold CassandraBaseClient.getInsertStatement CassStatement.new
  have hloop := bindLoop_eq params (cstr query) params.length (le_refl _)
  rw [hquery, hlength]
  simp only [Option.bind_eq_bind, Option.bind_some]
  rw [hloop, List.take_length, Nat.sub_self]
  simp

/-- Every position of the statement is bound to its parameter exactly when
each parameter's type has an overload and no string has a NUL inside. -/
theorem getInsertStatement_bindsAll_iff (table : CqlName)
    {columns : List (CqlName × CassParam)} (hcolumns : columns ≠ []) :
    (∃ statement, BindsAll table columns statement) ↔
      ∀ column ∈ columns, column.2.Bindable := by
  have hfields : columns.map Prod.fst ≠ [] := by simpa using hcolumns
  obtain ⟨query, hquery, hmarks⟩ := insertQuery_hasPlaceholders table hfields
  rw [List.map_map] at hquery
  rw [List.length_map] at hmarks
  have hlength : (columns.map (CqlName.text ∘ Prod.fst)).length =
      (columns.map Prod.snd).length := by simp
  have hmade := getInsertStatement_eq hlength hquery
  constructor
  · rintro ⟨statement, hbinds⟩ column hcolumn
    obtain ⟨i, hi⟩ := List.mem_iff_getElem?.mp hcolumn
    obtain ⟨value, hvalue, hdenotes⟩ := hbinds.bound i column hi
    cases Option.some.inj (hmade.symm.trans hbinds.made)
    simp only [List.getElem?_map, hi, Option.map_some,
      Option.some.injEq] at hvalue
    exact (bindable_iff column.2).mpr ⟨value, hvalue, hdenotes⟩
  · intro hbindable
    refine ⟨_, hmade, ?_, ?_, ?_⟩
    · simp
    · unfold placeholders
      rw [hmarks.cstr_eq, hmarks.scan]
    · intro i column hi
      have hcolumn := List.mem_iff_getElem?.mpr ⟨i, hi⟩
      obtain ⟨value, hvalue, hdenotes⟩ :=
        (bindable_iff column.2).mp (hbindable column hcolumn)
      exact ⟨value, by simp [hi, hvalue], hdenotes⟩

def participantHist : CqlName where
  text := "participant_hist".toList
  noNul := by decide
  closed := by decide +kernel

def firstname : CqlName where
  text := "firstname".toList
  noNul := by decide
  closed := by decide +kernel

def processedColumn : CqlName where
  text := "processed".toList
  noNul := by decide
  closed := by decide +kernel

def processedOne : CassParam :=
  .integer .int 1 (by decide) (by decide)

theorem participantHist_bindsAll :
    ∃ statement, BindsAll participantHist
      [(firstname, .cString true "foo".toList),
        (processedColumn, processedOne)] statement :=
  (getInsertStatement_bindsAll_iff participantHist
    (List.cons_ne_nil _ _)).mpr (by
      intro column hcolumn
      simp only [List.mem_cons, List.not_mem_nil, or_false] at hcolumn
      cases hcolumn with
      | inl hfirst =>
          rw [hfirst]
          rfl
      | inr hsecond =>
          rw [hsecond]
          exact Or.inl rfl)

/-- The zero of the usage comment as an `unsigned int` leaves its position
unbound. -/
def unsignedZero : CassParam :=
  .integer .unsignedInt 0 (by decide) (by decide)

theorem unsignedZero_not_bound :
    ¬ ∀ (table : CqlName) (columns : List (CqlName × CassParam)),
      columns ≠ [] → ∃ statement, BindsAll table columns statement := by
  intro hclaim
  obtain ⟨statement, hbinds⟩ := hclaim participantHist
    [(processedColumn, unsignedZero)] (List.cons_ne_nil _ _)
  obtain ⟨value, hvalue, _⟩ := hbinds.bound 0 _ rfl
  have hmade : CassandraBaseClient.getInsertStatement participantHist.text
      [processedColumn.text] [unsignedZero] =
        some ⟨"insert into participant_hist (processed) values \n(?);".toList,
          [none]⟩ := by
    decide +kernel
  cases Option.some.inj (hmade.symm.trans hbinds.made)
  cases hvalue

end StoreCpp
