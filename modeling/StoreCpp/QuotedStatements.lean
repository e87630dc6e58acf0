import StoreCpp.DollarQuote
import StoreCpp.Events
import StoreCpp.FormatTemplate

/-!
# The statements whose values are dollar-quoted

`PgEventStore::Save` and `Client::save` wrap every value with `$Q$` and splice
the literals into one statement.  The server reads the statement back by the
rule of dollar quoting, and the main result says for which values it finds
the literals that were meant.
-/

namespace StoreCpp

open Printf DollarQuote

structure UuidText where
  text : Str
  wellFormed : ∀ c ∈ text, c ∈ "0123456789abcdefABCDEF-".toList

def dollarQ : Delimiter Char where
  text := "$Q$".toList
  ne_nil := by decide

def quoted (value : Str) : Str := wrapString value "$Q$".toList

def appendFormat : Str :=
  "\n          select %s.mt_append_event(%s, %s, ".toList ++
  "array[%s]::uuid[], array[%s]::varchar[], array[%s]::jsonb[])".toList ++
  "\n          ".toList

def appendStatement (dump : Json → Str) (generateUuid : ℕ → UuidText)
    (dbSchema streamId : Str) (stream : List IEvent) : Option Str := do
  let eventIds := (List.range stream.length).map fun i =>
    quoted (generateUuid i).text
  let eventTypes := stream.map fun e => quoted e.type
  let bodies := stream.map fun e => quoted (dump e.data)
  let eventType ← eventTypes[0]?
  stringFormat appendFormat [
    .str dbSchema,
    .str (quoted streamId),
    .str eventType,
    .str (join eventIds ",".toList),
    .str (join eventTypes ",".toList),
    .str (join bodies ",".toList)]

def saveFormat : Str :=
  "\n              insert into %s.%s ".toList ++
  "(id, name, ts, type, related, current)".toList ++
  "\n              values (%s, %s, now(), %s, %s, %s)".toList ++
  "\n              on conflict (id, type) do update set ts = now(), ".toList ++
  "current = EXCLUDED.current, history = EXCLUDED.history".toList ++
  "\n            ".toList

def saveStatement (dump : Json → Str) (version : Str) (A : TypeName)
    (j : Json) : Option Str := do
  let id ← j.valueString "id".toList []
  let name ← j.valueString "name".toList []
  let type ← j.valueString "type".toList []
  let related ← j.valueString "related".toList []
  stringFormat saveFormat [
    .str version,
    .str (resolveTypeToString A),
    .str (quoted id),
    .str (quoted name),
    .str (quoted type),
    .str (quoted related),
    .str (quoted (dump j))]

inductive Statement where
  | append (dbSchema streamId : Str) (stream : List IEvent)
  | save (version : Str) (A : TypeName) (j : Json)

def uuidTexts (generateUuid : ℕ → UuidText) (stream : List IEvent) :
    List Str :=
  (List.range stream.length).map fun i => (generateUuid i).text

def arrayPieces (opening : Str) : List Str → List (Str × Str)
  | [] => []
  | value :: values =>
      (opening, value) :: values.map fun other => (",".toList, other)

def appendTail : Str := "]::jsonb[])\n          ".toList

def saveTail : Str :=
  ")\n              on conflict (id, type) do update set ts = now(), ".toList ++
  "current = EXCLUDED.current, history = EXCLUDED.history".toList ++
  "\n            ".toList

namespace Statement

def sql (dump : Json → Str) (generateUuid : ℕ → UuidText) :
    Statement → Option Str
  | append dbSchema streamId stream =>
      appendStatement dump generateUuid dbSchema streamId stream
  | save version A j => saveStatement dump version A j

/-- The schema and table names, which are not quoted. -/
def names : Statement → List Str
  | append dbSchema _ _ => [dbSchema]
  | save version A _ => [version, resolveTypeToString A]

/-- The intended shape: each value with the plain text before it. -/
def pieces (dump : Json → Str) (generateUuid : ℕ → UuidText) :
    Statement → List (Str × Str)
  | append dbSchema streamId stream =>
      [("\n          select ".toList ++ cstr dbSchema ++
          ".mt_append_event(".toList, streamId),
        (", ".toList, (stream.map IEvent.type).headD [])] ++
      arrayPieces ", array[".toList (uuidTexts generateUuid stream) ++
      arrayPieces "]::uuid[], array[".toList (stream.map IEvent.type) ++
      arrayPieces "]::varchar[], array[".toList
        (stream.map fun e => dump e.data)
  | save version A j =>
      [("\n              insert into ".toList ++ cstr version ++ ".".toList ++
          cstr (resolveTypeToString A) ++
          " (id, name, ts, type, related, current)\n              values (".toList,
          (j.valueString "id".toList []).getD []),
        (", ".toList, (j.valueString "name".toList []).getD []),
        (", now(), ".toList, (j.valueString "type".toList []).getD []),
        (", ".toList, (j.valueString "related".toList []).getD []),
        (", ".toList, dump j)]

def tail : Statement → Str
  | append _ _ _ => appendTail
  | save _ _ _ => saveTail

end Statement

def appendTemplate : List Directive := [
  .text "\n          select ".toList, .string,
  .text ".mt_append_event(".toList, .string, .text ", ".toList, .string,
  .text ", array[".toList, .string, .text "]::uuid[], array[".toList, .string,
  .text "]::varchar[], array[".toList, .string,
  .text appendTail]

def saveTemplate : List Directive := [
  .text "\n              insert into ".toList, .string, .text ".".toList,
  .string,
  .text " (id, name, ts, type, related, current)\n              values (".toList,
  .string, .text ", ".toList, .string, .text ", now(), ".toList, .string,
  .text ", ".toList, .string, .text ", ".toList, .string,
  .text saveTail]

theorem appendFormat_eq : appendFormat = source appendTemplate := by
  decide +kernel

theorem saveFormat_eq : saveFormat = source saveTemplate := by
  decide +kernel

theorem appendTemplate_avoids :
    Avoids '%' appendTemplate ∧ Avoids '\x00' appendTemplate := by
  decide

theorem saveTemplate_avoids :
    Avoids '%' saveTemplate ∧ Avoids '\x00' saveTemplate := by
  decide +kernel

theorem appendTemplate_fits (schema stream type ids types bodies : Str) :
    Fits appendTemplate [.str schema, .str stream, .str type, .str ids,
      .str types, .str bodies] := rfl

theorem saveTemplate_fits (version table id name type related doc : Str) :
    Fits saveTemplate [.str version, .str table, .str id, .str name,
      .str type, .str related, .str doc] := rfl

theorem fill_appendTemplate (schema stream type ids types bodies : Str) :
    fill appendTemplate [.str schema, .str stream, .str type, .str ids,
      .str types, .str bodies] =
    some ("\n          select ".toList ++ (cstr schema ++
      (".mt_append_event(".toList ++ (cstr stream ++
      (", ".toList ++ (cstr type ++
      (", array[".toList ++ (cstr ids ++
      ("]::uuid[], array[".toList ++ (cstr types ++
      ("]::varchar[], array[".toList ++ (cstr bodies ++
      (appendTail ++ []))))))))))))) := rfl

theorem fill_saveTemplate (version table id name type related doc : Str) :
    fill saveTemplate [.str version, .str table, .str id, .str name,
      .str type, .str related, .str doc] =
    some ("\n              insert into ".toList ++ (cstr version ++
      (".".toList ++ (cstr table ++
      (" (id, name, ts, type, related, current)\n              values (".toList ++
      (cstr id ++ (", ".toList ++ (cstr name ++
      (", now(), ".toList ++ (cstr type ++ (", ".toList ++ (cstr related ++
      (", ".toList ++ (cstr doc ++ (saveTail ++ []))))))))))))))) := rfl

/-- What a value may be: no NUL, no delimiter in it, and no beginning of one
at its end that the closing delimiter would complete. -/
structure Readable (value : Str) : Prop where
  noNul : '\x00' ∉ value
  noDelimiter : ¬ "$Q$".toList <:+: value
  noMerge : ¬ "$Q".toList <:+ value

instance (value : Str) : Decidable (Readable value) :=
  decidable_of_iff ('\x00' ∉ value ∧ ¬ "$Q$".toList <:+: value ∧
      ¬ "$Q".toList <:+ value)
    ⟨fun h => ⟨h.1, h.2.1, h.2.2⟩,
      fun h => ⟨h.noNul, h.noDelimiter, h.noMerge⟩⟩

theorem closed_dollarQ_iff (value : Str) :
    Closed dollarQ value ↔
      ¬ "$Q$".toList <:+: value ∧ ¬ "$Q".toList <:+ value := by
  constructor
  · intro hclosed
    constructor
    · rintro ⟨before, after, rfl⟩
      have hnil := hclosed before (after ++ "$Q$".toList) (by simp [dollarQ])
      simp at hnil
    · rintro ⟨before, rfl⟩
      have hnil := hclosed before "Q$".toList (by simp [dollarQ])
      exact absurd hnil (by decide)
  · rintro ⟨hdelimiter, hmerge⟩ before after htext
    rcases List.append_eq_append_iff.mp htext with
      ⟨closing, hbefore, hclosing⟩ | ⟨rest, hvalue, _⟩
    · match closing, hclosing with
      | [], _ =>
          refine absurd ⟨before, [], ?_⟩ hdelimiter
          simpa [dollarQ] using hbefore
      | [c], hclosing =>
          refine absurd ⟨before, ?_⟩ hmerge
          have hends : (before ++ ['$', 'Q']) ++ ['$'] = value ++ [c] := by
            simpa [dollarQ] using hbefore
          exact (List.append_inj' hends rfl).1
      | [c, d], hclosing =>
          have hends : (before ++ ['$', 'Q']) ++ ['$'] =
              (value ++ [c]) ++ [d] := by
            simpa [dollarQ] using hbefore
          have hd : '$' = d :=
            List.singleton_inj.mp (List.append_inj' hends rfl).2
          have hclosing' : ['$', 'Q', '$'] = c :: d :: after := hclosing
          rw [← hd] at hclosing'
          exact absurd hclosing' (by simp)
      | c :: d :: e :: rest, hclosing =>
          have hlength := congrArg List.length hclosing
          simp only [dollarQ, List.cons_append, List.length_cons,
            List.length_append] at hlength
          have hthree : "$Q$".toList.length = 3 := rfl
          exact List.eq_nil_of_length_eq_zero (by omega)
    · refine absurd ⟨before, rest, ?_⟩ hdelimiter
      exact hvalue.symm

theorem lex_eq_some_iff {text tail : Str} {pieces : List (Str × Str)}
    (hnul : '\x00' ∉ text)
    (hrender : (∀ piece ∈ pieces, '\x00' ∉ piece.2) →
      text = render dollarQ pieces tail)
    (htail : ¬ dollarQ.text <:+: tail) :
    lex dollarQ text = some (pieces, tail) ↔
      (∀ piece ∈ pieces, Closed dollarQ piece.1) ∧
        ∀ piece ∈ pieces, Readable piece.2 := by
  constructor
  · intro hlex
    have htext := render_of_lex hlex
    have hvalues : ∀ piece ∈ pieces, '\x00' ∉ piece.2 := by
      intro piece hpiece hmem
      apply hnul
      rw [← htext]
      refine List.mem_append_left _ (List.mem_flatMap.mpr ⟨piece, hpiece, ?_⟩)
      simp [hmem]
    rw [← htext, lex_render_iff htail] at hlex
    refine ⟨fun piece hpiece => (hlex piece hpiece).1, fun piece hpiece => ?_⟩
    obtain ⟨hdelimiter, hmerge⟩ :=
      (closed_dollarQ_iff piece.2).mp (hlex piece hpiece).2
    exact ⟨hvalues piece hpiece, hdelimiter, hmerge⟩
  · rintro ⟨hplain, hreadable⟩
    rw [hrender fun piece hpiece => (hreadable piece hpiece).noNul,
      lex_render_iff htail]
    intro piece hpiece
    have hpieceReadable := hreadable piece hpiece
    exact ⟨hplain piece hpiece, (closed_dollarQ_iff piece.2).mpr
      ⟨hpieceReadable.noDelimiter, hpieceReadable.noMerge⟩⟩

/-! ## The text of a statement -/

theorem quoted_ne_nil (value : Str) : quoted value ≠ [] := by
  simp [quoted, wrapString]

theorem nul_notMem_quoted {value : Str} (hnul : '\x00' ∉ value) :
    '\x00' ∉ quoted value := by
  simp [quoted, wrapString, hnul]

theorem nul_notMem_join {values : List Str}
    (hnul : ∀ value ∈ values, '\x00' ∉ value) :
    '\x00' ∉ join (values.map quoted) ",".toList := by
  apply notMem_join_map
  · exact fun value _ => quoted_ne_nil value
  · decide
  · exact fun value hvalue => nul_notMem_quoted (hnul value hvalue)

def written (piece : Str × Str) : Str := piece.1 ++ quoted piece.2

theorem render_eq (pieces : List (Str × Str)) (tail : Str) :
    render dollarQ pieces tail = pieces.flatMap written ++ tail := by
  unfold render written quoted wrapString
  simp [dollarQ]

/-- The pieces of an array are its joined values, however a value is
written. -/
theorem flatMap_arrayPieces {write : Str → Str}
    (hwrite : ∀ value, write value ≠ []) (opening : Str) {values : List Str}
    (hvalues : values ≠ []) :
    (arrayPieces opening values).flatMap
        (fun piece => piece.1 ++ write piece.2) =
      opening ++ join (values.map write) ",".toList := by
  cases values with
  | nil => exact absurd rfl hvalues
  | cons value values =>
      rw [join_map_cons (hwrite value)]
      simp [arrayPieces, List.flatMap_map]

theorem written_arrayPieces (opening : Str) {values : List Str}
    (hvalues : values ≠ []) :
    (arrayPieces opening values).flatMap written =
      opening ++ join (values.map quoted) ",".toList :=
  flatMap_arrayPieces quoted_ne_nil opening hvalues

theorem forall_arrayPieces {P : Str → Prop} (opening : Str)
    (values : List Str) :
    (∀ piece ∈ arrayPieces opening values, P piece.2) ↔
      ∀ value ∈ values, P value := by
  cases values with
  | nil => simp [arrayPieces]
  | cons value values => simp [arrayPieces]

theorem fst_mem_arrayPieces {opening : Str} {values : List Str}
    {piece : Str × Str} (hpiece : piece ∈ arrayPieces opening values) :
    piece.1 = opening ∨ piece.1 = ",".toList := by
  cases values with
  | nil => cases hpiece
  | cons value values =>
      rcases List.mem_cons.mp hpiece with rfl | hpiece
      · exact Or.inl rfl
      · obtain ⟨other, _, rfl⟩ := List.mem_map.mp hpiece
        exact Or.inr rfl

section Texts

variable {dump : Json → Str} {generateUuid : ℕ → UuidText}

theorem appendStatement_eq_some {dbSchema streamId sql : Str}
    {stream : List IEvent}
    (hsql : appendStatement dump generateUuid dbSchema streamId stream =
      some sql) :
    stream ≠ [] ∧ fill appendTemplate [
      .str dbSchema,
      .str (quoted streamId),
      .str (quoted ((stream.map IEvent.type).headD [])),
      .str (join ((uuidTexts generateUuid stream).map quoted) ",".toList),
      .str (join ((stream.map IEvent.type).map quoted) ",".toList),
      .str (join ((stream.map fun e => dump e.data).map quoted)
        ",".toList)] = some sql := by
  cases stream with
  | nil => simp [appendStatement] at hsql
  | cons event stream =>
      refine ⟨List.cons_ne_nil _ _, ?_⟩
      rw [← format_source appendTemplate_avoids.1 appendTemplate_avoids.2
        (appendTemplate_fits _ _ _ _ _ _), ← appendFormat_eq]
      simp only [appendStatement, List.map_cons, List.getElem?_cons_zero,
        Option.bind_eq_bind, Option.bind_some] at hsql
      have hformat := (stringFormat_eq_some.mp hsql).1
      simpa [uuidTexts, Function.comp_def] using hformat

theorem nul_notMem_append {dbSchema streamId sql : Str}
    {stream : List IEvent}
    (hsql : appendStatement dump generateUuid dbSchema streamId stream =
      some sql) : '\x00' ∉ sql :=
  nul_notMem_fill appendTemplate_avoids.2 (appendTemplate_fits _ _ _ _ _ _)
    (appendStatement_eq_some hsql).2

theorem append_eq_render {dbSchema streamId sql : Str} {stream : List IEvent}
    (hsql : appendStatement dump generateUuid dbSchema streamId stream =
      some sql)
    (hnul : ∀ piece ∈ (Statement.append dbSchema streamId stream).pieces dump
      generateUuid, '\x00' ∉ piece.2) :
    sql = render dollarQ
      ((Statement.append dbSchema streamId stream).pieces dump generateUuid)
      (Statement.append dbSchema streamId stream).tail := by
  obtain ⟨hstream, hfill⟩ := appendStatement_eq_some hsql
  have hids : uuidTexts generateUuid stream ≠ [] := by
    simpa [uuidTexts] using hstream
  have htypes : stream.map IEvent.type ≠ [] := by simpa using hstream
  have hbodies : stream.map (fun e => dump e.data) ≠ [] := by
    simpa using hstream
  have harray : ∀ opening values,
      (∀ piece ∈ arrayPieces opening values, '\x00' ∉ piece.2) →
        cstr (join (values.map quoted) ",".toList) =
          join (values.map quoted) ",".toList := by
    intro opening values hpieces
    exact cstr_eq_self
      (nul_notMem_join ((forall_arrayPieces opening values).mp hpieces))
  have hquoted : ∀ value, '\x00' ∉ value → cstr (quoted value) =
      quoted value := fun value hvalue =>
    cstr_eq_self (nul_notMem_quoted hvalue)
  simp only [Statement.pieces, List.forall_mem_append, List.forall_mem_cons]
    at hnul
  obtain ⟨⟨⟨⟨hstreamId, htype, _⟩, hid⟩, htypesNul⟩, hbody⟩ := hnul
  rw [fill_appendTemplate, hquoted _ hstreamId, hquoted _ htype,
    harray _ _ hid, harray _ _ htypesNul, harray _ _ hbody,
    Option.some.injEq] at hfill
  rw [← hfill, render_eq]
  simp only [Statement.pieces, Statement.tail, List.flatMap_append,
    written_arrayPieces _ hids, written_arrayPieces _ htypes,
    written_arrayPieces _ hbodies, List.flatMap_cons, List.flatMap_nil,
    written, List.append_assoc, List.append_nil]

theorem saveStatement_eq_some {version sql : Str} {A : TypeName} {j : Json}
    (hsql : saveStatement dump version A j = some sql) :
    fill saveTemplate [
      .str version,
      .str (resolveTypeToString A),
      .str (quoted ((j.valueString "id".toList []).getD [])),
      .str (quoted ((j.valueString "name".toList []).getD [])),
      .str (quoted ((j.valueString "type".toList []).getD [])),
      .str (quoted ((j.valueString "related".toList []).getD [])),
      .str (quoted (dump j))] = some sql := by
  simp only [saveStatement, Option.bind_eq_bind,
    Option.bind_eq_some_iff] at hsql
  obtain ⟨id, hid, name, hname, type, htype, related, hrelated, hformat⟩ :=
    hsql
  rw [← format_source saveTemplate_avoids.1 saveTemplate_avoids.2
    (saveTemplate_fits _ _ _ _ _ _ _), ← saveFormat_eq, hid, hname, htype,
    hrelated]
  exact (stringFormat_eq_some.mp hformat).1

theorem nul_notMem_save {version sql : Str} {A : TypeName} {j : Json}
    (hsql : saveStatement dump version A j = some sql) : '\x00' ∉ sql :=
  nul_notMem_fill saveTemplate_avoids.2 (saveTemplate_fits _ _ _ _ _ _ _)
    (saveStatement_eq_some hsql)

theorem save_eq_render {version sql : Str} {A : TypeName} {j : Json}
    (hsql : saveStatement dump version A j = some sql)
    (hnul : ∀ piece ∈ (Statement.save version A j).pieces dump generateUuid,
      '\x00' ∉ piece.2) :
    sql = render dollarQ
      ((Statement.save version A j).pieces dump generateUuid)
      (Statement.save version A j).tail := by
  have hfill := saveStatement_eq_some hsql
  have hquoted : ∀ value, '\x00' ∉ value → cstr (quoted value) =
      quoted value := fun value hvalue =>
    cstr_eq_self (nul_notMem_quoted hvalue)
  simp only [Statement.pieces, List.forall_mem_cons] at hnul
  obtain ⟨hid, hname, htype, hrelated, hdoc, _⟩ := hnul
  rw [fill_saveTemplate, hquoted _ hid, hquoted _ hname, hquoted _ htype,
    hquoted _ hrelated, hquoted _ hdoc, Option.some.injEq] at hfill
  rw [← hfill, render_eq]
  simp only [Statement.pieces, Statement.tail, List.flatMap_cons,
    List.flatMap_nil, written, List.append_assoc, List.append_nil]

end Texts

/-! ## Which statements are read as they were meant -/

theorem noDelimiter_of_notMem {text : Str} (hdollar : '$' ∉ text) :
    ¬ dollarQ.text <:+: text := by
  intro hoccurs
  exact hdollar (hoccurs.subset (by decide))

theorem closed_of_notMem {text : Str} (hdollar : '$' ∉ text) :
    Closed dollarQ text :=
  closed_of_head_notMem hdollar

theorem closed_appendOpening_iff (dbSchema : Str) :
    Closed dollarQ ("\n          select ".toList ++ cstr dbSchema ++
      ".mt_append_event(".toList) ↔ ¬ dollarQ.text <:+: cstr dbSchema := by
  constructor
  · intro hclosed hschema
    exact hclosed.not_occurs (hschema.trans ⟨_, _, rfl⟩)
  · intro hschema
    have hsplit : "\n          select ".toList ++ cstr dbSchema ++
        ".mt_append_event(".toList =
          ("\n          select".toList ++ ' ' :: (cstr dbSchema ++
            '.' :: "mt_append_event".toList)) ++ ['('] := by simp
    rw [hsplit]
    apply closed_concat (by decide)
    rw [infix_append_cons_iff (by decide), infix_append_cons_iff (by decide)]
    rintro (hselect | hname | hcall)
    · exact noDelimiter_of_notMem (by decide) hselect
    · exact hschema hname
    · exact noDelimiter_of_notMem (by decide) hcall

theorem closed_saveOpening_iff (version table : Str) :
    Closed dollarQ ("\n              insert into ".toList ++ cstr version ++
      ".".toList ++ cstr table ++
      " (id, name, ts, type, related, current)\n              values (".toList) ↔
      ¬ dollarQ.text <:+: cstr version ∧ ¬ dollarQ.text <:+: cstr table := by
  constructor
  · intro hclosed
    constructor
    · intro hversion
      refine hclosed.not_occurs (hversion.trans
        ⟨"\n              insert into ".toList, ".".toList ++ (cstr table ++
          " (id, name, ts, type, related, current)\n              values (".toList),
          ?_⟩)
      simp only [List.append_assoc]
    · intro htable
      exact hclosed.not_occurs (htable.trans ⟨_, _, rfl⟩)
  · rintro ⟨hversion, htable⟩
    have hsplit : "\n              insert into ".toList ++ cstr version ++
        ".".toList ++ cstr table ++
        " (id, name, ts, type, related, current)\n              values (".toList =
          ("\n              insert into".toList ++ ' ' :: (cstr version ++
            '.' :: (cstr table ++ ' ' ::
            "(id, name, ts, type, related, current)\n              values ".toList))) ++
            ['('] := by simp
    rw [hsplit]
    apply closed_concat (by decide)
    rw [infix_append_cons_iff (by decide), infix_append_cons_iff (by decide),
      infix_append_cons_iff (by decide)]
    rintro (hinsert | hname | hname | hvalues)
    · exact noDelimiter_of_notMem (by decide) hinsert
    · exact hversion hname
    · exact htable hname
    · exact noDelimiter_of_notMem (by decide) hvalues

theorem UuidText.readable (uuid : UuidText) : Readable uuid.text := by
  have hdollar : '$' ∉ uuid.text := by
    intro hmem
    exact absurd (uuid.wellFormed _ hmem) (by decide)
  refine ⟨?_, noDelimiter_of_notMem hdollar, ?_⟩
  · intro hmem
    exact absurd (uuid.wellFormed _ hmem) (by decide)
  · intro hends
    exact hdollar (hends.subset (by decide))

namespace Statement

def values (dump : Json → Str) : Statement → List Str
  | append _ streamId stream =>
      streamId :: stream.flatMap fun e => [e.type, dump e.data]
  | save _ _ j => [
      (j.valueString "id".toList []).getD [],
      (j.valueString "name".toList []).getD [],
      (j.valueString "type".toList []).getD [],
      (j.valueString "related".toList []).getD [],
      dump j]

theorem closed_pieces_iff {dump : Json → Str} {generateUuid : ℕ → UuidText}
    (statement : Statement) :
    (∀ piece ∈ statement.pieces dump generateUuid, Closed dollarQ piece.1) ↔
      ∀ name ∈ statement.names, ¬ dollarQ.text <:+: cstr name := by
  have harray : ∀ (opening : Str) (values : List Str), '$' ∉ opening →
      ∀ piece ∈ arrayPieces opening values, Closed dollarQ piece.1 := by
    intro opening values hopening piece hpiece
    rcases fst_mem_arrayPieces hpiece with heq | heq
    · exact closed_of_notMem (heq ▸ hopening)
    · exact closed_of_notMem (heq ▸ by decide)
  have hcomma : Closed dollarQ ", ".toList := closed_of_notMem (by decide)
  cases statement with
  | append dbSchema streamId stream =>
      have hopening := closed_appendOpening_iff dbSchema
      simp only [pieces, names, List.forall_mem_append, List.forall_mem_cons,
        hopening, List.not_mem_nil, false_implies, implies_true, and_true]
      constructor
      · rintro ⟨⟨⟨⟨hschema, _⟩, _⟩, _⟩, _⟩
        exact hschema
      · intro hschema
        refine ⟨⟨⟨⟨hschema, hcomma⟩, ?_⟩, ?_⟩, ?_⟩
        · exact harray _ _ (by decide)
        · exact harray _ _ (by decide)
        · exact harray _ _ (by decide)
  | save version A j =>
      have hopening :=
        closed_saveOpening_iff version (resolveTypeToString A)
      have hnow : Closed dollarQ ", now(), ".toList :=
        closed_of_notMem (by decide)
      simp only [pieces, names, List.forall_mem_cons, hopening, hcomma, hnow,
        List.not_mem_nil, false_implies, implies_true, and_true]

theorem readable_pieces_iff {dump : Json → Str} {generateUuid : ℕ → UuidText}
    {statement : Statement} {sql : Str}
    (hsql : statement.sql dump generateUuid = some sql) :
    (∀ piece ∈ statement.pieces dump generateUuid, Readable piece.2) ↔
      ∀ value ∈ statement.values dump, Readable value := by
  cases statement with
  | append dbSchema streamId stream =>
      have hids : ∀ id ∈ uuidTexts generateUuid stream, Readable id := by
        intro id hid
        obtain ⟨i, _, rfl⟩ := List.mem_map.mp hid
        exact (generateUuid i).readable
      obtain ⟨hstream, _⟩ := appendStatement_eq_some hsql
      obtain ⟨event, rest, rfl⟩ := List.exists_cons_of_ne_nil hstream
      simp only [pieces, values, List.forall_mem_append,
        List.forall_mem_cons, forall_arrayPieces, List.forall_mem_flatMap,
        List.map_cons, List.headD_cons, List.forall_mem_map]
      constructor
      · rintro ⟨⟨⟨⟨hstreamId, _⟩, _⟩, htype, htypes⟩, hbody, hbodies⟩
        refine ⟨hstreamId, ⟨htype, hbody, by simp⟩, ?_⟩
        intro other hother
        exact ⟨htypes other hother, hbodies other hother, by simp⟩
      · rintro ⟨hstreamId, ⟨htype, hbody, _⟩, hothers⟩
        have htypes := fun other hother => (hothers other hother).1
        have hbodies := fun other hother => (hothers other hother).2.1
        exact ⟨⟨⟨⟨hstreamId, htype, by simp⟩, hids⟩, htype, htypes⟩, hbody,
          hbodies⟩
  | save version A j => simp [pieces, values]

theorem tail_noDelimiter (statement : Statement) :
    ¬ dollarQ.text <:+: statement.tail := by
  cases statement with
  | append dbSchema streamId stream =>
      have hdollar : '$' ∉ appendTail := by decide
      exact noDelimiter_of_notMem hdollar
  | save version A j =>
      have hdollar : '$' ∉ saveTail := by decide +kernel
      exact noDelimiter_of_notMem hdollar

/-- The server reads the statement as it was meant exactly when every value
from the caller is readable and no schema or table name has the delimiter. -/
theorem lex_sql_iff {dump : Json → Str} {generateUuid : ℕ → UuidText}
    {statement : Statement} {sql : Str}
    (hsql : statement.sql dump generateUuid = some sql) :
    lex dollarQ sql =
        some (statement.pieces dump generateUuid, statement.tail) ↔
      (∀ name ∈ statement.names, ¬ dollarQ.text <:+: cstr name) ∧
        ∀ value ∈ statement.values dump, Readable value := by
  rw [← readable_pieces_iff hsql,
    ← @closed_pieces_iff dump generateUuid statement]
  cases statement with
  | append dbSchema streamId stream =>
      exact lex_eq_some_iff (nul_notMem_append hsql) (append_eq_render hsql)
        (tail_noDelimiter _)
  | save version A j =>
      exact lex_eq_some_iff (nul_notMem_save hsql) (save_eq_render hsql)
        (tail_noDelimiter _)

end Statement

def paymentEvent (type : Str) : IEvent where
  seqId := 0
  id := []
  streamId := "00000000-0000-0000-0000-0000000000a1".toList
  type := type
  version := 0
  data := .null
  timestamp := 0

def paymentStatement (type : Str) : Statement :=
  .append "dwh".toList "00000000-0000-0000-0000-0000000000a1".toList
    [paymentEvent type]

def zeroUuid : UuidText where
  text := "00000000-0000-0000-0000-000000000000".toList
  wellFormed := by
    have hall : "00000000-0000-0000-0000-000000000000".toList.all
        (fun c => c ∈ "0123456789abcdefABCDEF-".toList) := by decide
    exact fun c hc => of_decide_eq_true (List.all_eq_true.mp hall c hc)

theorem paymentStatement_read :
    ∃ sql, (paymentStatement "Paid$".toList).sql (fun _ => "null".toList)
        (fun _ => zeroUuid) = some sql ∧
      lex dollarQ sql = some
        ((paymentStatement "Paid$".toList).pieces (fun _ => "null".toList)
          (fun _ => zeroUuid), (paymentStatement "Paid$".toList).tail) := by
  have hsome : ((paymentStatement "Paid$".toList).sql
      (fun _ => "null".toList) (fun _ => zeroUuid)).isSome = true := by
    decide +kernel
  obtain ⟨sql, hsql⟩ := Option.isSome_iff_exists.mp hsome
  refine ⟨sql, hsql, (Statement.lex_sql_iff hsql).mpr ⟨?_, ?_⟩⟩
  · unfold paymentStatement Statement.names
    decide
  · unfold paymentStatement Statement.values
    decide

/-- A type that ends in `$Q` merges with the closing delimiter. -/
theorem paymentStatement_notRead :
    ¬ ∀ (dump : Json → Str) (generateUuid : ℕ → UuidText)
      (statement : Statement) (sql : Str),
      (∀ name ∈ statement.names, ¬ dollarQ.text <:+: cstr name) →
        statement.sql dump generateUuid = some sql →
          lex dollarQ sql =
            some (statement.pieces dump generateUuid, statement.tail) := by
  intro hclaim
  have hsome : ((paymentStatement "Paid$Q".toList).sql
      (fun _ => "null".toList) (fun _ => zeroUuid)).isSome = true := by
    decide +kernel
  obtain ⟨sql, hsql⟩ := Option.isSome_iff_exists.mp hsome
  have hnames : ∀ name ∈ (paymentStatement "Paid$Q".toList).names,
      ¬ dollarQ.text <:+: cstr name := by
    unfold paymentStatement Statement.names
    decide
  have hlex := hclaim _ _ _ sql hnames hsql
  rw [← render_of_lex hlex, lex_render_iff (Statement.tail_noDelimiter _)]
    at hlex
  have hclosed : Closed dollarQ "Paid$Q".toList :=
    (hlex (", ".toList, "Paid$Q".toList)
      (List.mem_append_left _ (List.mem_append_left _ (List.mem_append_left _
        (List.mem_cons_of_mem _ List.mem_cons_self))))).2
  exact ((closed_dollarQ_iff _).mp hclosed).2 (by decide)

end StoreCpp
