import StoreCpp.DollarQuote
import Mathlib.Data.List.TakeWhile

/-!
# Quoted literals

A quoted literal runs from a quote to the next quote that is not doubled, and
a doubled quote in it stands for one.  A value that is written between quotes
as it is, with nothing doubled, is read back exactly when it has no quote.
-/

namespace QuotedLiteral

open DollarQuote (render)

variable {α : Type*}

def delimiter (quote : α) : DollarQuote.Delimiter α where
  text := [quote]
  ne_nil := List.cons_ne_nil _ _

theorem render_cons (quote : α) (piece : List α × List α)
    (pieces : List (List α × List α)) (tail : List α) :
    render (delimiter quote) (piece :: pieces) tail =
      piece.1 ++ quote :: (piece.2 ++
        quote :: render (delimiter quote) pieces tail) := by
  simp [render, delimiter]

/-- Plain parts without a quote that keep the literals apart. -/
structure Separated (quote : α) (pieces : List (List α × List α))
    (tail : List α) : Prop where
  plain : ∀ piece ∈ pieces, quote ∉ piece.1
  apart : ∀ piece ∈ pieces.tail, piece.1 ≠ []
  tail : quote ∉ tail

theorem Separated.of_cons {quote : α} {piece : List α × List α}
    {pieces : List (List α × List α)} {tail : List α}
    (h : Separated quote (piece :: pieces) tail) :
    Separated quote pieces tail where
  plain := fun other hother => h.plain other (List.mem_cons_of_mem _ hother)
  apart := fun other hother => h.apart other (List.mem_of_mem_tail hother)
  tail := h.tail

theorem head_ne_of_notMem {quote : α} {text : List α} (htext : quote ∉ text) :
    text.head? ≠ some quote :=
  fun h => htext (List.mem_of_mem_head? h)

theorem Separated.head_render {quote : α} {piece : List α × List α}
    {pieces : List (List α × List α)} {tail : List α}
    (h : Separated quote (piece :: pieces) tail) :
    (render (delimiter quote) pieces tail).head? ≠ some quote := by
  cases pieces with
  | nil => exact head_ne_of_notMem h.tail
  | cons next pieces =>
      have hplain := h.plain next (by simp)
      have hne := h.apart next (by simp)
      obtain ⟨c, plain, hnext⟩ := List.exists_cons_of_ne_nil hne
      rw [hnext] at hplain
      have hc : c ≠ quote := fun h => hplain (h ▸ List.mem_cons_self)
      simpa [render, hnext] using hc

variable [DecidableEq α]

/-- The text of a literal between its quotes. -/
def escape (quote : α) (value : List α) : List α :=
  value.flatMap fun c => if c = quote then [quote, quote] else [c]

/-- The value of the literal whose opening quote has been read, and the text
after its closing one. -/
def readBody (quote : α) : List α → Option (List α × List α)
  | [] => none
  | [c] => if c = quote then some ([], []) else none
  | c :: d :: rest =>
      if c = quote then
        if d = quote then
          (readBody quote rest).map fun parts => (quote :: parts.1, parts.2)
        else some ([], d :: rest)
      else (readBody quote (d :: rest)).map fun parts =>
        (c :: parts.1, parts.2)

/-! ## One literal -/

theorem escape_cons_self (quote : α) (value : List α) :
    escape quote (quote :: value) =
      quote :: quote :: escape quote value := by
  simp [escape]

theorem escape_cons_of_ne {quote c : α} (hc : c ≠ quote) (value : List α) :
    escape quote (c :: value) = c :: escape quote value := by
  simp [escape, hc]

theorem escape_eq_self {quote : α} {value : List α}
    (hvalue : quote ∉ value) : escape quote value = value := by
  induction value with
  | nil => rfl
  | cons c value ih =>
      have hc : c ≠ quote := fun h => hvalue (h ▸ List.mem_cons_self)
      rw [escape_cons_of_ne hc,
        ih fun h => hvalue (List.mem_cons_of_mem _ h)]

theorem length_escape (quote : α) (value : List α) :
    (escape quote value).length = value.length + value.count quote := by
  induction value with
  | nil => rfl
  | cons c value ih =>
      by_cases hc : c = quote
      · subst c
        rw [escape_cons_self, List.count_cons_self, List.length_cons,
          List.length_cons, List.length_cons, ih]
        omega
      · rw [escape_cons_of_ne hc, List.count_cons_of_ne hc, List.length_cons,
          List.length_cons, ih]
        omega

theorem count_escape (quote : α) (value : List α) :
    (escape quote value).count quote = 2 * value.count quote := by
  induction value with
  | nil => rfl
  | cons c value ih =>
      by_cases hc : c = quote
      · subst c
        rw [escape_cons_self, List.count_cons_self, List.count_cons_self,
          List.count_cons_self, ih]
        omega
      · rw [escape_cons_of_ne hc, List.count_cons_of_ne hc,
          List.count_cons_of_ne hc, ih]

theorem readBody_escape (quote : α) {rest : List α}
    (hrest : rest.head? ≠ some quote) (value : List α) :
    readBody quote (escape quote value ++ quote :: rest) =
      some (value, rest) := by
  induction value with
  | nil =>
      cases rest with
      | nil => simp [escape, readBody]
      | cons d rest =>
          have hd : d ≠ quote := by simpa using hrest
          simp [escape, readBody, hd]
  | cons c value ih =>
      by_cases hc : c = quote
      · subst c
        rw [escape_cons_self, List.cons_append, List.cons_append, readBody,
          if_pos rfl, if_pos rfl, ih, Option.map_some]
      · have hcons : ∃ d text,
            escape quote value ++ quote :: rest = d :: text :=
          List.exists_cons_of_ne_nil (by simp)
        obtain ⟨d, text, htext⟩ := hcons
        rw [escape_cons_of_ne hc, List.cons_append, htext, readBody,
          if_neg hc, ← htext, ih, Option.map_some]

theorem readBody_sound {quote : α} {text value rest : List α}
    (hread : readBody quote text = some (value, rest)) :
    text = escape quote value ++ quote :: rest ∧
      rest.head? ≠ some quote := by
  induction text using readBody.induct quote generalizing value with
  | case1 => cases hread
  | case2 =>
      rw [readBody, if_pos rfl] at hread
      cases hread
      exact ⟨rfl, by simp⟩
  | case3 c hc =>
      rw [readBody, if_neg hc] at hread
      cases hread
  | case4 text ih =>
      rw [readBody, if_pos rfl, if_pos rfl] at hread
      obtain ⟨⟨body, after⟩, hbody, hparts⟩ := Option.map_eq_some_iff.mp hread
      cases hparts
      have htext := ih hbody
      rw [escape_cons_self, htext.1]
      exact ⟨rfl, htext.2⟩
  | case5 d text hd =>
      rw [readBody, if_pos rfl, if_neg hd] at hread
      cases hread
      exact ⟨rfl, by simpa using hd⟩
  | case6 c d text hc ih =>
      rw [readBody, if_neg hc] at hread
      obtain ⟨⟨body, after⟩, hbody, hparts⟩ := Option.map_eq_some_iff.mp hread
      cases hparts
      have htext := ih hbody
      rw [escape_cons_of_ne hc, htext.1]
      exact ⟨rfl, htext.2⟩

theorem readBody_length_lt {quote : α} {text value rest : List α}
    (hread : readBody quote text = some (value, rest)) :
    rest.length < text.length := by
  rw [(readBody_sound hread).1, List.length_append, List.length_cons]
  omega

/-- A value with quotes that is read from its own text would need as many
quotes behind the closing one. -/
theorem notMem_of_readBody {quote : α} {value after rest : List α}
    (hafter : after.head? ≠ some quote)
    (hread : readBody quote (value ++ quote :: after) = some (value, rest)) :
    quote ∉ value := by
  intro hmem
  have hpos : 0 < value.count quote := List.count_pos_iff.mpr hmem
  have hlength := length_escape quote value
  have hcount := count_escape quote value
  rcases List.append_eq_append_iff.mp (readBody_sound hread).1 with
    ⟨excess, hescape, hexcess⟩ | ⟨missing, hvalue, _⟩
  · rw [hescape, List.length_append] at hlength
    rw [hescape, List.count_append] at hcount
    have hall : excess.count quote = excess.length := by omega
    have hquotes := List.count_eq_length.mp hall
    cases excess with
    | nil =>
        rw [List.length_nil] at hlength
        omega
    | cons c excess =>
        have hrest := (List.cons.inj hexcess).2
        cases excess with
        | nil =>
            rw [hrest] at hafter
            exact hafter rfl
        | cons d excess =>
            have hd : quote = d := hquotes d (by simp)
            rw [hrest, ← hd] at hafter
            exact hafter rfl
  · have hshort := congrArg List.length hvalue
    rw [List.length_append] at hshort
    omega

/-- A value between two quotes is read back exactly when it has no quote. -/
theorem readBody_append_iff {quote : α} {value after rest : List α}
    (hafter : after.head? ≠ some quote) :
    readBody quote (value ++ quote :: after) = some (value, rest) ↔
      quote ∉ value ∧ rest = after := by
  constructor
  · intro hread
    have hvalue := notMem_of_readBody hafter hread
    have htext := (readBody_sound hread).1
    rw [escape_eq_self hvalue] at htext
    have hcons := List.append_cancel_left htext
    exact ⟨hvalue, (List.cons.inj hcons).2.symm⟩
  · intro ⟨hvalue, hrest⟩
    have hread := readBody_escape quote hafter value
    rw [escape_eq_self hvalue] at hread
    rw [hread, hrest]

/-! ## A text with literals -/

/-- The plain text before each literal with the value of that literal, and the
plain text after the last one; undefined when a literal is not terminated. -/
def lex (quote : α) (text : List α) :
    Option (List (List α × List α) × List α) :=
  match _hopen : text.dropWhile (· ≠ quote) with
  | [] => some ([], text)
  | _ :: inside =>
      match _hbody : readBody quote inside with
      | none => none
      | some (value, rest) =>
          (lex quote rest).map fun parts =>
            ((text.takeWhile (· ≠ quote), value) :: parts.1, parts.2)
termination_by text.length
decreasing_by
  have hsuffix := List.dropWhile_suffix (l := text) (· ≠ quote)
  have hinside := hsuffix.length_le
  have hrest := readBody_length_lt _hbody
  rw [_hopen, List.length_cons] at hinside
  omega

theorem lex_of_notMem {quote : α} {text : List α} (htext : quote ∉ text) :
    lex quote text = some ([], text) := by
  have hopen : text.dropWhile (· ≠ quote) = [] := by
    apply List.dropWhile_eq_nil_iff.mpr
    intro c hc
    exact decide_eq_true fun h => htext (h ▸ hc)
  rw [lex]
  split
  · rfl
  · rename_i hcons
    rw [hopen] at hcons
    cases hcons

theorem lex_append {quote : α} {plain : List α} (hplain : quote ∉ plain)
    (inside : List α) :
    lex quote (plain ++ quote :: inside) =
      (readBody quote inside).bind fun body =>
        (lex quote body.2).map fun parts =>
          ((plain, body.1) :: parts.1, parts.2) := by
  have hall : ∀ c ∈ plain, decide (c ≠ quote) = true :=
    fun c hc => decide_eq_true fun h => hplain (h ▸ hc)
  have htake : (plain ++ quote :: inside).takeWhile (· ≠ quote) = plain := by
    rw [List.takeWhile_append_of_pos hall]
    simp
  have hdrop : (plain ++ quote :: inside).dropWhile (· ≠ quote) =
      quote :: inside := by
    rw [List.dropWhile_append_of_pos hall]
    simp
  rw [lex]
  split
  · rename_i hnil
    rw [hdrop] at hnil
    cases hnil
  · rename_i hcons
    rw [hdrop] at hcons
    cases hcons
    rw [htake]
    split
    · rename_i hnone
      rw [hnone]
      rfl
    · rename_i hsome
      rw [hsome]
      rfl

theorem lex_render {quote : α} {pieces : List (List α × List α)}
    {tail : List α} (h : Separated quote pieces tail)
    (hvalues : ∀ piece ∈ pieces, quote ∉ piece.2) :
    lex quote (render (delimiter quote) pieces tail) =
      some (pieces, tail) := by
  induction pieces with
  | nil =>
      rw [render, List.flatMap_nil, List.nil_append, lex_of_notMem h.tail]
  | cons piece pieces ih =>
      obtain ⟨hvalue, hrest⟩ := List.forall_mem_cons.mp hvalues
      rw [render_cons, lex_append (h.plain piece List.mem_cons_self),
        (readBody_append_iff h.head_render).mpr ⟨hvalue, rfl⟩,
        Option.bind_some, ih h.of_cons hrest, Option.map_some]

/-- Values written between quotes as they are have no quote when the literals
of the text have these values. -/
theorem notMem_of_lex_render {quote : α} {pieces : List (List α × List α)}
    {tail : List α} {parts : List (List α × List α) × List α}
    (h : Separated quote pieces tail)
    (hlex : lex quote (render (delimiter quote) pieces tail) = some parts)
    (hvalues : parts.1.map Prod.snd = pieces.map Prod.snd) :
    ∀ piece ∈ pieces, quote ∉ piece.2 := by
  induction pieces generalizing parts with
  | nil => simp
  | cons piece pieces ih =>
      rw [render_cons, lex_append (h.plain piece List.mem_cons_self)] at hlex
      obtain ⟨body, hbody, hparts⟩ := Option.bind_eq_some_iff.mp hlex
      obtain ⟨others, hrest, rfl⟩ := Option.map_eq_some_iff.mp hparts
      rw [List.map_cons, List.map_cons] at hvalues
      obtain ⟨hvalue, hothers⟩ := List.cons.inj hvalues
      have hread : readBody quote (piece.2 ++
          quote :: render (delimiter quote) pieces tail) =
            some (piece.2, body.2) := by
        rw [hbody, ← hvalue]
      obtain ⟨hquote, hafter⟩ := (readBody_append_iff h.head_render).mp hread
      rw [hafter] at hrest
      exact List.forall_mem_cons.mpr ⟨hquote, ih h.of_cons hrest hothers⟩

theorem mem_escape {quote c : α} {value : List α} (hc : c ∈ value) :
    c ∈ escape quote value := by
  apply List.mem_flatMap.mpr
  by_cases hquote : c = quote
  · exact ⟨c, hc, by simp [hquote]⟩
  · exact ⟨c, hc, by simp [hquote]⟩

theorem mem_of_lex {quote c : α} {text : List α}
    {parts : List (List α × List α) × List α}
    (hlex : lex quote text = some parts) {piece : List α × List α}
    (hpiece : piece ∈ parts.1) (hc : c ∈ piece.2) : c ∈ text := by
  fun_induction lex quote text generalizing parts with
  | case1 text hopen =>
      cases hlex
      cases hpiece
  | case2 text _ inside hopen hbody => cases hlex
  | case3 text _ inside hopen value rest hbody ih =>
      obtain ⟨others, hrest, rfl⟩ := Option.map_eq_some_iff.mp hlex
      have hinside : inside = escape quote value ++ quote :: rest :=
        (readBody_sound hbody).1
      have hsubset : inside ⊆ text := by
        have hsuffix := List.dropWhile_suffix (l := text) (· ≠ quote)
        rw [hopen] at hsuffix
        exact fun d hd => hsuffix.subset (List.mem_cons_of_mem _ hd)
      apply hsubset
      rw [hinside, List.mem_append]
      rcases List.mem_cons.mp hpiece with rfl | hpiece
      · exact Or.inl (mem_escape hc)
      · exact Or.inr (List.mem_cons_of_mem _ (ih hrest hpiece))

end QuotedLiteral
