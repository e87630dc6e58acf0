import Mathlib.Data.List.Infix
import Mathlib.Tactic

/-!
# Delimited literals in a statement text

A delimited literal opens with a delimiter and runs to the first following
occurrence of the same delimiter.  `lex` splits a text into its plain parts
and its literals; `render` writes them back.  The main result says which
literals survive the round trip: exactly those in which the delimiter does
not occur before the closing one, an occurrence that overlaps the closing
delimiter included.
-/

namespace DollarQuote

structure Delimiter (α : Type*) where
  text : List α
  ne_nil : text ≠ []

variable {α : Type*}

/-- The delimiter occurs in `body ++ delimiter` only at the end. -/
def Closed (delim : Delimiter α) (body : List α) : Prop :=
  ∀ before after, body ++ delim.text = before ++ delim.text ++ after →
    after = []

theorem Closed.tail {delim : Delimiter α} {c : α} {body : List α}
    (hclosed : Closed delim (c :: body)) : Closed delim body := by
  intro before after htext
  exact hclosed (c :: before) after (by simp [htext])

theorem Closed.not_occurs {delim : Delimiter α} {body : List α}
    (hclosed : Closed delim body) : ¬ delim.text <:+: body := by
  rintro ⟨before, after, rfl⟩
  have hnil := hclosed before (after ++ delim.text) (by simp)
  exact delim.ne_nil (List.append_eq_nil_iff.mp hnil).2

theorem closed_of_head_notMem {delim : Delimiter α} {body : List α}
    (hhead : delim.text.head delim.ne_nil ∉ body) : Closed delim body := by
  induction body with
  | nil =>
      intro before after htext
      have hlength := congrArg List.length htext
      simp only [List.length_append, List.nil_append] at hlength
      exact List.eq_nil_of_length_eq_zero (by omega)
  | cons c body ih =>
      have hne : delim.text.head delim.ne_nil ≠ c :=
        fun h => hhead (h ▸ List.mem_cons_self)
      have htail := ih fun h => hhead (List.mem_cons_of_mem _ h)
      intro before after htext
      cases before with
      | nil =>
          have hcons := List.cons_head_tail delim.ne_nil
          rw [List.nil_append, ← hcons, List.cons_append,
            List.cons_append] at htext
          exact absurd (List.cons.inj htext).1.symm hne
      | cons d before =>
          exact htail before after (by simpa using (List.cons.inj htext).2)

theorem infix_append_cons_iff {text before after : List α} {c : α}
    (hc : c ∉ text) :
    text <:+: before ++ c :: after ↔ text <:+: before ∨ text <:+: after := by
  constructor
  · rintro ⟨front, back, hsplit⟩
    rcases List.append_eq_append_iff.mp hsplit with
      ⟨rest, hbefore, _⟩ | ⟨rest, hfront, hrest⟩
    · exact Or.inl ⟨front, rest, hbefore.symm⟩
    · rcases List.append_eq_append_iff.mp hfront with
        ⟨middle, hbefore, hmiddle⟩ | ⟨middle, _, hmiddle⟩
      · cases rest with
        | nil =>
            rw [List.append_nil] at hmiddle
            exact Or.inl ⟨front, [], by simp [hbefore, hmiddle]⟩
        | cons d rest =>
            have hd : c = d := (List.cons.inj hrest).1
            exact absurd (hmiddle ▸ List.mem_append_right _
              (hd ▸ List.mem_cons_self)) hc
      · rw [hmiddle] at hrest
        cases middle with
        | nil =>
            cases text with
            | nil => exact Or.inl List.nil_infix
            | cons d text =>
                have hd : c = d := (List.cons.inj hrest).1
                exact absurd (hd ▸ List.mem_cons_self) hc
        | cons d middle =>
            have hafter := (List.cons.inj hrest).2
            exact Or.inr ⟨middle, back, by simpa using hafter.symm⟩
  · rintro (⟨front, back, rfl⟩ | ⟨front, back, rfl⟩)
    · exact ⟨front, back ++ c :: after, by simp⟩
    · exact ⟨before ++ c :: front, back, by simp⟩

theorem closed_concat {delim : Delimiter α} {body : List α} {c : α}
    (hc : c ∉ delim.text) (hfree : ¬ delim.text <:+: body) :
    Closed delim (body ++ [c]) := by
  intro before after htext
  by_contra hafter
  obtain ⟨rest, last, rfl⟩ := List.eq_nil_or_concat after |>.resolve_left hafter
  have hdelim := List.dropLast_append_getLast delim.ne_nil
  have hends : (body ++ c :: delim.text.dropLast) ++
      [delim.text.getLast delim.ne_nil] =
        (before ++ delim.text ++ rest) ++ [last] := by
    rw [List.concat_eq_append] at htext
    simpa [hdelim] using htext
  have hshort := (List.append_inj' hends rfl).1
  have hoccurs : delim.text <:+: body ++ c :: delim.text.dropLast :=
    ⟨before, rest, hshort.symm⟩
  rcases (infix_append_cons_iff hc).mp hoccurs with hbody | hdrop
  · exact hfree hbody
  · have hle := hdrop.length_le
    have hpos := List.length_pos_iff.mpr delim.ne_nil
    rw [List.length_dropLast] at hle
    omega

def render (delim : Delimiter α) (pieces : List (List α × List α))
    (tail : List α) : List α :=
  pieces.flatMap (fun piece =>
    piece.1 ++ delim.text ++ piece.2 ++ delim.text) ++ tail

section Lex

variable [DecidableEq α]

def breakOn (delim : Delimiter α) : List α → Option (List α × List α)
  | [] => none
  | c :: rest =>
      if delim.text <+: c :: rest then
        some ([], (c :: rest).drop delim.text.length)
      else (breakOn delim rest).map fun parts => (c :: parts.1, parts.2)

theorem breakOn_eq_append {delim : Delimiter α} {text before after : List α}
    (hbreak : breakOn delim text = some (before, after)) :
    text = before ++ delim.text ++ after := by
  induction text generalizing before with
  | nil => cases hbreak
  | cons c rest ih =>
      rw [breakOn] at hbreak
      split_ifs at hbreak with hstart
      · obtain ⟨tail, htail⟩ := hstart
        rw [← htail] at hbreak ⊢
        simp only [List.drop_left, Option.some.injEq, Prod.mk.injEq] at hbreak
        obtain ⟨rfl, rfl⟩ := hbreak
        rfl
      · obtain ⟨parts, hparts, heq⟩ := Option.map_eq_some_iff.mp hbreak
        cases heq
        simpa using ih hparts

theorem breakOn_length_le {delim : Delimiter α}
    {text before after before' after' : List α}
    (hbreak : breakOn delim text = some (before, after))
    (htext : text = before' ++ delim.text ++ after') :
    before.length ≤ before'.length := by
  induction text generalizing before before' with
  | nil => cases hbreak
  | cons c rest ih =>
      rw [breakOn] at hbreak
      split_ifs at hbreak with hstart
      · cases hbreak
        simp
      · obtain ⟨parts, hparts, heq⟩ := Option.map_eq_some_iff.mp hbreak
        cases heq
        cases before' with
        | nil =>
            exact absurd ⟨after', by simpa using htext.symm⟩ hstart
        | cons d before' =>
            have hrest : rest = before' ++ delim.text ++ after' := by
              simpa using (List.cons.inj htext).2
            have hle := ih hparts hrest
            simpa using hle

theorem breakOn_of_closed {delim : Delimiter α} {body : List α}
    (hclosed : Closed delim body) (after : List α) :
    breakOn delim (body ++ delim.text ++ after) = some (body, after) := by
  induction body with
  | nil =>
      cases htext : delim.text with
      | nil => exact absurd htext delim.ne_nil
      | cons d rest => simp [breakOn, htext]
  | cons c body ih =>
      have hnot : ¬ delim.text <+: c :: (body ++ delim.text ++ after) := by
        intro hstart
        have hwhole : (c :: body) ++ delim.text <+:
            c :: (body ++ delim.text ++ after) := ⟨after, by simp⟩
        have hshort : delim.text <+: (c :: body) ++ delim.text :=
          List.prefix_of_prefix_length_le hstart hwhole (by
            simp only [List.length_append]
            omega)
        obtain ⟨tail, htail⟩ := hshort
        have hnil : tail = [] :=
          hclosed [] tail (by simpa using htail.symm)
        have hlength := congrArg List.length htail
        simp only [hnil, List.length_append, List.length_cons,
          List.length_nil] at hlength
        omega
      simp only [List.cons_append, breakOn, if_neg hnot, ih hclosed.tail,
        Option.map_some]

theorem closed_of_breakOn {delim : Delimiter α} {body after : List α}
    (hbreak : breakOn delim (body ++ delim.text ++ after) =
      some (body, after)) : Closed delim body := by
  intro before tail htext
  have hle : body.length ≤ before.length :=
    breakOn_length_le hbreak (by
      rw [htext, List.append_assoc (before ++ delim.text)])
  have hlength := congrArg List.length htext
  simp only [List.length_append] at hlength
  exact List.eq_nil_of_length_eq_zero (by omega)

theorem breakOn_eq_none {delim : Delimiter α} {text : List α}
    (hoccurs : ¬ delim.text <:+: text) : breakOn delim text = none := by
  by_contra hsome
  obtain ⟨parts, hparts⟩ := Option.ne_none_iff_exists'.mp hsome
  have htext : text = parts.1 ++ delim.text ++ parts.2 :=
    breakOn_eq_append hparts
  exact hoccurs ⟨parts.1, parts.2, htext.symm⟩

theorem breakOn_length_lt {delim : Delimiter α} {text before after : List α}
    (hbreak : breakOn delim text = some (before, after)) :
    after.length < text.length := by
  have hlength := congrArg List.length (breakOn_eq_append hbreak)
  have hpos := List.length_pos_iff.mpr delim.ne_nil
  simp only [List.length_append] at hlength
  omega

/-- The plain text before each literal with that literal, and the plain text
after the last one; undefined when the last literal is not terminated. -/
def lex (delim : Delimiter α) (text : List α) :
    Option (List (List α × List α) × List α) :=
  match _hopen : breakOn delim text with
  | none => some ([], text)
  | some (plain, inside) =>
      match _hclose : breakOn delim inside with
      | none => none
      | some (body, rest) =>
          (lex delim rest).map fun parts => ((plain, body) :: parts.1, parts.2)
termination_by text.length
decreasing_by
  have hinside := breakOn_length_lt _hopen
  have hrest := breakOn_length_lt _hclose
  omega

theorem lex_of_breakOn_none {delim : Delimiter α} {text : List α}
    (hnone : breakOn delim text = none) : lex delim text = some ([], text) := by
  rw [lex]
  split
  · rfl
  · rename_i hsome
    rw [hnone] at hsome
    cases hsome

theorem lex_of_breakOn_some {delim : Delimiter α}
    {text plain inside body rest : List α}
    (hopen : breakOn delim text = some (plain, inside))
    (hclose : breakOn delim inside = some (body, rest)) :
    lex delim text =
      (lex delim rest).map fun parts => ((plain, body) :: parts.1, parts.2) := by
  rw [lex]
  split
  · rename_i hnone
    rw [hopen] at hnone
    cases hnone
  · rename_i hsome
    rw [hopen] at hsome
    cases hsome
    split
    · rename_i hnone
      rw [hclose] at hnone
      cases hnone
    · rename_i hsome
      rw [hclose] at hsome
      cases hsome
      rfl

/-- Lexing loses nothing of the text. -/
theorem render_of_lex {delim : Delimiter α} {text tail : List α}
    {pieces : List (List α × List α)}
    (hlex : lex delim text = some (pieces, tail)) :
    render delim pieces tail = text := by
  induction text using lex.induct delim generalizing pieces with
  | case1 text hopen =>
      rw [lex_of_breakOn_none hopen] at hlex
      cases hlex
      rfl
  | case2 text plain inside hopen hclose =>
      rw [lex] at hlex
      split at hlex
      · rename_i hnone
        rw [hopen] at hnone
        cases hnone
      · rename_i hsome
        rw [hopen] at hsome
        cases hsome
        split at hlex
        · cases hlex
        · rename_i hsome
          rw [hclose] at hsome
          cases hsome
  | case3 text plain inside hopen body rest hclose ih =>
      rw [lex_of_breakOn_some hopen hclose] at hlex
      obtain ⟨parts, hparts, heq⟩ := Option.map_eq_some_iff.mp hlex
      cases heq
      have hrest := ih hparts
      rw [breakOn_eq_append hopen, breakOn_eq_append hclose, ← hrest]
      simp [render]

theorem breakOn_of_lex {delim : Delimiter α} {text plain body tail : List α}
    {pieces : List (List α × List α)}
    (hlex : lex delim text = some ((plain, body) :: pieces, tail)) :
    ∃ inside rest, breakOn delim text = some (plain, inside) ∧
      breakOn delim inside = some (body, rest) ∧
      lex delim rest = some (pieces, tail) := by
  rw [lex] at hlex
  split at hlex
  · cases hlex
  · rename_i hopen
    split at hlex
    · cases hlex
    · rename_i hclose
      obtain ⟨parts, hparts, heq⟩ := Option.map_eq_some_iff.mp hlex
      cases heq
      exact ⟨_, _, hopen, hclose, hparts⟩

/-- A rendered statement reads back as the pieces it was written from exactly
when every plain text and every literal is closed. -/
theorem lex_render_iff {delim : Delimiter α}
    {pieces : List (List α × List α)} {tail : List α}
    (htail : ¬ delim.text <:+: tail) :
    lex delim (render delim pieces tail) = some (pieces, tail) ↔
      ∀ piece ∈ pieces, Closed delim piece.1 ∧ Closed delim piece.2 := by
  induction pieces with
  | nil =>
      simp [render, lex_of_breakOn_none (breakOn_eq_none htail)]
  | cons piece pieces ih =>
      obtain ⟨plain, body⟩ := piece
      have hrender : render delim ((plain, body) :: pieces) tail =
          plain ++ delim.text ++
            (body ++ delim.text ++ render delim pieces tail) := by
        simp [render]
      rw [hrender, List.forall_mem_cons, ← ih]
      constructor
      · intro hlex
        obtain ⟨inside, rest, hopen, hclose, hrest⟩ := breakOn_of_lex hlex
        have hinside := List.append_cancel_left (breakOn_eq_append hopen)
        rw [← hinside] at hopen hclose
        have hafter := List.append_cancel_left (breakOn_eq_append hclose)
        rw [← hafter] at hclose hrest
        exact ⟨⟨closed_of_breakOn hopen, closed_of_breakOn hclose⟩, hrest⟩
      · rintro ⟨⟨hplain, hbody⟩, hrest⟩
        rw [lex_of_breakOn_some (breakOn_of_closed hplain _)
          (breakOn_of_closed hbody _), hrest]
        rfl

end Lex

end DollarQuote
