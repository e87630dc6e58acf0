import StoreCpp.JsonValue

/-!
# Values at a path

`getPathValueFromJson` writes its keys into the text of a JSON pointer, which
the JSON library reads back into reference tokens and follows through objects
and arrays.
-/

namespace StoreCpp

/-- Undoes the escapes of a reference token; `none` at a tilde that starts no
escape. -/
def unescapeToken : Str → Option Str
  | [] => some []
  | '~' :: '0' :: rest => (unescapeToken rest).map ('~' :: ·)
  | '~' :: '1' :: rest => (unescapeToken rest).map ('/' :: ·)
  | c :: rest => if c = '~' then none else (unescapeToken rest).map (c :: ·)

/-- The reference tokens of a pointer that starts with a slash. -/
def referenceTokens (path : Str) : Option (List Str) :=
  match path.splitOn '/' with
  | [] :: tokens => tokens.mapM unescapeToken
  | _ => none

def arrayIndex (token : Str) : Option ℕ :=
  if token ≠ [] ∧ token.all Char.isDigit ∧
      (token.length = 1 ∨ token.head? ≠ some '0') then
    some (token.foldl (fun n c => 10 * n + (c.toNat - '0'.toNat)) 0)
  else none

def Json.atTokens : Json → List Str → Option Json
  | j, [] => some j
  | .object members, token :: tokens =>
      (lookup token members).bind fun j => j.atTokens tokens
  | .array values, token :: tokens =>
      (arrayIndex token).bind fun index =>
        values[index]?.bind fun j => j.atTokens tokens
  | _, _ :: _ => none

/-- The value that `r` holds when nothing was assigned to it is `initial`; a
malformed pointer throws before. -/
def getPathValueFromJson {α : Type} (get : Json → Option α) (initial : α)
    (j : Json) (params : List Str) : Option α :=
  let path := params.flatMap ('/' :: ·)
  (referenceTokens path).map fun tokens =>
    ((j.atTokens tokens).bind get).getD initial

/-- Looks the keys up one after another. -/
def Json.follow : Json → List Str → Option Json
  | j, [] => some j
  | .object members, key :: keys =>
      (lookup key members).bind fun j => j.follow keys
  | _, _ :: _ => none

/-- Whatever the JSON value and the requested type are, the path of the keys
gives what they lead to. -/
def FollowsKeys (keys : List Str) : Prop :=
  ∀ {α : Type} (get : Json → Option α) (initial : α) (j value : Json)
    (found : α), j.follow keys = some value → get value = some found →
      getPathValueFromJson get initial j keys = some found

/-- No key has a character that a JSON pointer reads in another way. -/
def PlainKeys (keys : List Str) : Prop :=
  ∀ key ∈ keys, '/' ∉ key ∧ '~' ∉ key

theorem unescapeToken_of_notMem {token : Str} (htilde : '~' ∉ token) :
    unescapeToken token = some token := by
  induction token using unescapeToken.induct with
  | case1 => rfl
  | case2 rest ih => exact absurd List.mem_cons_self htilde
  | case3 rest ih => exact absurd List.mem_cons_self htilde
  | case4 rest hzero hone => exact absurd List.mem_cons_self htilde
  | case5 c rest hzero hone hc ih =>
      have hrest : '~' ∉ rest := fun h => htilde (List.mem_cons_of_mem c h)
      rw [unescapeToken, if_neg hc, ih hrest]
      · rfl
      · exact hzero
      · exact hone

/-- A token shrinks where it has a tilde. -/
theorem unescapeToken_length_le {token key : Str}
    (hkey : unescapeToken token = some key) :
    key.length ≤ token.length ∧
      (key.length = token.length → '~' ∉ token) := by
  induction token using unescapeToken.induct generalizing key with
  | case1 =>
      cases hkey
      exact ⟨le_refl 0, fun _ => List.not_mem_nil⟩
  | case2 rest ih =>
      obtain ⟨tail, htail, hcons⟩ := Option.map_eq_some_iff.mp hkey
      have hle := (ih htail).1
      rw [← hcons]
      simp only [List.length_cons]
      omega
  | case3 rest ih =>
      obtain ⟨tail, htail, hcons⟩ := Option.map_eq_some_iff.mp hkey
      have hle := (ih htail).1
      rw [← hcons]
      simp only [List.length_cons]
      omega
  | case4 rest hzero hone =>
      rw [unescapeToken, if_pos rfl] at hkey
      · cases hkey
      · exact hzero
      · exact hone
  | case5 c rest hzero hone hc ih =>
      rw [unescapeToken, if_neg hc] at hkey
      · obtain ⟨tail, htail, hcons⟩ := Option.map_eq_some_iff.mp hkey
        obtain ⟨hle, hsame⟩ := ih htail
        rw [← hcons]
        simp only [List.length_cons]
        refine ⟨by omega, fun hlength hmem => ?_⟩
        cases List.mem_cons.mp hmem with
        | inl hhead => exact hc hhead.symm
        | inr hrest => exact hsame (by omega) hrest
      · exact hzero
      · exact hone

def pointerText (tokens : List Str) : Str :=
  tokens.flatMap ('/' :: ·)

theorem pointerText_eq (tokens : List Str) :
    pointerText tokens = ['/'].intercalate ([] :: tokens) := by
  rw [intercalate_cons_eq]
  rfl

theorem referenceTokens_eq_some {path : Str} {keys : List Str} :
    referenceTokens path = some keys ↔
      ∃ tokens, path.splitOn '/' = [] :: tokens ∧
        tokens.mapM unescapeToken = some keys := by
  unfold referenceTokens
  split
  next tokens hsplit =>
    rw [hsplit]
    simp
  next hother =>
    refine iff_of_false (by simp) ?_
    rintro ⟨tokens, hsplit, _⟩
    exact hother tokens hsplit

theorem mapM_unescapeToken_of_plain {keys : List Str}
    (hplain : PlainKeys keys) : keys.mapM unescapeToken = some keys := by
  induction keys with
  | nil => rfl
  | cons key keys ih =>
      obtain ⟨hkey, hkeys⟩ := List.forall_mem_cons.mp hplain
      rw [List.mapM_cons, unescapeToken_of_notMem hkey.2, ih hkeys]
      rfl

theorem mapM_unescapeToken_length_le {tokens keys : List Str}
    (hkeys : tokens.mapM unescapeToken = some keys) :
    (pointerText keys).length ≤ (pointerText tokens).length ∧
      ((pointerText keys).length = (pointerText tokens).length →
        ∀ token ∈ tokens, '~' ∉ token) := by
  induction tokens generalizing keys with
  | nil =>
      cases hkeys
      exact ⟨le_refl _, fun _ token htoken => by cases htoken⟩
  | cons token tokens ih =>
      rw [List.mapM_cons] at hkeys
      obtain ⟨key, hkey, hrest⟩ := Option.bind_eq_some_iff.mp hkeys
      obtain ⟨tail, htail, hcons⟩ := Option.bind_eq_some_iff.mp hrest
      cases hcons
      obtain ⟨hle, hsame⟩ := unescapeToken_length_le hkey
      obtain ⟨hleTail, hsameTail⟩ := ih htail
      simp only [pointerText, List.flatMap_cons, List.length_append,
        List.length_cons] at hleTail hsameTail ⊢
      refine ⟨by omega, fun hlength => ?_⟩
      rw [List.forall_mem_cons]
      exact ⟨hsame (by omega), hsameTail (by omega)⟩

theorem notMem_of_mem_splitOn {text part : Str} {c : Char}
    (hpart : part ∈ text.splitOn c) : c ∉ part := by
  induction text generalizing part with
  | nil =>
      rw [List.splitOn_nil, List.mem_singleton] at hpart
      rw [hpart]
      exact List.not_mem_nil
  | cons d text ih =>
      rw [List.splitOn_cons_eq_if_modifyHead] at hpart
      split_ifs at hpart with hd
      · cases List.mem_cons.mp hpart with
        | inl hnil =>
            rw [hnil]
            exact List.not_mem_nil
        | inr hmem => exact ih hmem
      · cases hparts : text.splitOn c with
        | nil => exact absurd hparts (List.splitOn_ne_nil c text)
        | cons first rest =>
            rw [hparts] at hpart ih
            cases List.mem_cons.mp hpart with
            | inl hhead =>
                have hfirst := ih List.mem_cons_self
                rw [hhead, List.mem_cons, not_or]
                exact ⟨fun h => hd (beq_iff_eq.mpr h.symm), hfirst⟩
            | inr hmem => exact ih (List.mem_cons_of_mem first hmem)

theorem referenceTokens_of_plain {keys : List Str} (hplain : PlainKeys keys) :
    referenceTokens (pointerText keys) = some keys := by
  have hslash : ∀ part ∈ [] :: keys, '/' ∉ part := by
    intro part hpart
    cases List.mem_cons.mp hpart with
    | inl hnil =>
        rw [hnil]
        exact List.not_mem_nil
    | inr hkey => exact (hplain part hkey).1
  rw [pointerText_eq, referenceTokens_eq_some]
  exact ⟨keys, List.splitOn_intercalate '/' hslash (List.cons_ne_nil _ _),
    mapM_unescapeToken_of_plain hplain⟩

/-- The pointer is read back as its keys only when all of them are plain. -/
theorem plain_of_referenceTokens {keys : List Str}
    (hread : referenceTokens (pointerText keys) = some keys) :
    PlainKeys keys := by
  obtain ⟨tokens, hsplit, hkeys⟩ := referenceTokens_eq_some.mp hread
  have hpath : pointerText tokens = pointerText keys := by
    rw [pointerText_eq tokens, ← hsplit, List.intercalate_splitOn]
  have htilde := (mapM_unescapeToken_length_le hkeys).2
    (congrArg List.length hpath.symm)
  have hslash : ∀ token ∈ tokens, '/' ∉ token := by
    intro token htoken
    have hpart : token ∈ (pointerText keys).splitOn '/' := by
      rw [hsplit]
      exact List.mem_cons_of_mem [] htoken
    exact notMem_of_mem_splitOn hpart
  have hplain : PlainKeys tokens := fun token htoken =>
    ⟨hslash token htoken, htilde token htoken⟩
  have hsame := mapM_unescapeToken_of_plain hplain
  rw [hkeys] at hsame
  cases hsame
  exact hplain

theorem Json.atTokens_of_follow {j value : Json} {keys : List Str}
    (hfollow : j.follow keys = some value) :
    j.atTokens keys = some value := by
  induction keys generalizing j with
  | nil =>
      cases hfollow
      simp [atTokens]
  | cons key keys ih =>
      cases j with
      | object members =>
          obtain ⟨next, hnext, hrest⟩ := Option.bind_eq_some_iff.mp hfollow
          rw [atTokens, hnext]
          exact ih hrest
      | _ => cases hfollow

/-- Objects with one member each, down to the number one. -/
def Json.chain : List Str → Json
  | [] => .integer 1
  | key :: keys => .object [(key, chain keys)]

theorem Json.follow_chain (keys : List Str) :
    (chain keys).follow keys = some (.integer 1) := by
  induction keys with
  | nil => rfl
  | cons key keys ih =>
      rw [chain, follow, lookup, if_pos rfl]
      exact ih

theorem Json.tokens_of_atTokens_chain {keys tokens : List Str} {value : Json}
    {n : Int32} (hat : (chain keys).atTokens tokens = some value)
    (hget : value.getInt = some n) : tokens = keys := by
  induction keys generalizing tokens with
  | nil =>
      cases tokens with
      | nil => rfl
      | cons token tokens =>
          rw [chain, atTokens] at hat
          · cases hat
          all_goals simp
  | cons key keys ih =>
      cases tokens with
      | nil =>
          rw [chain, atTokens] at hat
          cases hat
          cases hget
      | cons token tokens =>
          rw [chain, atTokens, lookup] at hat
          split_ifs at hat with hkey
          · rw [hkey, ih hat]
          · cases hat

/-- A path gives what its keys lead to in every JSON value exactly when no key
has a slash or a tilde. -/
theorem followsKeys_iff (keys : List Str) :
    FollowsKeys keys ↔ PlainKeys keys := by
  constructor
  · intro hfollows
    have hfound := hfollows Json.getInt 0 (Json.chain keys) (.integer 1) 1
      (Json.follow_chain keys) rfl
    obtain ⟨tokens, htokens, hvalue⟩ := Option.map_eq_some_iff.mp hfound
    have hread : tokens = keys := by
      cases hget : ((Json.chain keys).atTokens tokens).bind Json.getInt with
      | none =>
          rw [hget] at hvalue
          exact absurd hvalue (by decide)
      | some n =>
          obtain ⟨value, hat, hn⟩ := Option.bind_eq_some_iff.mp hget
          exact Json.tokens_of_atTokens_chain hat hn
    rw [hread] at htokens
    exact plain_of_referenceTokens htokens
  · intro hplain α get initial j value found hfollow hget
    have hread := referenceTokens_of_plain hplain
    unfold pointerText at hread
    unfold getPathValueFromJson
    dsimp only
    rw [hread, Option.map_some, Json.atTokens_of_follow hfollow,
      Option.bind_some, hget]
    rfl

/-- The configuration of an environment whose name has a slash. -/
def slashedConfig : Json :=
  .object [("postgres".toList, .object [("dev/local".toList,
    .object [("port".toList, .integer 5432)])])]

theorem slashedKey_not_followed :
    ¬ ∀ keys : List Str, keys ≠ [] → FollowsKeys keys := by
  intro hclaim
  have hfound := hclaim
    ["postgres".toList, "dev/local".toList, "port".toList]
    (List.cons_ne_nil _ _) Json.getInt 0 slashedConfig (.integer 5432) 5432
    (by simp [slashedConfig, Json.follow, Json.lookup]) rfl
  exact absurd hfound (by decide +kernel)

end StoreCpp
