import Mathlib.Data.List.Count
import Mathlib.Data.List.TakeWhile
import Mathlib.Tactic

/-!
# Connection URIs

The address part of a URI
`postgresql://[user[:password]@][host][:port][/dbname][?parameters]`, read from
left to right as libpq reads it.  Every part ends at the first of its
delimiters and is percent-decoded afterwards, and an empty part is one that is
not given.
-/

namespace ConnectionUri

/-- The settings of a connection; an empty one is not given. -/
structure Settings where
  user : List Char
  password : List Char
  host : List Char
  port : List Char
  dbname : List Char
  deriving DecidableEq

/-- What a URI names: settings, and the unread text of its parameters. -/
structure Reading where
  settings : Settings
  parameters : Option (List Char)
  deriving DecidableEq

/-! ## Percent decoding -/

def hexValue (c : Char) : Option ℕ :=
  if '0' ≤ c ∧ c ≤ '9' then some (c.toNat - '0'.toNat)
  else if 'a' ≤ c ∧ c ≤ 'f' then some (c.toNat - 'a'.toNat + 10)
  else if 'A' ≤ c ∧ c ≤ 'F' then some (c.toNat - 'A'.toNat + 10)
  else none

/-- `none` where an escape is cut short, is not hexadecimal or is `%00`. -/
def percentDecode : List Char → Option (List Char)
  | [] => some []
  | c :: rest =>
      if c = '%' then
        match rest with
        | high :: low :: rest =>
            match hexValue high, hexValue low with
            | some high, some low =>
                if 16 * high + low = 0 then none
                else (percentDecode rest).map
                  (Char.ofNat (16 * high + low) :: ·)
            | _, _ => none
        | _ => none
      else (percentDecode rest).map (c :: ·)

theorem percentDecode_cons_of_ne {c : Char} (hc : c ≠ '%')
    (text : List Char) :
    percentDecode (c :: text) = (percentDecode text).map (c :: ·) := by
  rcases text with _ | ⟨high, _ | ⟨low, rest⟩⟩ <;> simp [percentDecode, hc]

theorem percentDecode_escape {text decoded : List Char}
    (hdecode : percentDecode ('%' :: text) = some decoded) :
    ∃ high low value rest left, text = high :: low :: rest ∧
      (hexValue high).isSome ∧ (hexValue low).isSome ∧
      percentDecode rest = some left ∧ decoded = value :: left := by
  match text with
  | [] => simp [percentDecode] at hdecode
  | [_] => simp [percentDecode] at hdecode
  | high :: low :: rest =>
      rw [percentDecode, if_pos rfl] at hdecode
      split at hdecode
      · rename_i highValue lowValue hhigh hlow
        split_ifs at hdecode
        obtain ⟨left, hleft, rfl⟩ := Option.map_eq_some_iff.mp hdecode
        exact ⟨high, low, _, rest, left, rfl, by rw [hhigh]; rfl,
          by rw [hlow]; rfl, hleft, rfl⟩
      · cases hdecode

theorem ne_of_hexValue_isSome {c d : Char} (hc : (hexValue c).isSome)
    (hd : hexValue d = none) : c ≠ d := by
  rintro rfl
  rw [hd] at hc
  cases hc

/-- An escape is three characters for one. -/
theorem length_percentDecode {text decoded : List Char}
    (hdecode : percentDecode text = some decoded) :
    decoded.length + 2 * text.count '%' = text.length := by
  induction hlength : text.length using Nat.strong_induction_on
    generalizing text decoded with
  | _ n ih =>
      cases text with
      | nil =>
          cases hdecode
          exact hlength
      | cons c text =>
          by_cases hc : c = '%'
          · subst hc
            obtain ⟨high, low, value, rest, left, rfl, hhigh, hlow, hleft,
              rfl⟩ := percentDecode_escape hdecode
            have hrest := ih rest.length (by simp at hlength; omega) hleft rfl
            have hhigh' : high ≠ '%' := ne_of_hexValue_isSome hhigh rfl
            have hlow' : low ≠ '%' := ne_of_hexValue_isSome hlow rfl
            simp [hhigh', hlow'] at hlength ⊢
            omega
          · rw [percentDecode_cons_of_ne hc] at hdecode
            obtain ⟨left, hleft, rfl⟩ := Option.map_eq_some_iff.mp hdecode
            have hrest := ih text.length (by simp at hlength; omega) hleft rfl
            simp [hc] at hlength ⊢
            omega

/-- Decoding removes no character that is not part of an escape. -/
theorem count_le_percentDecode {c : Char} (hpercent : c ≠ '%')
    (hhex : hexValue c = none) {text decoded : List Char}
    (hdecode : percentDecode text = some decoded) :
    text.count c ≤ decoded.count c := by
  induction hlength : text.length using Nat.strong_induction_on
    generalizing text decoded with
  | _ n ih =>
      cases text with
      | nil => simp
      | cons d text =>
          by_cases hd : d = '%'
          · subst hd
            obtain ⟨high, low, value, rest, left, rfl, hhigh, hlow, hleft,
              rfl⟩ := percentDecode_escape hdecode
            have hrest := ih rest.length (by simp at hlength; omega) hleft rfl
            have hhigh' : high ≠ c := ne_of_hexValue_isSome hhigh hhex
            have hlow' : low ≠ c := ne_of_hexValue_isSome hlow hhex
            rw [List.count_cons_of_ne hpercent.symm,
              List.count_cons_of_ne hhigh', List.count_cons_of_ne hlow']
            exact hrest.trans (List.count_le_count_cons)
          · rw [percentDecode_cons_of_ne hd] at hdecode
            obtain ⟨left, hleft, rfl⟩ := Option.map_eq_some_iff.mp hdecode
            have hrest := ih text.length (by simp at hlength; omega) hleft rfl
            rw [List.count_cons, List.count_cons]
            omega

theorem percentDecode_of_notMem {text : List Char} (htext : '%' ∉ text) :
    percentDecode text = some text := by
  induction text with
  | nil => rfl
  | cons c text ih =>
      rw [List.mem_cons, not_or] at htext
      rw [percentDecode_cons_of_ne (Ne.symm htext.1), ih htext.2]
      rfl

/-- A part that is cut at a delimiter decodes to the text it was cut from
only if nothing was cut off and nothing was decoded. -/
theorem percentDecode_takeWhile_iff (inside : Char → Bool)
    (text : List Char) :
    percentDecode (text.takeWhile inside) = some text ↔
      (∀ c ∈ text, inside c = true) ∧ '%' ∉ text := by
  constructor
  · intro hdecode
    have hlength := length_percentDecode hdecode
    have hle := (List.takeWhile_prefix inside (l := text)).length_le
    have hwhole : text.takeWhile inside = text :=
      (List.takeWhile_prefix inside).eq_of_length (by omega)
    rw [hwhole] at hlength
    have hcount : text.count '%' = 0 := by omega
    exact ⟨List.takeWhile_eq_self_iff.mp hwhole, List.count_eq_zero.mp hcount⟩
  · rintro ⟨hinside, hpercent⟩
    rw [List.takeWhile_eq_self_iff.mpr hinside]
    exact percentDecode_of_notMem hpercent

/-! ## Reading -/

/-- The text before the first delimiter, and the text from it on. -/
def cut (stop : Char → Bool) (text : List Char) : List Char × List Char :=
  (text.takeWhile fun c => !stop c, text.dropWhile fun c => !stop c)

theorem cut_fst_append {stop : Char → Bool} {c : Char} (hc : stop c = true)
    (front back : List Char) :
    (cut stop (front ++ c :: back)).1 =
      front.takeWhile fun c => !stop c := by
  induction front with
  | nil => simp [cut, hc]
  | cons d front ih =>
      change (d :: (front ++ c :: back)).takeWhile (fun c => !stop c) = _
      rw [List.takeWhile_cons, List.takeWhile_cons]
      split_ifs
      · rw [← ih, cut]
      · rfl

theorem cut_append {stop : Char → Bool} {c : Char} (hc : stop c = true)
    {front : List Char} (hfront : ∀ d ∈ front, stop d = false)
    (back : List Char) :
    cut stop (front ++ c :: back) = (front, c :: back) := by
  have hinside : ∀ d ∈ front, (!stop d) = true :=
    fun d hd => by rw [hfront d hd]; rfl
  rw [cut, List.takeWhile_append_of_pos hinside,
    List.dropWhile_append_of_pos hinside, List.takeWhile_cons,
    List.dropWhile_cons, if_neg (by simp [hc]), if_neg (by simp [hc]),
    List.append_nil]

def isUserinfoEnd (c : Char) : Bool := c = '@' || c = '/'
def isUserEnd (c : Char) : Bool := c = ':' || c = '@'
def isPasswordEnd (c : Char) : Bool := c = '@'
def isHostEnd (c : Char) : Bool := c = ':' || c = '/' || c = '?' || c = ','
def isPortEnd (c : Char) : Bool := c = '/' || c = '?' || c = ','
def isDbnameEnd (c : Char) : Bool := c = '?'

/-- User, password and the text behind them. -/
def readUser (text : List Char) : List Char × List Char × List Char :=
  if (cut isUserinfoEnd text).2.head? = some '@' then
    let user := cut isUserEnd text
    match user.2 with
    | ':' :: rest =>
        let password := cut isPasswordEnd rest
        (user.1, password.1, password.2.tail)
    | rest => (user.1, [], rest.tail)
  else ([], [], text)

/-- The port behind a host; `none` where another host follows. -/
def readPort (host rest : List Char) :
    Option (List Char × List Char × List Char) :=
  let port :=
    match rest with
    | ':' :: rest => cut isPortEnd rest
    | rest => ([], rest)
  match port.2 with
  | ',' :: _ => none
  | rest => some (host, port.1, rest)

/-- Host, port and the text behind them.  A host in brackets ends with them;
`none` where libpq refuses the text or it lists several hosts. -/
def readHost (text : List Char) :
    Option (List Char × List Char × List Char) :=
  match text with
  | '[' :: inner =>
      let address := cut (· = ']') inner
      match address.2 with
      | ']' :: rest =>
          if address.1 ≠ [] ∧ rest.head?.all isHostEnd then
            readPort address.1 rest
          else none
      | _ => none
  | text =>
      let host := cut isHostEnd text
      readPort host.1 host.2

/-- The name of the database and the parameters. -/
def readDbname (text : List Char) : List Char × Option (List Char) :=
  match text with
  | '/' :: rest =>
      let dbname := cut isDbnameEnd rest
      (dbname.1, dbname.2.tail?)
  | '?' :: parameters => ([], some parameters)
  | _ => ([], none)

def scheme : List Char := "postgresql://".toList

/-- `none` where the text does not start with the scheme, is refused or lists
several hosts. -/
def read (text : List Char) : Option Reading := do
  if !scheme.isPrefixOf text then none
  let (user, password, rest) := readUser (text.drop scheme.length)
  let (host, port, rest) ← readHost rest
  let (dbname, parameters) := readDbname rest
  return {
    settings := {
      user := ← percentDecode user
      password := ← percentDecode password
      host := ← percentDecode host
      port := ← percentDecode port
      dbname := ← percentDecode dbname }
    parameters }

/-! ## Which settings a URI can carry -/

def Free (delimiters text : List Char) : Prop :=
  ∀ c ∈ text, c ∉ delimiters

/-- No setting has a character that ends it early or starts an escape. -/
structure Settings.Plain (settings : Settings) : Prop where
  user : Free ":@/%".toList settings.user
  password : Free "@/%".toList settings.password
  host : Free ":/?,%".toList settings.host
  unbracketed : settings.host.head? ≠ some '['
  port : Free "/?,%".toList settings.port
  dbname : Free "?%".toList settings.dbname

theorem Free.stop_eq_false {stop : Char → Bool} {delimiters text : List Char}
    (hfree : Free delimiters text)
    (hstop : ∀ c, stop c = true → c ∈ delimiters) :
    ∀ c ∈ text, stop c = false :=
  fun c hc => Bool.eq_false_of_not_eq_true
    fun hend => hfree c hc (hstop c hend)

theorem free_of_stop {stop : Char → Bool} {delimiters text : List Char}
    (hend : ∀ c ∈ text, stop c = false)
    (hdelimiters : ∀ d ∈ delimiters, stop d = true ∨ d ∉ text) :
    Free delimiters text := by
  intro c hc hdelimiter
  rcases hdelimiters c hdelimiter with hstop | hnone
  · rw [hend c hc] at hstop
    cases hstop
  · exact hnone hc

theorem percentDecode_cut_iff {stop : Char → Bool} {c : Char}
    (hc : stop c = true) (front back : List Char) :
    percentDecode (cut stop (front ++ c :: back)).1 = some front ↔
      (∀ d ∈ front, stop d = false) ∧ '%' ∉ front := by
  rw [cut_fst_append hc, percentDecode_takeWhile_iff]
  simp only [Bool.not_eq_true']

/-- A delimiter in the front is where the text is cut. -/
theorem head?_cut_of_mem {stop : Char → Bool} {d : Char} (hd : stop d = true)
    {front : List Char} (hmem : d ∈ front) (back : List Char) :
    ∃ e ∈ front, (cut stop (front ++ back)).2.head? = some e := by
  induction front with
  | nil => cases hmem
  | cons c front ih =>
      cases hc : stop c with
      | true => exact ⟨c, List.mem_cons_self, by simp [cut, hc]⟩
      | false =>
          have hne : d ≠ c := fun heq => by
            rw [heq, hc] at hd
            cases hd
          obtain ⟨e, he, hhead⟩ := ih ((List.mem_cons.mp hmem).resolve_left hne)
          refine ⟨e, List.mem_cons_of_mem _ he, ?_⟩
          rw [← hhead]
          simp [cut, hc]

section Userinfo

variable {user password : List Char} (rest : List Char)

theorem readUser_of_plain (huser : Free ":@/%".toList user)
    (hpassword : Free "@/%".toList password) :
    readUser (user ++ ':' :: (password ++ '@' :: rest)) =
      (user, password, rest) := by
  have hinfo : ∀ c ∈ user ++ ':' :: password, isUserinfoEnd c = false := by
    intro c hc
    rcases List.mem_append.mp hc with hmem | hmem
    · exact huser.stop_eq_false (by simp [isUserinfoEnd]) c hmem
    · rcases List.mem_cons.mp hmem with rfl | hmem
      · rfl
      · exact hpassword.stop_eq_false (by simp [isUserinfoEnd]) c hmem
  have huserEnd : ∀ c ∈ user, isUserEnd c = false :=
    huser.stop_eq_false (by simp [isUserEnd])
  have hpasswordEnd : ∀ c ∈ password, isPasswordEnd c = false :=
    hpassword.stop_eq_false (by simp [isPasswordEnd])
  have hend : isUserinfoEnd '@' = true := rfl
  have hcut := cut_append hend hinfo rest
  rw [List.append_assoc, List.cons_append] at hcut
  unfold readUser
  rw [hcut, cut_append rfl huserEnd]
  simp only [List.head?_cons, if_true]
  rw [cut_append rfl hpasswordEnd]
  rfl

theorem plain_of_readUser {found : List Char × List Char × List Char}
    (hfound : readUser (user ++ ':' :: (password ++ '@' :: rest)) = found)
    (huser : percentDecode found.1 = some user)
    (hpassword : percentDecode found.2.1 = some password) :
    Free ":@/%".toList user ∧ Free "@/%".toList password := by
  subst hfound
  unfold readUser at huser hpassword
  split_ifs at huser hpassword with hat
  · have hcut : percentDecode
        (cut isUserEnd (user ++ ':' :: (password ++ '@' :: rest))).1 =
          some user := by
      dsimp only at huser
      split at huser <;> exact huser
    obtain ⟨huserEnd, huserPercent⟩ := (percentDecode_cut_iff rfl _ _).mp hcut
    have hcolon : isUserEnd ':' = true := rfl
    simp only [cut_append hcolon huserEnd] at hpassword
    obtain ⟨hpasswordEnd, hpasswordPercent⟩ :=
      (percentDecode_cut_iff rfl _ _).mp hpassword
    -- the colon and the at sign are excluded, so a slash would come first
    have hslash : '/' ∉ user ++ ':' :: password := by
      intro hmem
      have hend : isUserinfoEnd '/' = true := rfl
      obtain ⟨e, he, hhead⟩ := head?_cut_of_mem hend hmem ('@' :: rest)
      rw [List.append_assoc, List.cons_append, hat] at hhead
      cases hhead
      rcases List.mem_append.mp he with hmem | hmem
      · exact absurd (huserEnd _ hmem) (by decide)
      · rcases List.mem_cons.mp hmem with heq | hmem
        · cases heq
        · exact absurd (hpasswordEnd _ hmem) (by decide)
    rw [List.mem_append, List.mem_cons, not_or, not_or] at hslash
    constructor
    · exact free_of_stop huserEnd
        (by simp [isUserEnd, hslash.1, huserPercent])
    · exact free_of_stop hpasswordEnd
        (by simp [isPasswordEnd, hslash.2.2, hpasswordPercent])
  · cases huser
    cases hpassword
    exact absurd rfl hat

end Userinfo

section Hostspec

theorem readPort_fst {host rest : List Char}
    {found : List Char × List Char × List Char}
    (hfound : readPort host rest = some found) : found.1 = host := by
  unfold readPort at hfound
  dsimp only at hfound
  split at hfound
  · cases hfound
  · cases hfound
    rfl

theorem readPort_colon (host rest : List Char) :
    readPort host (':' :: rest) =
      match (cut isPortEnd rest).2 with
      | ',' :: _ => none
      | left => some (host, (cut isPortEnd rest).1, left) :=
  rfl

theorem readPort_snd {host rest : List Char}
    {found : List Char × List Char × List Char}
    (hfound : readPort host (':' :: rest) = some found) :
    found.2.1 = (cut isPortEnd rest).1 := by
  rw [readPort_colon] at hfound
  split at hfound
  · cases hfound
  · cases hfound
    rfl

theorem readHost_of_ne {text : List Char} (htext : text.head? ≠ some '[') :
    readHost text =
      readPort (cut isHostEnd text).1 (cut isHostEnd text).2 := by
  unfold readHost
  split
  · exact absurd rfl htext
  · rfl

theorem head?_hostspec_ne {host : List Char} (hbare : host.head? ≠ some '[')
    (back : List Char) : (host ++ ':' :: back).head? ≠ some '[' := by
  cases host with
  | nil => simp
  | cons c host => exact hbare

theorem readHost_bracket {inner : List Char}
    {found : List Char × List Char × List Char}
    (hfound : readHost ('[' :: inner) = some found) :
    found.1 = (cut (· = ']') inner).1 := by
  change (match (cut (· = ']') inner).2 with
    | ']' :: rest =>
        if (cut (· = ']') inner).1 ≠ [] ∧ rest.head?.all isHostEnd then
          readPort (cut (· = ']') inner).1 rest
        else none
    | _ => none) = some found at hfound
  split at hfound
  · split_ifs at hfound
    exact readPort_fst hfound
  · cases hfound

/-- What stands in brackets is never the host with its bracket: the text in
them is shorter or has the colon of the port. -/
theorem percentDecode_bracketed (host back : List Char) :
    percentDecode (cut (· = ']') (host ++ ':' :: back)).1 ≠
      some ('[' :: host) := by
  intro hdecode
  unfold cut at hdecode
  dsimp only at hdecode
  rw [List.takeWhile_append] at hdecode
  split_ifs at hdecode with hwhole
  · have hcount := count_le_percentDecode (c := ':') (by decide) rfl hdecode
    rw [List.takeWhile_cons_of_pos (by decide), List.count_append,
      List.count_cons_self, List.count_cons_of_ne (by decide)] at hcount
    omega
  · have hlength := length_percentDecode hdecode
    have hle := (List.takeWhile_prefix (fun c => !decide (c = ']'))
      (l := host)).length_le
    rw [List.length_cons] at hlength
    omega

variable {host port : List Char} (dbname : List Char)

theorem readHost_of_plain (hhost : Free ":/?,%".toList host)
    (hbare : host.head? ≠ some '[') (hport : Free "/?,%".toList port) :
    readHost (host ++ ':' :: (port ++ '/' :: dbname)) =
      some (host, port, '/' :: dbname) := by
  have hhostEnd : ∀ c ∈ host, isHostEnd c = false :=
    hhost.stop_eq_false fun c => by simp [isHostEnd]; tauto
  have hportEnd : ∀ c ∈ port, isPortEnd c = false :=
    hport.stop_eq_false fun c => by simp [isPortEnd]; tauto
  rw [readHost_of_ne (head?_hostspec_ne hbare _), cut_append rfl hhostEnd]
  rw [readPort_colon, cut_append rfl hportEnd]
  rfl

theorem plain_of_readHost {found : List Char × List Char × List Char}
    (hfound : readHost (host ++ ':' :: (port ++ '/' :: dbname)) = some found)
    (hhost : percentDecode found.1 = some host)
    (hport : percentDecode found.2.1 = some port) :
    Free ":/?,%".toList host ∧ host.head? ≠ some '[' ∧
      Free "/?,%".toList port := by
  have hbare : host.head? ≠ some '[' := by
    intro hhead
    obtain ⟨tail, rfl⟩ : ∃ tail, host = '[' :: tail := by
      cases host with
      | nil => cases hhead
      | cons c tail =>
          cases hhead
          exact ⟨tail, rfl⟩
    rw [List.cons_append] at hfound
    rw [readHost_bracket hfound] at hhost
    exact percentDecode_bracketed tail _ hhost
  rw [readHost_of_ne (head?_hostspec_ne hbare _)] at hfound
  rw [readPort_fst hfound] at hhost
  obtain ⟨hhostEnd, hhostPercent⟩ := (percentDecode_cut_iff rfl _ _).mp hhost
  rw [cut_append rfl hhostEnd] at hfound
  rw [readPort_snd hfound] at hport
  obtain ⟨hportEnd, hportPercent⟩ := (percentDecode_cut_iff rfl _ _).mp hport
  exact ⟨free_of_stop hhostEnd (by simp [isHostEnd, hhostPercent]), hbare,
    free_of_stop hportEnd (by simp [isPortEnd, hportPercent])⟩

end Hostspec

theorem readDbname_of_plain {dbname : List Char}
    (hdbname : Free "?%".toList dbname) :
    readDbname ('/' :: dbname) = (dbname, none) := by
  have hinside : ∀ c ∈ dbname, (!isDbnameEnd c) = true := by
    have hend : ∀ c ∈ dbname, isDbnameEnd c = false :=
      hdbname.stop_eq_false (by simp [isDbnameEnd])
    intro c hc
    rw [hend c hc]
    rfl
  change (dbname.takeWhile (fun c => !isDbnameEnd c),
    (dbname.dropWhile fun c => !isDbnameEnd c).tail?) = (dbname, none)
  rw [List.takeWhile_eq_self_iff.mpr hinside,
    List.dropWhile_eq_nil_iff.mpr hinside]
  rfl

theorem plain_of_readDbname {dbname : List Char}
    (hdecode : percentDecode (readDbname ('/' :: dbname)).1 = some dbname) :
    Free "?%".toList dbname := by
  obtain ⟨hinside, hpercent⟩ :=
    (percentDecode_takeWhile_iff (fun c => !isDbnameEnd c) dbname).mp hdecode
  simp only [Bool.not_eq_true'] at hinside
  exact free_of_stop hinside (by simp [isDbnameEnd, hpercent])

theorem Free.percent_notMem {delimiters text : List Char}
    (hfree : Free delimiters text) (hpercent : '%' ∈ delimiters) :
    '%' ∉ text :=
  fun hmem => hfree '%' hmem hpercent

/-- A URI that is written without escapes is read as the settings it was
written for exactly if none of them has a delimiter of its part. -/
theorem read_iff_plain (settings : Settings) :
    read (scheme ++ (settings.user ++ ':' :: (settings.password ++ '@' ::
      (settings.host ++ ':' :: (settings.port ++ '/' :: settings.dbname))))) =
        some ⟨settings, none⟩ ↔ settings.Plain := by
  obtain ⟨user, password, host, port, dbname⟩ := settings
  have hscheme (text : List Char) :
      scheme.isPrefixOf (scheme ++ text) = true :=
    List.isPrefixOf_iff_prefix.mpr (List.prefix_append _ _)
  unfold read
  rw [hscheme, List.drop_left]
  simp only [Bool.not_true, Bool.false_eq_true, if_false]
  constructor
  · intro hread
    generalize hfound : readUser (user ++ ':' :: (password ++ '@' ::
      (host ++ ':' :: (port ++ '/' :: dbname)))) = found at hread
    simp only [Option.bind_eq_bind, Option.bind_eq_some_iff] at hread
    obtain ⟨address, haddress, _, huser, _, hpassword, _, hhost, _, hport, _,
      hdbname, hsettings⟩ := hread
    obtain ⟨hfields, -⟩ := Reading.mk.inj (Option.some.inj hsettings)
    cases hfields
    have huserinfo := plain_of_readUser _ hfound huser hpassword
    rw [readUser_of_plain _ huserinfo.1 huserinfo.2] at hfound
    subst hfound
    obtain ⟨hplain, hbare, hplain'⟩ :=
      plain_of_readHost _ haddress hhost hport
    rw [readHost_of_plain _ hplain hbare hplain'] at haddress
    cases haddress
    exact ⟨huserinfo.1, huserinfo.2, hplain, hbare, hplain',
      plain_of_readDbname hdbname⟩
  · intro hplain
    rw [readUser_of_plain _ hplain.user hplain.password]
    dsimp only
    rw [readHost_of_plain _ hplain.host hplain.unbracketed hplain.port,
      Option.bind_eq_bind, Option.bind_some]
    dsimp only
    rw [readDbname_of_plain hplain.dbname]
    dsimp only
    rw [percentDecode_of_notMem (hplain.user.percent_notMem (by decide)),
      percentDecode_of_notMem (hplain.password.percent_notMem (by decide)),
      percentDecode_of_notMem (hplain.host.percent_notMem (by decide)),
      percentDecode_of_notMem (hplain.port.percent_notMem (by decide)),
      percentDecode_of_notMem (hplain.dbname.percent_notMem (by decide))]
    rfl

end ConnectionUri
