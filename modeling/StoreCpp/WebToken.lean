import StoreCpp.JsonValue
import Mathlib.Data.Set.Basic

/-!
# Web tokens and the RS256 check of the servers

`isRS256Authenticated` decodes a token with the public key, turns it into JSON
and compares its expiration time with the clock.  Signatures are symbolic: an
HMAC is determined by its key and input, and an RS256 signature by its private
key and input, so that only their constructors can make them.
-/

namespace StoreCpp

inductive Algorithm where
  | hs256
  | rs256
  | other (name : Str)
  deriving DecidableEq

inductive Signature where
  | hs256 (key input : Str)
  | rs256 (privateKey input : Str)
  | raw (bytes : Str)
  deriving DecidableEq

structure Token where
  alg : Algorithm
  header : Json
  payload : Json
  signingInput : Str
  signature : Signature

/-- The parts of the JWT library that depend on encodings: the public key of
a private key, the parts of a token string, and the text of the exception
when a string is not accepted. -/
structure JwtLibrary where
  publicKeyOf : Str → Str
  parse : Str → Option Token
  what : Str → Str
  what_ne_nil : ∀ encStr, what encStr ≠ []

namespace JwtLibrary

def verify (lib : JwtLibrary) (key : Str) (token : Token) :
    Algorithm → Bool
  | .hs256 => token.signature = .hs256 key token.signingInput
  | .rs256 =>
      match token.signature with
      | .rs256 privateKey input =>
          lib.publicKeyOf privateKey = key ∧ input = token.signingInput
      | _ => false
  | .other _ => false

def decode (lib : JwtLibrary) (encStr : Str) (algorithms : List Algorithm)
    (secret : Str) : Except Str Token :=
  match lib.parse encStr with
  | some token =>
      if token.alg ∈ algorithms ∧ lib.verify secret token token.alg then
        .ok token
      else .error (lib.what encStr)
  | none => .error (lib.what encStr)

end JwtLibrary

/-- The error text, empty when there is none, and the decoded token. -/
def decryptJwt (lib : JwtLibrary) (key encStr : Str) : Str × Option Token :=
  match lib.decode encStr [.hs256, .rs256] key with
  | .ok obj => ([], some obj)
  | .error what => (what, none)

def jwtObjectToJson (obj : Token) : Json :=
  Json.ofMembers [
    ("header".toList, obj.header),
    ("payload".toList, obj.payload)]

/-- Whether the time in milliseconds is past the claim `exp` of the payload,
which counts as 0 when it is missing; `none` when the lookup throws. -/
def tokenExpired (now : Int64) (j : Json) : Option Bool := do
  let payload ← j.valueJson "payload".toList .null
  let exp ← match payload with
    | .null => some 0
    | .object members =>
        match (Json.lookup "exp".toList members).getD .null with
        | .null => some 0
        | exp => exp.getInt64
    | _ => none
  return exp < now

/-- The answer and the new value of `j`; `none` when an exception leaves the
function. -/
def isRS256Authenticated (lib : JwtLibrary) (now : Int64)
    (publicKey token : Str) (j : Json) : Option (Bool × Json) :=
  let pa := decryptJwt lib publicKey token
  if 0 < pa.1.length then some (false, j)
  else do
    let obj ← pa.2
    let j := jwtObjectToJson obj
    let expired ← tokenExpired now j
    if expired then return (false, j) else return (true, j)

/-- The check of the HTTP server on the header of a request, or on its query
string when the header is absent. -/
def RS256SecureServer.isAuthenticated (lib : JwtLibrary) (now : Int64)
    (publicKey : Str) (header : Option Str) (querystrings : List (Str × Str))
    (j : Json) : Option (Bool × Json) :=
  match header with
  | some val => isRS256Authenticated lib now publicKey val j
  | none =>
      let xtoken := (querystrings.lookup "x-access-token".toList).getD []
      if 0 < xtoken.length then
        isRS256Authenticated lib now publicKey xtoken j
      else some (false, j)

def RS256SecureWsServer.parseQuerystringForAuthentication (lib : JwtLibrary)
    (now : Int64) (publicKey : Str) :
    List (Str × Str) → Json → Option (Bool × Json)
  | [], j => some (false, j)
  | (key, val) :: rest, j =>
      if key = "x-access-token".toList then
        isRS256Authenticated lib now publicKey val j
      else parseQuerystringForAuthentication lib now publicKey rest j

/-- The library's check of `exp`, which it takes for seconds. -/
def Token.expiredAt (token : Token) (seconds : ℤ) : Bool :=
  match token.payload with
  | .object members =>
      match Json.lookup "exp".toList members with
      | some exp => exp.getInt64.all fun exp => exp.toInt < seconds
      | none => false
  | _ => false

/-- The library at a time in milliseconds. -/
def JwtLibrary.atTime (lib : JwtLibrary) (now : Int64) : JwtLibrary where
  publicKeyOf := lib.publicKeyOf
  parse encStr :=
    (lib.parse encStr).filter fun token => ¬ token.expiredAt (now.toInt / 1000)
  what := lib.what
  what_ne_nil := lib.what_ne_nil

/-! ## What a token says about who made it -/

def Accepts (lib : JwtLibrary) (now : Int64) (publicKey token : Str)
    (j : Json) : Prop :=
  (isRS256Authenticated lib now publicKey token j).map Prod.fst = some true

def CarriesRS256Signature (lib : JwtLibrary) (publicKey token : Str) : Prop :=
  ∃ obj, lib.parse token = some obj ∧ lib.verify publicKey obj .rs256

/-- What a party knows: texts, which it may use as keys, and signatures. -/
structure Party where
  texts : Set Str
  signatures : Set Signature

inductive Party.CanMake (party : Party) : Signature → Prop where
  | hs256 (key input : Str) (hkey : key ∈ party.texts) :
      party.CanMake (.hs256 key input)
  | rs256 (privateKey input : Str) (hkey : privateKey ∈ party.texts) :
      party.CanMake (.rs256 privateKey input)
  | raw (bytes : Str) : party.CanMake (.raw bytes)
  | replay (signature : Signature) (hseen : signature ∈ party.signatures) :
      party.CanMake signature

/-- The party may know the public key, but it has neither its private key nor
a signature of that key on the input. -/
structure Party.Outside (party : Party) (lib : JwtLibrary)
    (publicKey input : Str) : Prop where
  noPrivateKey : ∀ privateKey ∈ party.texts,
    lib.publicKeyOf privateKey ≠ publicKey
  noSignature : ∀ privateKey, lib.publicKeyOf privateKey = publicKey →
    .rs256 privateKey input ∉ party.signatures

/-- An accepted token carries an RS256 signature, and no outside party can
make it. -/
def AcceptsOnlyRS256 (lib : JwtLibrary) (now : Int64) (publicKey token : Str)
    (j : Json) : Prop :=
  Accepts lib now publicKey token j →
    CarriesRS256Signature lib publicKey token ∧
      ∀ (party : Party) (obj : Token), lib.parse token = some obj →
        party.Outside lib publicKey obj.signingInput →
          ¬ party.CanMake obj.signature

def KeyedWithPublicKey (lib : JwtLibrary) (now : Int64)
    (publicKey token : Str) : Prop :=
  ∃ obj, lib.parse token = some obj ∧ obj.alg = .hs256 ∧
    obj.signature = .hs256 publicKey obj.signingInput ∧
      tokenExpired now (jwtObjectToJson obj) = some false

theorem JwtLibrary.verify_hs256 {lib : JwtLibrary} {key : Str}
    {token : Token} :
    lib.verify key token .hs256 = true ↔
      token.signature = .hs256 key token.signingInput := by
  simp [JwtLibrary.verify]

theorem JwtLibrary.verify_rs256 {lib : JwtLibrary} {key : Str}
    {token : Token} :
    lib.verify key token .rs256 = true ↔
      ∃ privateKey, lib.publicKeyOf privateKey = key ∧
        token.signature = .rs256 privateKey token.signingInput := by
  unfold JwtLibrary.verify
  cases hsignature : token.signature with
  | hs256 hmacKey input => simp
  | rs256 privateKey input => simp
  | raw bytes => simp

theorem decryptJwt_eq {lib : JwtLibrary} {key encStr : Str} :
    (∃ obj, lib.parse encStr = some obj ∧
        obj.alg ∈ [Algorithm.hs256, .rs256] ∧ lib.verify key obj obj.alg ∧
        decryptJwt lib key encStr = ([], some obj)) ∨
      (∀ obj, lib.parse encStr = some obj →
        ¬ (obj.alg ∈ [Algorithm.hs256, .rs256] ∧
          lib.verify key obj obj.alg)) ∧
        decryptJwt lib key encStr = (lib.what encStr, none) := by
  unfold decryptJwt JwtLibrary.decode
  cases hparse : lib.parse encStr with
  | none => exact Or.inr ⟨by simp, rfl⟩
  | some obj =>
      by_cases haccept : obj.alg ∈ [Algorithm.hs256, .rs256] ∧
          lib.verify key obj obj.alg
      · exact Or.inl ⟨obj, rfl, haccept.1, haccept.2, by simp [haccept]⟩
      · refine Or.inr ⟨?_, by simp only [if_neg haccept]⟩
        rintro other hother
        cases hother
        exact haccept

theorem accepts_iff {lib : JwtLibrary} {now : Int64} {publicKey token : Str}
    {j : Json} :
    Accepts lib now publicKey token j ↔
      ∃ obj, lib.parse token = some obj ∧
        (obj.alg = .hs256 ∨ obj.alg = .rs256) ∧
        lib.verify publicKey obj obj.alg ∧
        tokenExpired now (jwtObjectToJson obj) = some false := by
  unfold Accepts isRS256Authenticated
  rcases @decryptJwt_eq lib publicKey token with
    ⟨obj, hparse, halg, hverify, hdecrypt⟩ | ⟨hreject, hdecrypt⟩
  · have halg' : obj.alg = .hs256 ∨ obj.alg = .rs256 := by simpa using halg
    rw [hdecrypt]
    cases hexpired : tokenExpired now (jwtObjectToJson obj) with
    | none => simp [hparse, hexpired]
    | some expired =>
        cases expired <;> simp [hparse, hexpired, halg', hverify]
  · have hwhat : 0 < (lib.what token).length :=
      List.length_pos_iff.mpr (lib.what_ne_nil token)
    rw [hdecrypt, if_pos hwhat]
    simp only [Option.map_some, Option.some.injEq, Bool.false_eq_true,
      false_iff]
    rintro ⟨obj, hparse, halg, hverify, _⟩
    exact hreject obj hparse ⟨by simpa using halg, hverify⟩

theorem Party.Outside.not_canMake {party : Party} {lib : JwtLibrary}
    {publicKey input privateKey : Str}
    (houtside : party.Outside lib publicKey input)
    (hkey : lib.publicKeyOf privateKey = publicKey) :
    ¬ party.CanMake (.rs256 privateKey input) := by
  intro hmake
  cases hmake with
  | rs256 _ _ hknown => exact houtside.noPrivateKey privateKey hknown hkey
  | replay _ hseen => exact houtside.noSignature privateKey hkey hseen

theorem acceptsOnlyRS256_iff (lib : JwtLibrary) (now : Int64)
    (publicKey token : Str) (j : Json) :
    AcceptsOnlyRS256 lib now publicKey token j ↔
      ¬ KeyedWithPublicKey lib now publicKey token := by
  constructor
  · rintro honly ⟨obj, hparse, halg, hsignature, hexpired⟩
    have haccepts : Accepts lib now publicKey token j := by
      refine accepts_iff.mpr ⟨obj, hparse, Or.inl halg, ?_, hexpired⟩
      rw [halg]
      exact JwtLibrary.verify_hs256.mpr hsignature
    obtain ⟨other, hother, hverify⟩ := (honly haccepts).1
    have heq : obj = other := Option.some.inj (hparse.symm.trans hother)
    obtain ⟨privateKey, _, hrs256⟩ := JwtLibrary.verify_rs256.mp hverify
    rw [← heq, hsignature] at hrs256
    cases hrs256
  · intro hsafe haccepts
    obtain ⟨obj, hparse, halg, hverify, hexpired⟩ := accepts_iff.mp haccepts
    rcases halg with halg | halg
    · rw [halg] at hverify
      have hsignature := JwtLibrary.verify_hs256.mp hverify
      exact absurd ⟨obj, hparse, halg, hsignature, hexpired⟩ hsafe
    · rw [halg] at hverify
      refine ⟨⟨obj, hparse, hverify⟩, ?_⟩
      intro party other hother houtside
      have heq : obj = other := Option.some.inj (hparse.symm.trans hother)
      obtain ⟨privateKey, hkey, hsignature⟩ :=
        JwtLibrary.verify_rs256.mp hverify
      rw [← heq] at houtside ⊢
      rw [hsignature]
      exact houtside.not_canMake hkey

def jwtRS256 : JwtLibrary where
  publicKeyOf privateKey := privateKey ++ ".pub".toList
  parse encStr :=
    if encStr = "eyJhbGciOiJIUzI1NiJ9.eyJleHAiOjQxMDI0NDQ4MDAwMDB9.mac".toList
    then some {
      alg := .hs256
      header := .object [("alg".toList, .string "HS256".toList)]
      payload := .object [("exp".toList, .unsigned 4102444800000)]
      signingInput :=
        "eyJhbGciOiJIUzI1NiJ9.eyJleHAiOjQxMDI0NDQ4MDAwMDB9".toList
      signature := .hs256 "key.pub".toList
        "eyJhbGciOiJIUzI1NiJ9.eyJleHAiOjQxMDI0NDQ4MDAwMDB9".toList }
    else none
  what _ := "signature verification failed".toList
  what_ne_nil _ := by decide

/-- A token whose HMAC key is the public key's text is accepted. -/
theorem acceptsOnlyRS256_fails :
    ¬ ∀ (lib : JwtLibrary) (now : Int64) (publicKey token : Str) (j : Json),
      AcceptsOnlyRS256 lib now publicKey token j := by
  intro hclaim
  have haccepts : Accepts jwtRS256 1735689600000 "key.pub".toList
      "eyJhbGciOiJIUzI1NiJ9.eyJleHAiOjQxMDI0NDQ4MDAwMDB9.mac".toList
      .null := rfl
  obtain ⟨obj, hparse, hverify⟩ := (hclaim _ _ _ _ _ haccepts).1
  cases hparse
  exact absurd hverify (by decide)

theorem atTime_parse {lib : JwtLibrary} {check : Int64} {encStr : Str}
    {obj : Token} :
    (lib.atTime check).parse encStr = some obj ↔
      lib.parse encStr = some obj ∧
        obj.expiredAt (check.toInt / 1000) = false := by
  simp [JwtLibrary.atTime, Option.filter_eq_some_iff]

/-! ## The servers -/

theorem RS256SecureServer.accepts_of_isAuthenticated {lib : JwtLibrary}
    {now : Int64} {publicKey : Str} {header : Option Str}
    {querystrings : List (Str × Str)} {j : Json}
    (hauthenticated : (RS256SecureServer.isAuthenticated lib now publicKey
      header querystrings j).map Prod.fst = some true) :
    ∃ token, Accepts lib now publicKey token j ∧
      (header = some token ∨
        header = none ∧
          querystrings.lookup "x-access-token".toList = some token) := by
  unfold RS256SecureServer.isAuthenticated at hauthenticated
  cases header with
  | some val => exact ⟨val, hauthenticated, Or.inl rfl⟩
  | none =>
      generalize querystrings.lookup "x-access-token".toList = found
        at hauthenticated ⊢
      cases found with
      | none => simp at hauthenticated
      | some xtoken =>
          simp only [Option.getD_some] at hauthenticated
          split_ifs at hauthenticated
          · exact ⟨xtoken, hauthenticated, Or.inr ⟨rfl, rfl⟩⟩
          · simp at hauthenticated

theorem RS256SecureWsServer.accepts_of_parseQuerystring {lib : JwtLibrary}
    {now : Int64} {publicKey : Str} {headers : List (Str × Str)} {j : Json}
    (hvalid : (RS256SecureWsServer.parseQuerystringForAuthentication lib now
      publicKey headers j).map Prod.fst = some true) :
    ∃ token, Accepts lib now publicKey token j ∧
      ("x-access-token".toList, token) ∈ headers := by
  induction headers with
  | nil => simp [parseQuerystringForAuthentication] at hvalid
  | cons header rest ih =>
      obtain ⟨key, val⟩ := header
      rw [parseQuerystringForAuthentication] at hvalid
      split_ifs at hvalid with hkey
      · subst key
        exact ⟨val, hvalid, List.mem_cons_self⟩
      · obtain ⟨token, haccepts, hmem⟩ := ih hvalid
        exact ⟨token, haccepts, List.mem_cons_of_mem _ hmem⟩

end StoreCpp
