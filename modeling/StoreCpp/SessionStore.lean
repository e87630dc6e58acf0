import StoreCpp.WebToken

/-!
# Sessions in Redis

`RedisSessionStore::set` creates a token, writes what it has made into the
request and stores a verification key under the session id for the session's
lifetime; `get` decodes a token with the stored key.  Redis keeps a key for
exactly its lifetime, and one call of `set` happens at one reading of the
clock.
-/

namespace StoreCpp

/-! ## The clock and the signer -/

/-- A reading of the system clock in milliseconds. -/
structure ClockTime where
  ms : ℕ
  inRange : ms < 2 ^ 62

/-- `epochTime * 1000` of the time that is 24 hours ahead. -/
def ClockTime.expire (now : ClockTime) : ℕ := (now.ms / 1000 + 86400) * 1000

/-- The signing half of the library, which may throw, with what is known of
key pairs. -/
structure JwtSigner extends JwtLibrary where
  signingInput : Json → Json → Str
  encode : Token → Option Str
  parse_encode : ∀ {token encStr}, encode token = some encStr →
    parse encStr = some token
  publicKeyOf_ne_nil : ∀ privateKey, publicKeyOf privateKey ≠ []
  publicKeyOf_ne : ∀ privateKey, publicKeyOf privateKey ≠ privateKey

/-! ## The token -/

/-- What the environment gives to one `createJwt`: two random uuids, the uuid
of a name, and the text of a time. -/
structure Generated where
  secret : Str
  sid : Str
  uuidV3 : Str → Str
  timeString : Str
  secret_ne_nil : secret ≠ []

def Generated.sessionId (generated : Generated) : Str :=
  "sess:".toList ++ generated.sid

def createdToken (signer : JwtSigner) (now : ClockTime) (generated : Generated)
    (alg : Algorithm) (privateKey user : Str) : Token :=
  let header : Json := .object [
    ("alg".toList, .string (if alg = .rs256 then "RS256" else "HS256").toList),
    ("sid".toList, .string generated.sessionId),
    ("typ".toList, .string "JWT".toList)]
  let payload : Json := .object [
    ("exp".toList, .unsigned (UInt64.ofNat now.expire)),
    ("exp_ts".toList, .string generated.timeString),
    ("iss".toList, .string "store::web::token".toList),
    ("user".toList, .string user)]
  let input := signer.signingInput header payload
  { alg, header, payload
    signingInput := input
    signature :=
      if alg = .rs256 then .rs256 privateKey input else .hs256 privateKey input }

/-- The algorithm and its key: the request's private key, or a random one. -/
def signingKey (generated : Generated) (privateKey : Str) : Algorithm × Str :=
  if privateKey.length = 0 then (.hs256, generated.secret)
  else (.rs256, privateKey)

/-- The returned text and the request after it; `none` when it throws. -/
def createJwt (signer : JwtSigner) (now : ClockTime) (generated : Generated)
    (j : Json) : Option (Str × Json) := do
  let members ← match j with
    | .null => some []
    | .object members => some members
    | _ => none
  match (Json.lookup "user".toList members).getD .null with
  | .null =>
      return ([], .object (Json.assign "user".toList .null members))
  | user =>
      let given ← (Json.object members).valueString "private_key".toList []
      let (alg, privateKey) := signingKey generated given
      let user ← user.getString
      let described :=
        Json.assign "user_uuid".toList (.string (generated.uuidV3 user))
          (Json.assign "expire_ts".toList (.string generated.timeString)
            (Json.assign "expire".toList
              (.integer (Int64.ofNat now.expire))
              (Json.assign "secret".toList (.string privateKey)
                (Json.assign "sid".toList (.string generated.sessionId)
                  members))))
      let signature ← signer.encode
        (createdToken signer now generated alg privateKey user)
      return (signature,
        .object (Json.assign "signature".toList (.string signature) described))

/-! ## The store -/

structure RedisEntry where
  value : Str
  expiresAt : ℤ

abbrev Redis := Str → Option RedisEntry

/-- `psetex`, which refuses a lifetime that is not positive. -/
def Redis.psetex (redis : Redis) (now : ℤ) (key : Str) (ttl : Int32)
    (value : Str) : Redis :=
  if 0 < ttl.toInt then
    Function.update redis key (some ⟨value, now + ttl.toInt⟩)
  else redis

/-- The text that the callback gets; it is empty when there is no key. -/
def Redis.get (redis : Redis) (now : ℤ) (key : Str) : Str :=
  match redis key with
  | some entry => if now < entry.expiresAt then entry.value else []
  | none => []

namespace RedisSessionStore

/-- `set`; it throws when the request has no text under one of its keys. -/
def set (signer : JwtSigner) (now : ClockTime) (generated : Generated)
    (j : Json) (ttl : Int32) (redis : Redis) : Option (Json × Redis) := do
  let (_, j) ← createJwt signer now generated j
  let sid ← (← j.valueJson "sid".toList .null).getString
  let publicKey ← j.valueString "public_key".toList []
  let secret ← (if 0 < publicKey.length then some publicKey
    else j.valueString "secret".toList [])
  return (j, redis.psetex now.ms sid ttl secret)

/-- What `get` passes to its callback. -/
def get (lib : JwtLibrary) (now : Int64) (redis : Redis) (sid encStr : Str) :
    Str × Option Token :=
  decryptJwt (lib.atTime now) (redis.get now.toInt sid) encStr

end RedisSessionStore

/-! ## Created tokens -/

theorem ClockTime.expire_lt (now : ClockTime) : now.expire < 2 ^ 63 := by
  have hrange := now.inRange
  unfold ClockTime.expire
  omega

theorem getInt64_expire (now : ClockTime) :
    ∃ exp, (Json.unsigned (UInt64.ofNat now.expire)).getInt64 = some exp ∧
      exp.toInt = now.expire := by
  have hlt := now.expire_lt
  refine ⟨(UInt64.ofNat now.expire).toInt64, rfl, ?_⟩
  rw [UInt64.toInt64_ofNat', Int64.toInt_ofNat_of_lt hlt]

section Created

variable {signer : JwtSigner} {now : ClockTime} {generated : Generated}
variable {alg : Algorithm} {key user : Str}

theorem expiredAt_created (seconds : ℤ) :
    (createdToken signer now generated alg key user).expiredAt seconds =
      decide ((now.expire : ℤ) < seconds) := by
  obtain ⟨exp, hexp, hvalue⟩ := getInt64_expire now
  have hlookup : (createdToken signer now generated alg key user).expiredAt
      seconds = (Json.unsigned (UInt64.ofNat now.expire)).getInt64.all
        fun exp => exp.toInt < seconds := rfl
  rw [hlookup, hexp, Option.all_some, hvalue]

theorem tokenExpired_created (check : Int64) :
    tokenExpired check
        (jwtObjectToJson (createdToken signer now generated alg key user)) =
      some (decide ((now.expire : ℤ) < check.toInt)) := by
  obtain ⟨exp, hexp, hvalue⟩ := getInt64_expire now
  have hlookup : tokenExpired check
      (jwtObjectToJson (createdToken signer now generated alg key user)) =
        (Json.unsigned (UInt64.ofNat now.expire)).getInt64.bind
          fun exp => some (decide (exp < check)) := rfl
  rw [hlookup, hexp, Option.bind_some, ← hvalue]
  simp [Int64.lt_iff_toInt_lt]

theorem verify_created {privateKey stored : Str} :
    let signing := signingKey generated privateKey
    let token :=
      createdToken signer now generated signing.1 signing.2 user
    signer.verify stored token token.alg = true ↔
      if privateKey = [] then stored = generated.secret
      else stored = signer.publicKeyOf privateKey := by
  unfold signingKey
  by_cases hprivate : privateKey = []
  · rw [if_pos hprivate, if_pos (List.length_eq_zero_iff.mpr hprivate)]
    simp [createdToken, JwtLibrary.verify, eq_comm]
  · have hlength : privateKey.length ≠ 0 :=
      fun hzero => hprivate (List.length_eq_zero_iff.mp hzero)
    rw [if_neg hprivate, if_neg hlength]
    simp [createdToken, JwtLibrary.verify, eq_comm]

theorem signingKey_alg (privateKey : Str) :
    (signingKey generated privateKey).1 ∈ [Algorithm.hs256, .rs256] := by
  unfold signingKey
  split_ifs <;> simp

end Created

theorem decryptJwt_delivers_iff {lib : JwtLibrary} {key encStr : Str}
    {obj : Token} :
    decryptJwt lib key encStr = ([], some obj) ↔
      lib.parse encStr = some obj ∧ obj.alg ∈ [Algorithm.hs256, .rs256] ∧
        lib.verify key obj obj.alg = true := by
  rcases @decryptJwt_eq lib key encStr with
    ⟨other, hparse, halg, hverify, hdecrypt⟩ | ⟨hreject, hdecrypt⟩
  · rw [hdecrypt, hparse]
    constructor
    · intro heq
      cases heq
      exact ⟨rfl, halg, hverify⟩
    · rintro ⟨heq, _⟩
      cases heq
      rfl
  · rw [hdecrypt]
    constructor
    · intro heq
      simp at heq
    · rintro ⟨hparse, haccept⟩
      exact absurd haccept (hreject obj hparse)

theorem isRS256Authenticated_expired {lib : JwtLibrary} {check : Int64}
    {publicKey encStr : Str} {token : Token} (j : Json)
    (hparse : ∀ obj, lib.parse encStr = some obj → obj = token)
    (hexpired : tokenExpired check (jwtObjectToJson token) = some true) :
    (isRS256Authenticated lib check publicKey encStr j).map Prod.fst =
      some false := by
  unfold isRS256Authenticated
  rcases @decryptJwt_eq lib publicKey encStr with
    ⟨obj, hobj, _, _, hdecrypt⟩ | ⟨_, hdecrypt⟩
  · rw [hdecrypt]
    cases hparse obj hobj
    simp [hexpired]
  · have hwhat : 0 < (lib.what encStr).length :=
      List.length_pos_iff.mpr (lib.what_ne_nil encStr)
    rw [hdecrypt, if_pos hwhat]
    rfl

/-! ## What the two acceptance paths promise -/

/-- After the time in `exp`, neither path accepts the token. -/
def RejectedAfterExp (lib : JwtLibrary) (now : ClockTime) (redis : Redis)
    (sid signature : Str) : Prop :=
  ∀ check : Int64, (now.expire : ℤ) < check.toInt →
    (∀ publicKey j,
      (isRS256Authenticated (lib.atTime check) check publicKey signature
        j).map Prod.fst = some false) ∧
    ∀ obj, RedisSessionStore.get lib check redis sid signature ≠
      ([], some obj)

/-- While its key is alive, the session gives back a token of its user, and
the stored text is not the private key. -/
structure Retrievable (lib : JwtLibrary) (now : ClockTime) (ttl : Int32)
    (redis : Redis) (user privateKey sid signature : Str) : Prop where
  delivered : ∀ check : Int64, (now.ms : ℤ) ≤ check.toInt →
    check.toInt < now.ms + ttl.toInt →
      ∃ obj, RedisSessionStore.get lib check redis sid signature =
          ([], some obj) ∧
        obj.payload.valueString "user".toList [] = some user
  notPrivate : privateKey ≠ [] →
    ∀ entry ∈ redis sid, entry.value ≠ privateKey

/-- The public key of the request goes with its private key, or there is
neither. -/
def KeyPairMatches (signer : JwtSigner) (generated : Generated)
    (privateKey publicKey : Str) : Prop :=
  if privateKey = [] then publicKey = [] ∨ publicKey = generated.secret
  else publicKey = signer.publicKeyOf privateKey

/-! ## Stored sessions -/

def storedKey (generated : Generated) (privateKey publicKey : Str) : Str :=
  if 0 < publicKey.length then publicKey
  else (signingKey generated privateKey).2

/-- The token of a session and the key stored for it, by the two key fields of
the request. -/
structure SessionOf (signer : JwtSigner) (now : ClockTime)
    (generated : Generated) (user privateKey publicKey : Str) (ttl : Int32)
    (redis : Redis) (sid signature : Str) (redis' : Redis) : Prop where
  sid_eq : sid = generated.sessionId
  encoded : signer.encode
    (createdToken signer now generated (signingKey generated privateKey).1
      (signingKey generated privateKey).2 user) = some signature
  redis_eq : redis' = redis.psetex now.ms sid ttl
    (storedKey generated privateKey publicKey)

theorem createJwt_eq_some {signer : JwtSigner} {now : ClockTime}
    {generated : Generated} {members : List (Str × Json)} {user text : Str}
    {j' : Json}
    (huser : Json.lookup "user".toList members = some (.string user))
    (hcreate : createJwt signer now generated (.object members) =
      some (text, j')) :
    ∃ privateKey members', j' = .object members' ∧
      (Json.object members).valueString "private_key".toList [] =
        some privateKey ∧
      signer.encode
        (createdToken signer now generated (signingKey generated privateKey).1
          (signingKey generated privateKey).2 user) = some text ∧
      Json.lookup "sid".toList members' =
        some (.string generated.sessionId) ∧
      Json.lookup "secret".toList members' =
        some (.string (signingKey generated privateKey).2) ∧
      Json.lookup "signature".toList members' = some (.string text) ∧
      Json.lookup "public_key".toList members' =
        Json.lookup "public_key".toList members := by
  simp only [createJwt, huser, Option.bind_eq_bind, Option.pure_def,
    Option.bind_some, Option.getD_some, Json.getString,
    Option.bind_eq_some_iff] at hcreate
  obtain ⟨privateKey, hprivate, signature, hencode, heq⟩ := hcreate
  cases heq
  refine ⟨privateKey, _, rfl, hprivate, hencode, ?_⟩
  simp [Json.lookup_assign]

theorem sessionOf_set {signer : JwtSigner} {now : ClockTime}
    {generated : Generated} {members : List (Str × Json)} {user : Str}
    {ttl : Int32} {redis redis' : Redis} {j' : Json} {sid signature : Str}
    (huser : Json.lookup "user".toList members = some (.string user))
    (hset : RedisSessionStore.set signer now generated (.object members) ttl
      redis = some (j', redis'))
    (hsid : j'.valueString "sid".toList [] = some sid)
    (hsignature : j'.valueString "signature".toList [] = some signature) :
    ∃ privateKey publicKey,
      (Json.object members).valueString "private_key".toList [] =
          some privateKey ∧
      (Json.object members).valueString "public_key".toList [] =
          some publicKey ∧
      SessionOf signer now generated user privateKey publicKey ttl redis sid
        signature redis' := by
  simp only [RedisSessionStore.set, Option.bind_eq_bind, Option.pure_def,
    Option.bind_eq_some_iff] at hset
  obtain ⟨⟨text, j⟩, hcreate, value, hvalue, stored, hstored, publicKey,
    hpublic, secret, hsecret, heq⟩ := hset
  cases heq
  obtain ⟨privateKey, members', rfl, hprivate, hencode, hsidMember,
    hsecretMember, htextMember, hpublicMember⟩ :=
      createJwt_eq_some huser hcreate
  rw [Json.valueString, Json.valueWith, hsidMember] at hsid
  rw [Json.valueString, Json.valueWith, htextMember] at hsignature
  rw [Json.valueJson, Json.valueWith, hsidMember] at hvalue
  cases hsid
  cases hsignature
  cases hvalue
  cases hstored
  refine ⟨privateKey, publicKey, hprivate, ?_, rfl, hencode, ?_⟩
  · rw [← hpublic]
    simp only [Json.valueString, Json.valueWith, hpublicMember]
  · unfold storedKey
    split_ifs at hsecret ⊢ with hlength
    · cases hsecret
      rfl
    · rw [Json.valueString, Json.valueWith, hsecretMember] at hsecret
      cases hsecret
      rfl

section Sessions

variable {signer : JwtSigner} {now : ClockTime} {generated : Generated}
variable {user privateKey publicKey sid signature : Str} {ttl : Int32}
variable {redis redis' : Redis}

theorem storedKey_matches_iff :
    (if privateKey = [] then
        storedKey generated privateKey publicKey = generated.secret
      else storedKey generated privateKey publicKey =
        signer.publicKeyOf privateKey) ↔
      KeyPairMatches signer generated privateKey publicKey := by
  unfold storedKey KeyPairMatches signingKey
  by_cases hprivate : privateKey = []
  · rcases List.eq_nil_or_concat publicKey with hpublic | ⟨_, _, hpublic⟩
    · simp [hprivate, hpublic]
    · simp [hprivate, hpublic]
  · have hne := (signer.publicKeyOf_ne privateKey).symm
    have hnil := (signer.publicKeyOf_ne_nil privateKey).symm
    rcases List.eq_nil_or_concat publicKey with hpublic | ⟨_, _, hpublic⟩
    · simp [hprivate, hpublic, hne, hnil]
    · simp [hprivate, hpublic]

theorem get_redis (hsession : SessionOf signer now generated user privateKey
      publicKey ttl redis sid signature redis')
    (hfresh : redis generated.sessionId = none) (check : ℤ) :
    redis'.get check sid =
      if 0 < ttl.toInt ∧ check < now.ms + ttl.toInt then
        storedKey generated privateKey publicKey
      else [] := by
  rw [hsession.redis_eq, hsession.sid_eq]
  unfold Redis.psetex Redis.get
  by_cases httl : 0 < ttl.toInt
  · simp [httl]
  · simp [httl, hfresh]

theorem get_delivers_iff (hsession : SessionOf signer now generated user
      privateKey publicKey ttl redis sid signature redis')
    (hfresh : redis generated.sessionId = none) (check : Int64)
    (obj : Token) :
    RedisSessionStore.get signer.toJwtLibrary check redis' sid signature =
        ([], some obj) ↔
      obj = createdToken signer now generated
          (signingKey generated privateKey).1
          (signingKey generated privateKey).2 user ∧
        check.toInt / 1000 ≤ now.expire ∧
        (0 < ttl.toInt ∧ check.toInt < now.ms + ttl.toInt) ∧
        KeyPairMatches signer generated privateKey publicKey := by
  have hparse := signer.parse_encode hsession.encoded
  unfold RedisSessionStore.get
  rw [decryptJwt_delivers_iff, atTime_parse, hparse,
    get_redis hsession hfresh]
  constructor
  · rintro ⟨⟨hobj, hfuture⟩, _, hverify⟩
    cases hobj
    rw [expiredAt_created] at hfuture
    have hle : check.toInt / 1000 ≤ now.expire := by simpa using hfuture
    refine ⟨rfl, hle, ?_⟩
    have hstored := verify_created.mp hverify
    by_cases halive : 0 < ttl.toInt ∧ check.toInt < now.ms + ttl.toInt
    · rw [if_pos halive] at hstored
      exact ⟨halive, storedKey_matches_iff.mp hstored⟩
    · rw [if_neg halive] at hstored
      split_ifs at hstored with hnil
      · exact absurd hstored.symm generated.secret_ne_nil
      · exact absurd hstored.symm (signer.publicKeyOf_ne_nil privateKey)
  · rintro ⟨rfl, hle, halive, hmatches⟩
    refine ⟨⟨rfl, ?_⟩, signingKey_alg privateKey, ?_⟩
    · rw [expiredAt_created]
      simpa using hle
    · rw [if_pos halive]
      exact verify_created.mpr (storedKey_matches_iff.mpr hmatches)

theorem parse_atTime_created
    (hsession : SessionOf signer now generated user privateKey publicKey ttl
      redis sid signature redis') (check : Int64) (obj : Token)
    (hobj : (signer.atTime check).parse signature = some obj) :
    obj = createdToken signer now generated
      (signingKey generated privateKey).1
      (signingKey generated privateKey).2 user := by
  have hparse := (atTime_parse.mp hobj).1
  rw [signer.parse_encode hsession.encoded] at hparse
  exact (Option.some.inj hparse).symm

theorem rejectedAfterExp_iff_of_session
    (hsession : SessionOf signer now generated user privateKey publicKey ttl
      redis sid signature redis')
    (hfresh : redis generated.sessionId = none) :
    RejectedAfterExp signer.toJwtLibrary now redis' sid signature ↔
      ¬ KeyPairMatches signer generated privateKey publicKey ∨
        (now.ms : ℤ) + ttl.toInt ≤ now.expire + 1 := by
  have hrange := now.inRange
  have hexpire : (now.expire : ℤ) = (now.ms / 1000 + 86400) * 1000 := by
    simp [ClockTime.expire]
  constructor
  · intro hrejected
    by_contra hcontra
    rw [not_or, not_not, not_le] at hcontra
    obtain ⟨hmatches, hlate⟩ := hcontra
    have hcheck : (Int64.ofNat (now.expire + 1)).toInt = now.expire + 1 := by
      rw [Int64.toInt_ofNat_of_lt (by omega)]
      push_cast
      ring
    obtain ⟨_, hnever⟩ := hrejected (Int64.ofNat (now.expire + 1)) (by omega)
    apply hnever (createdToken signer now generated
      (signingKey generated privateKey).1
      (signingKey generated privateKey).2 user)
    rw [get_delivers_iff hsession hfresh, hcheck]
    exact ⟨rfl, by omega, ⟨by omega, hlate⟩, hmatches⟩
  · intro hcondition check hcheck
    refine ⟨?_, ?_⟩
    · intro publicKey j
      apply isRS256Authenticated_expired j
        (parse_atTime_created hsession check)
      rw [tokenExpired_created]
      simpa using hcheck
    · intro obj hget
      obtain ⟨_, _, halive, hmatches⟩ :=
        (get_delivers_iff hsession hfresh check obj).mp hget
      rcases hcondition with hno | hearly
      · exact hno hmatches
      · omega

theorem user_created (alg : Algorithm) (key : Str) :
    (createdToken signer now generated alg key user).payload.valueString
      "user".toList [] = some user := rfl

/-- Of two keys that belong together neither or both are empty. -/
theorem keyPairMatches_iff (hsecret : publicKey ≠ generated.secret)
    (hpair : privateKey ≠ [] → publicKey ≠ [] →
      publicKey = signer.publicKeyOf privateKey) :
    KeyPairMatches signer generated privateKey publicKey ↔
      (privateKey = [] ↔ publicKey = []) := by
  unfold KeyPairMatches
  by_cases hprivate : privateKey = []
  · simp [hprivate, hsecret]
  · rw [if_neg hprivate]
    have hne := signer.publicKeyOf_ne_nil privateKey
    constructor
    · intro hpublic
      simp [hprivate, hpublic, hne]
    · intro hiff
      exact hpair hprivate fun hnil => hprivate (hiff.mpr hnil)

/-- What the store keeps is not the private key. -/
theorem stored_ne_privateKey
    (hsession : SessionOf signer now generated user privateKey publicKey ttl
      redis sid signature redis')
    (hfresh : redis generated.sessionId = none)
    (hcondition : ttl.toInt ≤ 0 ∨
      KeyPairMatches signer generated privateKey publicKey)
    (hprivate : privateKey ≠ []) : ∀ entry ∈ redis' sid,
      entry.value ≠ privateKey := by
  intro entry hentry
  rw [hsession.redis_eq, hsession.sid_eq, Redis.psetex] at hentry
  split_ifs at hentry with httl
  · have hkey := hcondition.resolve_left (by omega)
    rw [KeyPairMatches, if_neg hprivate] at hkey
    have hlength : 0 < publicKey.length := by
      rw [hkey]
      exact List.length_pos_iff.mpr (signer.publicKeyOf_ne_nil privateKey)
    rw [Function.update_self] at hentry
    cases hentry
    rw [storedKey, if_pos hlength, hkey]
    exact signer.publicKeyOf_ne privateKey
  · rw [hfresh] at hentry
    cases hentry

theorem retrievable_iff_of_session
    (hsession : SessionOf signer now generated user privateKey publicKey ttl
      redis sid signature redis')
    (hfresh : redis generated.sessionId = none)
    (hsecret : publicKey ≠ generated.secret)
    (hpair : privateKey ≠ [] → publicKey ≠ [] →
      publicKey = signer.publicKeyOf privateKey) :
    Retrievable signer.toJwtLibrary now ttl redis' user privateKey sid
        signature ↔
      ttl.toInt ≤ 0 ∨ (privateKey = [] ↔ publicKey = []) := by
  have hrange := now.inRange
  have hexpire : (now.expire : ℤ) = (now.ms / 1000 + 86400) * 1000 := by
    simp [ClockTime.expire]
  rw [← keyPairMatches_iff hsecret hpair]
  constructor
  · intro hretrievable
    rcases le_or_gt ttl.toInt 0 with httl | httl
    · exact Or.inl httl
    · have hcheck : (Int64.ofNat now.ms).toInt = now.ms :=
        Int64.toInt_ofNat_of_lt (by omega)
      obtain ⟨obj, hget, _⟩ :=
        hretrievable.delivered (Int64.ofNat now.ms) (by omega) (by omega)
      exact Or.inr ((get_delivers_iff hsession hfresh _ obj).mp hget).2.2.2
  · intro hcondition
    refine ⟨?_, stored_ne_privateKey hsession hfresh hcondition⟩
    intro check hstored halive
    have httl : 0 < ttl.toInt := by omega
    have hbound := ttl.toInt_lt
    refine ⟨_, (get_delivers_iff hsession hfresh check _).mpr
      ⟨rfl, by omega, ⟨httl, halive⟩, ?_⟩, user_created _ _⟩
    exact hcondition.resolve_left (by omega)

theorem rejectedAfterExp_of_createJwt {members : List (Str × Json)}
    {j' : Json} (huser : Json.lookup "user".toList members = some (.string user))
    (hcreate : createJwt signer now generated (.object members) =
      some (signature, j')) {check : Int64}
    (hcheck : (now.expire : ℤ) < check.toInt) (publicKey : Str) (j : Json) :
    (isRS256Authenticated (signer.atTime check) check publicKey signature
      j).map Prod.fst = some false := by
  obtain ⟨privateKey, _, _, _, hencode, _⟩ :=
    createJwt_eq_some huser hcreate
  apply isRS256Authenticated_expired j ?_ ?_
  · exact createdToken signer now generated
      (signingKey generated privateKey).1
      (signingKey generated privateKey).2 user
  · intro obj hobj
    have hparse := (atTime_parse.mp hobj).1
    rw [signer.parse_encode hencode] at hparse
    exact (Option.some.inj hparse).symm
  · rw [tokenExpired_created]
    simpa using hcheck

variable {members : List (Str × Json)} {j' : Json}

theorem sessionOf_keys
    (huser : Json.lookup "user".toList members = some (.string user))
    (hprivate : (Json.object members).valueString "private_key".toList [] =
      some privateKey)
    (hpublic : (Json.object members).valueString "public_key".toList [] =
      some publicKey)
    (hset : RedisSessionStore.set signer now generated (.object members) ttl
      redis = some (j', redis'))
    (hsid : j'.valueString "sid".toList [] = some sid)
    (hsignature : j'.valueString "signature".toList [] = some signature) :
    SessionOf signer now generated user privateKey publicKey ttl redis sid
      signature redis' := by
  obtain ⟨key, key', hkey, hkey', hsession⟩ :=
    sessionOf_set huser hset hsid hsignature
  cases hprivate.symm.trans hkey
  cases hpublic.symm.trans hkey'
  exact hsession

theorem rejectedAfterExp_iff
    (huser : Json.lookup "user".toList members = some (.string user))
    (hprivate : (Json.object members).valueString "private_key".toList [] =
      some privateKey)
    (hpublic : (Json.object members).valueString "public_key".toList [] =
      some publicKey)
    (hset : RedisSessionStore.set signer now generated (.object members) ttl
      redis = some (j', redis'))
    (hsid : j'.valueString "sid".toList [] = some sid)
    (hsignature : j'.valueString "signature".toList [] = some signature)
    (hfresh : redis generated.sessionId = none) :
    RejectedAfterExp signer.toJwtLibrary now redis' sid signature ↔
      ¬ KeyPairMatches signer generated privateKey publicKey ∨
        (now.ms : ℤ) + ttl.toInt ≤ now.expire + 1 :=
  rejectedAfterExp_iff_of_session
    (sessionOf_keys huser hprivate hpublic hset hsid hsignature) hfresh

theorem retrievable_iff
    (huser : Json.lookup "user".toList members = some (.string user))
    (hprivate : (Json.object members).valueString "private_key".toList [] =
      some privateKey)
    (hpublic : (Json.object members).valueString "public_key".toList [] =
      some publicKey)
    (hset : RedisSessionStore.set signer now generated (.object members) ttl
      redis = some (j', redis'))
    (hsid : j'.valueString "sid".toList [] = some sid)
    (hsignature : j'.valueString "signature".toList [] = some signature)
    (hfresh : redis generated.sessionId = none)
    (hsecret : publicKey ≠ generated.secret)
    (hpair : privateKey ≠ [] → publicKey ≠ [] →
      publicKey = signer.publicKeyOf privateKey) :
    Retrievable signer.toJwtLibrary now ttl redis' user privateKey sid
        signature ↔
      ttl.toInt ≤ 0 ∨ (privateKey = [] ↔ publicKey = []) :=
  retrievable_iff_of_session
    (sessionOf_keys huser hprivate hpublic hset hsid hsignature) hfresh
    hsecret hpair

end Sessions

/-! ## One signer and its sessions -/

def mickeyMembers : List (Str × Json) :=
  [("user".toList, .string "mickey".toList)]

def mickeyGenerated : Generated where
  secret := "3f1c".toList
  sid := "9ab0".toList
  uuidV3 _ := "77d2".toList
  timeString := "1970-01-02 00:00:00".toList
  secret_ne_nil := by decide

def mickeyTexts : List Str := [
  "alg".toList, "HS256".toList, "sid".toList, "sess:9ab0".toList,
  "typ".toList, "JWT".toList, "exp".toList, "exp_ts".toList,
  "1970-01-02 00:00:00".toList, "iss".toList, "store::web::token".toList,
  "user".toList, "mickey".toList, "input".toList, "3f1c".toList,
  "input".toList]

def mickeyToken : Token where
  alg := .hs256
  header := .object [
    ("alg".toList, .string "HS256".toList),
    ("sid".toList, .string "sess:9ab0".toList),
    ("typ".toList, .string "JWT".toList)]
  payload := .object [
    ("exp".toList, .unsigned 86400000),
    ("exp_ts".toList, .string "1970-01-02 00:00:00".toList),
    ("iss".toList, .string "store::web::token".toList),
    ("user".toList, .string "mickey".toList)]
  signingInput := "input".toList
  signature := .hs256 "3f1c".toList "input".toList

theorem verificationFailed_ne_nil (_ : Str) :
    "signature verification failed".toList ≠ [] := by decide

/-- A signer that knows how to encode one token. -/
def mickeySigner : JwtSigner where
  publicKeyOf privateKey := privateKey ++ ".pub".toList
  parse encStr :=
    if encStr = "header.payload.mac".toList then some mickeyToken else none
  what _ := "signature verification failed".toList
  what_ne_nil := verificationFailed_ne_nil
  signingInput _ _ := "input".toList
  encode
    | ⟨.hs256, .object [(k₁, .string v₁), (k₂, .string v₂), (k₃, .string v₃)],
        .object [(p₁, .unsigned exp), (p₂, .string q₂), (p₃, .string q₃),
          (p₄, .string q₄)], input, .hs256 key signed⟩ =>
        if [k₁, v₁, k₂, v₂, k₃, v₃, p₁, p₂, q₂, p₃, q₃, p₄, q₄, input, key,
            signed] = mickeyTexts ∧ exp = 86400000 then
          some "header.payload.mac".toList
        else none
    | _ => none
  parse_encode := by
    intro token encStr hencode
    split at hencode
    · split_ifs at hencode with htoken
      obtain ⟨htexts, rfl⟩ := htoken
      cases htexts
      cases hencode
      rfl
    · cases hencode
  publicKeyOf_ne_nil := by simp
  publicKeyOf_ne := by simp

def firstSecond : ClockTime where
  ms := 999
  inRange := by decide

def mickeySession (members : List (Str × Json)) (ttl : Int32) :
    Option (Json × Redis) :=
  RedisSessionStore.set mickeySigner firstSecond mickeyGenerated
    (.object members) ttl fun _ => none

theorem mickeySession_rejectedAfterExp :
    ∃ j' redis', mickeySession mickeyMembers 1000 = some (j', redis') ∧
      RejectedAfterExp mickeySigner.toJwtLibrary firstSecond redis'
        mickeyGenerated.sessionId "header.payload.mac".toList := by
  have hset : mickeySession mickeyMembers 1000 = some (_, _) := rfl
  refine ⟨_, _, hset, ?_⟩
  exact (rejectedAfterExp_iff rfl rfl rfl hset rfl rfl rfl).mpr
    (Or.inr (by decide))

/-- With the default lifetime the key outlives the token by 999 ms. -/
theorem mickeySession_accepted_after_exp :
    ¬ ∀ (ttl : Int32) (j' : Json) (redis' : Redis),
      mickeySession mickeyMembers ttl = some (j', redis') →
        RejectedAfterExp mickeySigner.toJwtLibrary firstSecond redis'
          mickeyGenerated.sessionId "header.payload.mac".toList := by
  intro hclaim
  have hset : mickeySession mickeyMembers 86400000 = some (_, _) := rfl
  obtain ⟨_, hnever⟩ := hclaim 86400000 _ _ hset 86400001 (by decide)
  exact hnever mickeyToken rfl

theorem mickeySession_retrievable :
    ∃ j' redis', mickeySession mickeyMembers 1000 = some (j', redis') ∧
      Retrievable mickeySigner.toJwtLibrary firstSecond 1000 redis'
        "mickey".toList [] mickeyGenerated.sessionId
        "header.payload.mac".toList := by
  have hset : mickeySession mickeyMembers 1000 = some (_, _) := rfl
  have hpublic : (Json.object mickeyMembers).valueString
      "public_key".toList [] = some [] := rfl
  refine ⟨_, _, hset, ?_⟩
  exact (retrievable_iff rfl rfl hpublic hset rfl rfl rfl (by decide)
    (fun hne => absurd rfl hne)).mpr (Or.inr (iff_of_true rfl rfl))

/-- The request has a public key and no private key: the token is signed with
a random secret, and the public key is stored. -/
theorem mickeySession_not_retrievable :
    ¬ ∀ (members : List (Str × Json)) (user privateKey publicKey : Str)
      (j' : Json) (redis' : Redis),
      Json.lookup "user".toList members = some (.string user) →
      (Json.object members).valueString "private_key".toList [] =
        some privateKey →
      (Json.object members).valueString "public_key".toList [] =
        some publicKey →
      (privateKey ≠ [] → publicKey ≠ [] →
        publicKey = mickeySigner.publicKeyOf privateKey) →
      mickeySession members 1000 = some (j', redis') →
        Retrievable mickeySigner.toJwtLibrary firstSecond 1000 redis' user
          privateKey mickeyGenerated.sessionId
          "header.payload.mac".toList := by
  intro hclaim
  have hset : mickeySession
      (("public_key".toList, .string "pem".toList) :: mickeyMembers) 1000 =
        some (_, _) := rfl
  have hretrievable := hclaim _ _ _ _ _ _ rfl rfl rfl
    (fun hne => absurd rfl hne) hset
  obtain ⟨obj, hget, _⟩ :=
    hretrievable.delivered 999 (by decide) (by decide)
  cases hget

end StoreCpp
