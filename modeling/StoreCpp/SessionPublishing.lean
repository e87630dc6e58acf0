import StoreCpp.SecureHttpServer
import StoreCpp.SessionStore

/-!
# From a request to the browsers of its session

A handler of the HTTP server publishes to the session of its request, Redis
hands the message to the subscriber of `sess:*`, and the websocket server
sends it to the users of the session.  Both servers take one key pair from the
service provider, and a token is made with its private key.
-/

namespace StoreCpp

/-- Both servers, which share the setup, and the key pair behind it. -/
structure SessionServers (θ η : Type) where
  http : RS256SecureServer θ η
  signer : JwtSigner
  privateKey : Str
  privateKey_ne_nil : privateKey ≠ []
  lib_eq : http.setup.lib = signer.toJwtLibrary
  publicKey_eq : http.setup.publicKey = signer.publicKeyOf privateKey

/-- A call of `createJwt` that returned. -/
structure Login (signer : JwtSigner) (privateKey : Str) where
  now : ClockTime
  generated : Generated
  members : List (Str × Json)
  user : Str
  text : Str
  after : Json
  user_eq : Json.lookup "user".toList members = some (.string user)
  privateKey_eq : (Json.object members).valueString "private_key".toList [] =
    some privateKey
  created : createJwt signer now generated (.object members) =
    some (text, after)

/-- `publish` of the HTTP server, as the websocket server sees it. -/
def RS256SecureRedisServer.publish {ι : Type} (sessionId message : Str) :
    ServerEvent ι :=
  .publish sessionId message

namespace Login

variable {signer : JwtSigner} {privateKey : Str}

def sid (login : Login signer privateKey) : Str := login.generated.sessionId

def token (login : Login signer privateKey) : Token :=
  createdToken signer login.now login.generated
    (signingKey login.generated privateKey).1
    (signingKey login.generated privateKey).2 login.user

theorem parse_text (login : Login signer privateKey) :
    signer.parse login.text = some login.token := by
  obtain ⟨key, _, _, hkey, hencoded, _⟩ :=
    createJwt_eq_some login.user_eq login.created
  cases login.privateKey_eq.symm.trans hkey
  exact signer.parse_encode hencoded

theorem verify_token (login : Login signer privateKey)
    (hprivate : privateKey ≠ []) :
    signer.verify (signer.publicKeyOf privateKey) login.token
      login.token.alg = true := by
  refine verify_created.mpr ?_
  rw [if_neg hprivate]

/-- The token is accepted as long as it has not expired. -/
theorem accepted_text (login : Login signer privateKey)
    (hprivate : privateKey ≠ []) {check : Int64}
    (halive : check.toInt ≤ login.now.expire) (j : Json) :
    isRS256Authenticated (signer.atTime check) check
        (signer.publicKeyOf privateKey) login.text j =
      some (true, jwtObjectToJson login.token) := by
  have hseconds : login.token.expiredAt (check.toInt / 1000) = false := by
    refine (expiredAt_created _).trans (decide_eq_false ?_)
    omega
  have hparse := atTime_parse.mpr ⟨login.parse_text, hseconds⟩
  have hdecrypt := decryptJwt_delivers_iff.mpr ⟨hparse,
    signingKey_alg privateKey, login.verify_token hprivate⟩
  have hexpired : tokenExpired check (jwtObjectToJson login.token) =
      some false := by
    refine (tokenExpired_created check).trans ?_
    rw [decide_eq_false (by omega)]
  unfold isRS256Authenticated
  rw [hdecrypt]
  simp [hexpired]

theorem rejected_text (login : Login signer privateKey) {check : Int64}
    (hexpired : login.now.expire < check.toInt) (publicKey : Str) (j : Json) :
    (isRS256Authenticated (signer.atTime check) check publicKey login.text
      j).map Prod.fst = some false :=
  rejectedAfterExp_of_createJwt login.user_eq login.created hexpired
    publicKey j

theorem headerSid_token (login : Login signer privateKey) :
    headerSid (jwtObjectToJson login.token) = some login.sid := rfl

/-- Every session id is a channel that the websocket server subscribes to. -/
theorem sid_isChannel (login : Login signer privateKey) :
    "sess:".toList.isPrefixOf login.sid = true :=
  List.isPrefixOf_iff_prefix.mpr ⟨login.generated.sid, rfl⟩

end Login

namespace SessionServers

variable {θ η : Type} {servers : SessionServers θ η}
variable {login : Login servers.signer servers.privateKey}

/-- The request brings the token of the login to a secured route. -/
structure Brings (servers : SessionServers θ η)
    (login : Login servers.signer servers.privateKey) (req : HttpRequest) :
    Prop where
  presented : servers.http.presentedToken req = some login.text
  needs : servers.http.NeedsToken req
  matched : ¬ servers.http.routes.NoMatch (servers.http.regexSearch req.uri)

/-- The user has made its handshake with the token of the login, in time. -/
def JoinedWith {ι : Type} (servers : SessionServers θ η)
    (state : ServerState ι) (u : ι)
    (login : Login servers.signer servers.privateKey) : Prop :=
  ∃ user wsReqStr clock,
    state.connection u = some ⟨user, some ⟨wsReqStr, clock⟩⟩ ∧
    servers.http.setup.handshakeToken wsReqStr = some login.text ∧
    clock.now.toInt ≤ login.now.expire

theorem authenticated_eq {req : HttpRequest} (check : Int64)
    (hpresented : servers.http.presentedToken req = some login.text) :
    servers.http.authenticated check req =
      isRS256Authenticated (servers.signer.atTime check) check
        (servers.signer.publicKeyOf servers.privateKey) login.text .null := by
  rw [servers.http.authenticated_eq, hpresented, servers.lib_eq,
    servers.publicKey_eq]

theorem tryMatchUnsecureUri_eq {req : HttpRequest}
    (hneeds : servers.http.NeedsToken req) :
    servers.http.tryMatchUnsecureUri req = (false, []) := by
  rcases servers.http.tryMatchUnsecureUri_cases req with
    ⟨_, _, ⟨pattern, hmem, hsearch, _⟩, _⟩ | ⟨_, hmatch⟩
  · rw [hneeds.notUnsecured _ hmem] at hsearch
    cases hsearch
  · exact hmatch

theorem processRequest_alive {req : HttpRequest} {check : Int64}
    (hbrings : servers.Brings login req)
    (halive : check.toInt ≤ login.now.expire) :
    ∃ handler segments sess,
      servers.http.processRequest check req =
        ⟨[.route handler segments sess], false⟩ ∧
      servers.http.routes.FirstMatch (servers.http.regexSearch req.uri)
        handler segments ∧
      sess.sid = login.sid ∧ sess.user = login.user := by
  have haccepted := login.accepted_text servers.privateKey_ne_nil halive .null
  have hauthenticated := (authenticated_eq check hbrings.presented).trans
    haccepted
  have hunsecure := tryMatchUnsecureUri_eq hbrings.needs
  unfold RS256SecureServer.processRequest
  rw [if_neg hbrings.needs.notOptions, hunsecure, hauthenticated]
  dsimp only
  rw [if_neg Bool.false_ne_true]
  rcases @RS256SecureServer.tryMatchUri_cases _ _ servers.http req login.token
    rfl rfl with
    ⟨handler, segments, sess, hfirst, hcarries, hroute⟩ | ⟨_, hnone, _⟩ |
      ⟨hmissing, _⟩
  · rw [hroute]
    refine ⟨handler, segments, sess, rfl, hfirst, ?_, ?_⟩
    · exact Option.some.inj hcarries.sid.symm
    · exact Option.some.inj hcarries.user.symm
  · exact absurd hnone hbrings.matched
  · rcases hmissing with hsid | huser | hexpTs
    · cases hsid
    · cases huser
    · cases hexpTs

theorem processRequest_expired {req : HttpRequest} {check : Int64}
    (hbrings : servers.Brings login req)
    (hexpired : login.now.expire < check.toInt) :
    servers.http.processRequest check req =
      ⟨[.sendError 401 none], false⟩ := by
  have hrejected := login.rejected_text hexpired
    (servers.signer.publicKeyOf servers.privateKey) .null
  rw [← authenticated_eq check hbrings.presented] at hrejected
  obtain ⟨⟨_, j⟩, hauthenticated, hfalse⟩ :=
    Option.map_eq_some_iff.mp hrejected
  cases hfalse
  have hunsecure := tryMatchUnsecureUri_eq hbrings.needs
  unfold RS256SecureServer.processRequest
  rw [if_neg hbrings.needs.notOptions, hunsecure, hauthenticated]
  rfl

section Users

variable {ι : Type} [DecidableEq ι] {state : ServerState ι}

omit [DecidableEq ι] in
theorem acceptedToken_joined {u : ι}
    (hjoined : servers.JoinedWith state u login) :
    state.acceptedToken servers.http.setup u =
      some (jwtObjectToJson login.token) := by
  obtain ⟨user, wsReqStr, clock, hu, htoken, halive⟩ := hjoined
  unfold ServerState.acceptedToken Connection.acceptedToken
  rw [hu]
  change servers.http.setup.acceptedToken ⟨wsReqStr, clock⟩ = _
  unfold ServerSetup.acceptedToken
  rw [htoken, Option.bind_some, servers.lib_eq, servers.publicKey_eq]
  dsimp only
  rw [login.accepted_text servers.privateKey_ne_nil halive]

/-- A handler that publishes to the session of its request reaches exactly the
users of that session, each once; after its expiry the token reaches no
handler. -/
theorem published_reachesSession
    (hreach : (redisWsServer ι servers.http.setup).Reachable state)
    {req : HttpRequest} (hbrings : servers.Brings login req)
    (check : Int64) (message : Str) :
    (login.now.expire < check.toInt →
      servers.http.processRequest check req =
        ⟨[.sendError 401 none], false⟩) ∧
    (check.toInt ≤ login.now.expire →
      ∃ handler segments sess, ∃ users : List ι,
      servers.http.processRequest check req =
        ⟨[.route handler segments sess], false⟩ ∧
      servers.http.routes.FirstMatch (servers.http.regexSearch req.uri)
        handler segments ∧
      sess.user = login.user ∧
      state.perform servers.http.setup
          (RS256SecureRedisServer.publish sess.sid message) =
        some (state, users.map fun u => .sendFrame u message) ∧
      users.Nodup ∧
      (∀ u, u ∈ users ↔
        state.Subscribed servers.http.setup login.sid u) ∧
      ∀ u (other : Login servers.signer servers.privateKey),
        servers.JoinedWith state u other →
          (u ∈ users ↔ other.sid = login.sid)) := by
  refine ⟨processRequest_expired hbrings, fun halive => ?_⟩
  obtain ⟨handler, segments, sess, hprocess, hfirst, hsid, huser⟩ :=
    processRequest_alive hbrings halive
  have hchannel := login.sid_isChannel
  have hne : login.sid ≠ [] := by
    intro hnil
    rw [hnil] at hchannel
    cases hchannel
  obtain ⟨users, hnodup, hbroadcast, hmem⟩ :=
    (ServerState.Consistent.of_reachable hreach).publications hne message
  refine ⟨handler, segments, sess, users, hprocess, hfirst, huser, ?_,
    hnodup, hmem, ?_⟩
  · rw [hsid, ← hbroadcast]
    change (if "sess:".toList.isPrefixOf login.sid = true then
      some (state, state.broadcast login.sid message) else none) = _
    rw [if_pos hchannel]
  · intro u other hjoined
    have htoken := acceptedToken_joined hjoined
    rw [hmem]
    constructor
    · rintro ⟨j, hj, hheader⟩
      cases htoken.symm.trans hj
      exact Option.some.inj (other.headerSid_token.symm.trans hheader)
    · intro heq
      rw [← heq]
      exact ⟨_, htoken, other.headerSid_token⟩

end Users

end SessionServers

def yodaGenerated : Generated where
  secret := "9a27".toList
  sid := "1".toList
  uuidV3 _ := "77d2".toList
  timeString := "1970-01-02 00:00:00".toList
  secret_ne_nil := by decide

def yodaTexts : List Str := [
  "alg".toList, "RS256".toList, "sid".toList, "sess:1".toList,
  "typ".toList, "JWT".toList, "exp".toList, "exp_ts".toList,
  "1970-01-02 00:00:00".toList, "iss".toList, "store::web::token".toList,
  "user".toList, "yoda".toList, "input".toList, "key".toList,
  "input".toList]

def yodaLoginToken : Token where
  alg := .rs256
  header := .object [
    ("alg".toList, .string "RS256".toList),
    ("sid".toList, .string "sess:1".toList),
    ("typ".toList, .string "JWT".toList)]
  payload := .object [
    ("exp".toList, .unsigned 86400000),
    ("exp_ts".toList, .string "1970-01-02 00:00:00".toList),
    ("iss".toList, .string "store::web::token".toList),
    ("user".toList, .string "yoda".toList)]
  signingInput := "input".toList
  signature := .rs256 "key".toList "input".toList

/-- A signer that knows how to encode one token of the key pair. -/
def yodaSigner : JwtSigner where
  publicKeyOf privateKey := privateKey ++ ".pem".toList
  parse encStr :=
    if encStr = "a.b.c".toList then some yodaLoginToken else none
  what _ := "signature verification failed".toList
  what_ne_nil := verificationFailed_ne_nil
  signingInput _ _ := "input".toList
  encode
    | ⟨.rs256, .object [(k₁, .string v₁), (k₂, .string v₂), (k₃, .string v₃)],
        .object [(p₁, .unsigned exp), (p₂, .string q₂), (p₃, .string q₃),
          (p₄, .string q₄)], input, .rs256 key signed⟩ =>
        if [k₁, v₁, k₂, v₂, k₃, v₃, p₁, p₂, q₂, p₃, q₃, p₄, q₄, input, key,
            signed] = yodaTexts ∧ exp = 86400000 then
          some "a.b.c".toList
        else none
    | _ => none
  parse_encode := by
    intro token encStr hencode
    split at hencode
    · split_ifs at hencode with htoken
      obtain ⟨htexts, rfl⟩ := htoken
      cases htexts
      cases hencode
      rfl
    · cases hencode
  publicKeyOf_ne_nil := by simp
  publicKeyOf_ne := by simp

def yodaServers : SessionServers Unit Unit where
  http := {
    setup := {
      lib := yodaSigner.toJwtLibrary
      publicKey := "key.pem".toList
      parseQuery := yodaSetup.parseQuery }
    regexSearch uri _ := some [uri]
    routes := sessionRoute
    unsecureRoutes := noRoutes }
  signer := yodaSigner
  privateKey := "key".toList
  privateKey_ne_nil := by decide
  lib_eq := rfl
  publicKey_eq := rfl

def yodaLogin : Login yodaServers.signer yodaServers.privateKey where
  now := firstSecond
  generated := yodaGenerated
  members := [
    ("private_key".toList, .string "key".toList),
    ("user".toList, .string "yoda".toList)]
  user := "yoda".toList
  text := "a.b.c".toList
  after := _
  user_eq := rfl
  privateKey_eq := rfl
  created := rfl

/-- One user joins with the token, the other without. -/
def oneJoined : List (ServerEvent Bool) := [
  .listen true,
  .handshake true "GET /?x-access-token=a.b.c HTTP/1.1".toList
    ⟨5000, by decide⟩,
  .listen false,
  .handshake false "GET / HTTP/1.1".toList ⟨5000, by decide⟩]

theorem yodaLogin_published :
    ∃ state handler segments sess, ∃ users : List Bool,
      (redisWsServer Bool yodaServers.http.setup).Reachable state ∧
      yodaServers.http.processRequest 6000 sessionRequest =
        ⟨[.route handler segments sess], false⟩ ∧
      state.perform yodaServers.http.setup
          (RS256SecureRedisServer.publish sess.sid "news".toList) =
        some (state, users.map fun u => .sendFrame u "news".toList) ∧
      true ∈ users := by
  have hrun : ((redisWsServer Bool yodaServers.http.setup).run emptyServer
      oneJoined).isSome = true := rfl
  obtain ⟨state, hstate⟩ := Option.isSome_iff_exists.mp hrun
  have hreach : (redisWsServer Bool yodaServers.http.setup).Reachable state :=
    ⟨emptyServer, oneJoined, ⟨rfl, fun _ => rfl⟩, hstate⟩
  have hbrings : yodaServers.Brings yodaLogin sessionRequest := by
    refine ⟨rfl, ⟨by decide, ?_⟩, ?_⟩
    · intro route hroute
      cases hroute
    · intro hnone
      cases hnone _ List.mem_cons_self
  obtain ⟨handler, segments, sess, users, hprocess, _, _, hperform, _, _,
    hjoined⟩ := (SessionServers.published_reachesSession hreach hbrings 6000
      "news".toList).2 (by decide)
  refine ⟨state, handler, segments, sess, users, hreach, hprocess, hperform,
    ?_⟩
  refine (hjoined true yodaLogin ?_).mpr rfl
  cases hstate
  exact ⟨_, _, _, rfl, rfl, by decide⟩

end StoreCpp
