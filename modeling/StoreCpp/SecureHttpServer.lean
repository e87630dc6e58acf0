import StoreCpp.SecureWsServer

/-!
# The HTTP server with secured routes

`RS256SecureServer::ProcessRequest` answers a CORS preflight, hands the request
to the first unsecured route that matches, and otherwise asks for a token
before it tries the secured routes.
-/

namespace StoreCpp

inductive Method where
  | get
  | post
  | head
  | put
  | delete
  | options
  deriving DecidableEq

structure HttpRequest where
  command : Method
  uri : Str
  inputHeaders : List (Str × Str)

/-- `evhttp_find_header`, which does not tell upper from lower case. -/
def HttpRequest.findHeader (req : HttpRequest) (key : Str) : Option Str :=
  (req.inputHeaders.find? fun header =>
    header.1.map Char.toLower = key.map Char.toLower).map Prod.snd

/-- A map from patterns to handlers, in its order. -/
structure RouteTable (η : Type) where
  routes : List (Str × η)
  ordered : routes.Pairwise fun a b => a.1 < b.1

/-- What is done with a request; a handler of an unsecured route is a `θ`, one
of a secured route an `η`. -/
inductive Action (θ η : Type) where
  | sendReply (headers : List (Str × Str)) (code : ℕ) (reason : Str)
  | sendError (code : ℕ) (reason : Option Str)
  | unsecureRoute (handler : θ) (segments : List Str)
  | route (handler : η) (segments : List Str) (sess : WebSession)
  deriving DecidableEq

/-- What has been done when the call ends, and whether an exception ended it. -/
structure Processed (θ η : Type) where
  actions : List (Action θ η)
  thrown : Bool
  deriving DecidableEq

/-- The server with its two tables; `regexSearch uri pattern` gives the texts
of a match. -/
structure RS256SecureServer (θ η : Type) where
  setup : ServerSetup
  regexSearch : Str → Str → Option (List Str)
  routes : RouteTable η
  unsecureRoutes : RouteTable θ

def preflightHeaders (origin : Option Str) : List (Str × Str) := [
  ("Access-Control-Allow-Origin".toList, origin.getD "null".toList),
  ("Vary".toList, "origin".toList),
  ("Access-Control-Allow-Credentials".toList, "true".toList),
  ("Access-Control-Allow-Methods".toList, "POST, GET, OPTIONS".toList),
  ("Access-Control-Allow-Headers".toList,
    "Origin, Accept, Content-Type, x-access-token".toList),
  ("Access-Control-Max-Age".toList, "86400".toList)]

/-- The loop over a table, which ends at the first match. -/
def matchRoutes {α ρ : Type} (search : Str → Option (List Str))
    (call : ρ → List Str → α) : List (Str × ρ) → Bool × List α
  | [] => (false, [])
  | a :: rest =>
      match search a.1 with
      | some segments => (true, [call a.2 segments])
      | none => matchRoutes search call rest

namespace RS256SecureServer

variable {θ η : Type}

def authenticated (server : RS256SecureServer θ η) (now : Int64)
    (req : HttpRequest) : Option (Bool × Json) :=
  isAuthenticated (server.setup.lib.atTime now) now server.setup.publicKey
    (req.findHeader "x-access-token".toList) (server.setup.parseQuery req.uri)
    .null

/-- `tryMatchUri(req, j)`; the session is converted before the loop. -/
def tryMatchUri (server : RS256SecureServer θ η) (req : HttpRequest)
    (j : Json) : Option (Bool × List (Action θ η)) :=
  (WebSession.fromJson j {}).map fun sess =>
    matchRoutes (server.regexSearch req.uri)
      (fun handler segments => .route handler segments sess)
      server.routes.routes

/-- `tryMatchUri(req)`. -/
def tryMatchUnsecureUri (server : RS256SecureServer θ η) (req : HttpRequest) :
    Bool × List (Action θ η) :=
  matchRoutes (server.regexSearch req.uri) .unsecureRoute
    server.unsecureRoutes.routes

def processRequest (server : RS256SecureServer θ η) (now : Int64)
    (req : HttpRequest) : Processed θ η :=
  if req.command = .options then
    ⟨[.sendReply (preflightHeaders (req.findHeader "Origin".toList)) 200
      "OK".toList], false⟩
  else
    let (uriMatched, handled) := server.tryMatchUnsecureUri req
    if uriMatched then ⟨handled, false⟩
    else
      match server.authenticated now req with
      | none => ⟨handled, true⟩
      | some (false, _) => ⟨handled ++ [.sendError 401 none], false⟩
      | some (true, j) =>
          match server.tryMatchUri req j with
          | none => ⟨handled, true⟩
          | some (true, secured) => ⟨handled ++ secured, false⟩
          | some (false, secured) =>
              ⟨handled ++ secured ++
                [.sendError 404 (some "Not Found".toList)], false⟩

end RS256SecureServer

/-! ## What it is for -/

namespace RouteTable

variable {η : Type}

/-- The handler of the first pattern of the map that matches. -/
def FirstMatch (table : RouteTable η) (search : Str → Option (List Str))
    (handler : η) (segments : List Str) : Prop :=
  ∃ pattern, (pattern, handler) ∈ table.routes ∧
    search pattern = some segments ∧
    ∀ route ∈ table.routes, route.1 < pattern → search route.1 = none

def NoMatch (table : RouteTable η) (search : Str → Option (List Str)) : Prop :=
  ∀ route ∈ table.routes, search route.1 = none

end RouteTable

namespace RS256SecureServer

variable {θ η : Type}

/-- The token in the header, or a token that is not empty in the query string
of a request without that header. -/
def presentedToken (server : RS256SecureServer θ η) (req : HttpRequest) :
    Option Str :=
  match req.findHeader "x-access-token".toList with
  | some token => some token
  | none =>
      ((server.setup.parseQuery req.uri).lookup
        "x-access-token".toList).filter (· ≠ [])

/-- The token of the request verifies and has not expired. -/
def VerifiedToken (server : RS256SecureServer θ η) (now : Int64)
    (req : HttpRequest) (obj : Token) : Prop :=
  ∃ token ∈ server.presentedToken req,
    decryptJwt (server.setup.lib.atTime now) server.setup.publicKey token =
        ([], some obj) ∧
      tokenExpired now (jwtObjectToJson obj) = some false

/-- The session of a token. -/
structure CarriesToken (sess : WebSession) (obj : Token) : Prop where
  valid : sess.isValid = true
  sid : obj.header.valueString "sid".toList [] = some sess.sid
  user : obj.payload.valueString "user".toList [] = some sess.user
  expTs : obj.payload.valueString "exp_ts".toList [] = some sess.expTs

/-- A verified token of which no session can be made. -/
def NoSession (obj : Token) : Prop :=
  obj.header.valueString "sid".toList [] = none ∨
    obj.payload.valueString "user".toList [] = none ∨
    obj.payload.valueString "exp_ts".toList [] = none

/-- A request that needs a token. -/
structure NeedsToken (server : RS256SecureServer θ η) (req : HttpRequest) :
    Prop where
  notOptions : req.command ≠ .options
  notUnsecured :
    server.unsecureRoutes.NoMatch (server.regexSearch req.uri)

/-- The five answers, each with the requests that get it. -/
inductive Answers (server : RS256SecureServer θ η) (now : Int64)
    (req : HttpRequest) : Action θ η → Prop
  | preflight (hoptions : req.command = .options) :
      Answers server now req (.sendReply
        (preflightHeaders (req.findHeader "Origin".toList)) 200 "OK".toList)
  | unsecured {handler : θ} {segments : List Str}
      (hmethod : req.command ≠ .options)
      (hfirst : server.unsecureRoutes.FirstMatch
        (server.regexSearch req.uri) handler segments) :
      Answers server now req (.unsecureRoute handler segments)
  | unauthorized (hneeds : server.NeedsToken req)
      (hnone : ∀ obj, ¬ server.VerifiedToken now req obj) :
      Answers server now req (.sendError 401 none)
  | secured {handler : η} {segments : List Str} {sess : WebSession}
      {obj : Token} (hneeds : server.NeedsToken req)
      (hauthenticated : server.authenticated now req =
        some (true, jwtObjectToJson obj))
      (hverified : server.VerifiedToken now req obj)
      (hfirst : server.routes.FirstMatch
        (server.regexSearch req.uri) handler segments)
      (hsess : CarriesToken sess obj) :
      Answers server now req (.route handler segments sess)
  | notFound {obj : Token} (hneeds : server.NeedsToken req)
      (hverified : server.VerifiedToken now req obj)
      (hsession : ¬ NoSession obj)
      (hroutes : server.routes.NoMatch (server.regexSearch req.uri)) :
      Answers server now req (.sendError 404 (some "Not Found".toList))

end RS256SecureServer

/-- Every token that the library decodes has an object as its header and as
its payload. -/
def JwtLibrary.DecodesObjects (lib : JwtLibrary) : Prop :=
  ∀ encStr obj, lib.parse encStr = some obj →
    obj.header.isObject = true ∧ obj.payload.isObject = true

/-! ## Routes -/

theorem RouteTable.first_of_cons {ρ : Type} {a : Str × ρ}
    {rest : List (Str × ρ)}
    (hordered : (a :: rest).Pairwise fun a b => a.1 < b.1) :
    ∀ route ∈ rest, ¬ route.1 < a.1 := by
  intro route hroute hless
  have hafter := (List.pairwise_cons.mp hordered).1 route hroute
  exact lt_asymm hless hafter

theorem matchRoutes_cases {α ρ : Type} (search : Str → Option (List Str))
    (call : ρ → List Str → α) {routes : List (Str × ρ)}
    (hordered : routes.Pairwise fun a b => a.1 < b.1) :
    (∃ pattern handler segments, (pattern, handler) ∈ routes ∧
        search pattern = some segments ∧
        (∀ route ∈ routes, route.1 < pattern → search route.1 = none) ∧
        matchRoutes search call routes = (true, [call handler segments])) ∨
      (∀ route ∈ routes, search route.1 = none) ∧
        matchRoutes search call routes = (false, []) := by
  induction routes with
  | nil => exact Or.inr ⟨by simp, rfl⟩
  | cons a rest ih =>
      have hrest := (List.pairwise_cons.mp hordered).2
      have hfirst := RouteTable.first_of_cons hordered
      rw [matchRoutes]
      cases hsearch : search a.1 with
      | some segments =>
          refine Or.inl ⟨a.1, a.2, segments, List.mem_cons_self, hsearch, ?_,
            rfl⟩
          intro route hroute hless
          rcases List.mem_cons.mp hroute with rfl | hroute
          · exact absurd hless (lt_irrefl _)
          · exact absurd hless (hfirst route hroute)
      | none =>
          rcases ih hrest with
            ⟨pattern, handler, segments, hmem, hmatch, hbefore, heq⟩ |
              ⟨hnone, heq⟩
          · refine Or.inl ⟨pattern, handler, segments,
              List.mem_cons_of_mem _ hmem, hmatch, ?_, heq⟩
            intro route hroute hless
            rcases List.mem_cons.mp hroute with rfl | hroute
            · exact hsearch
            · exact hbefore route hroute hless
          · refine Or.inr ⟨?_, heq⟩
            intro route hroute
            rcases List.mem_cons.mp hroute with rfl | hroute
            · exact hsearch
            · exact hnone route hroute

/-! ## Sessions -/

theorem fromJson_token_cases {obj : Token}
    (hheader : obj.header.isObject = true)
    (hpayload : obj.payload.isObject = true) :
    (∃ sess, WebSession.fromJson (jwtObjectToJson obj) {} = some sess ∧
        RS256SecureServer.CarriesToken sess obj) ∨
      WebSession.fromJson (jwtObjectToJson obj) {} = none ∧
        RS256SecureServer.NoSession obj := by
  rw [fromJson_token_eq hheader hpayload]
  unfold RS256SecureServer.NoSession
  cases hsid : obj.header.valueString "sid".toList [] with
  | none => exact Or.inr ⟨rfl, Or.inl rfl⟩
  | some sid =>
      cases huser : obj.payload.valueString "user".toList [] with
      | none => exact Or.inr ⟨rfl, Or.inr (Or.inl rfl)⟩
      | some user =>
          cases hexp : obj.payload.valueString "exp_ts".toList [] with
          | none => exact Or.inr ⟨rfl, Or.inr (Or.inr rfl)⟩
          | some expTs => exact Or.inl ⟨_, rfl, rfl, hsid, huser, hexp⟩

/-! ## Tokens -/

theorem getInt64_of_not_expired {obj : Token} {seconds : ℤ}
    {members : List (Str × Json)} {exp : Json}
    (hpayload : obj.payload = .object members)
    (hexp : Json.lookup "exp".toList members = some exp)
    (halive : ¬ obj.expiredAt seconds) : ∃ value, exp.getInt64 = some value := by
  unfold Token.expiredAt at halive
  rw [hpayload] at halive
  dsimp only at halive
  rw [hexp] at halive
  dsimp only at halive
  cases hvalue : exp.getInt64 with
  | none =>
      rw [hvalue] at halive
      exact absurd rfl halive
  | some value => exact ⟨value, rfl⟩

/-- A token that the library lets pass has no claim `exp` that throws. -/
theorem tokenExpired_isSome {obj : Token} (now : Int64) {seconds : ℤ}
    (hpayload : obj.payload.isObject = true)
    (halive : ¬ obj.expiredAt seconds) :
    ∃ expired, tokenExpired now (jwtObjectToJson obj) = some expired := by
  obtain ⟨members, hmembers⟩ := Json.isObject_iff.mp hpayload
  have hvalue : (jwtObjectToJson obj).valueJson "payload".toList .null =
      some obj.payload := rfl
  rw [tokenExpired, hvalue, Option.bind_eq_bind, Option.bind_some, hmembers]
  dsimp only
  cases hexp : Json.lookup "exp".toList members with
  | none => exact ⟨_, rfl⟩
  | some exp =>
      obtain ⟨value, hint⟩ := getInt64_of_not_expired hmembers hexp halive
      cases exp with
      | null => cases hint
      | _ =>
          rw [Option.getD_some]
          dsimp only
          rw [hint]
          exact ⟨_, rfl⟩

namespace RS256SecureServer

variable {θ η : Type} {server : RS256SecureServer θ η} {now : Int64}
  {req : HttpRequest}

theorem isRS256Authenticated_cases {lib : JwtLibrary}
    (hobjects : lib.DecodesObjects) (now : Int64) (publicKey token : Str) :
    (∃ obj, decryptJwt (lib.atTime now) publicKey token = ([], some obj) ∧
        obj.header.isObject = true ∧ obj.payload.isObject = true ∧
        tokenExpired now (jwtObjectToJson obj) = some false ∧
        isRS256Authenticated (lib.atTime now) now publicKey token .null =
          some (true, jwtObjectToJson obj)) ∨
      (∀ obj, decryptJwt (lib.atTime now) publicKey token = ([], some obj) →
          tokenExpired now (jwtObjectToJson obj) ≠ some false) ∧
        ∃ j, isRS256Authenticated (lib.atTime now) now publicKey token .null =
          some (false, j) := by
  rcases @decryptJwt_eq (lib.atTime now) publicKey token with
    ⟨obj, hparse, _, _, hdecrypt⟩ | ⟨_, hdecrypt⟩
  · obtain ⟨hlib, halive⟩ := atTime_parse.mp hparse
    obtain ⟨hheader, hpayload⟩ := hobjects token obj hlib
    obtain ⟨expired, hexpired⟩ := tokenExpired_isSome now hpayload
      (by rw [halive]; exact Bool.false_ne_true)
    have hresult : isRS256Authenticated (lib.atTime now) now publicKey token
        .null = some (!expired, jwtObjectToJson obj) := by
      unfold isRS256Authenticated
      rw [hdecrypt]
      simp only [List.length_nil, lt_irrefl, if_false, Option.bind_eq_bind,
        Option.bind_some, hexpired]
      cases expired <;> rfl
    cases expired with
    | false =>
        exact Or.inl ⟨obj, hdecrypt, hheader, hpayload, hexpired, hresult⟩
    | true =>
        refine Or.inr ⟨?_, _, hresult⟩
        intro other hother
        rw [hdecrypt] at hother
        cases hother
        rw [hexpired]
        simp
  · have hwhat : 0 < ((lib.atTime now).what token).length :=
      List.length_pos_iff.mpr ((lib.atTime now).what_ne_nil token)
    refine Or.inr ⟨?_, .null, ?_⟩
    · intro other hother
      rw [hdecrypt] at hother
      exact absurd (congrArg Prod.snd hother) (by simp)
    · unfold isRS256Authenticated
      rw [hdecrypt]
      exact if_pos hwhat

theorem authenticated_eq (server : RS256SecureServer θ η) (now : Int64)
    (req : HttpRequest) :
    server.authenticated now req =
      match server.presentedToken req with
      | some token =>
          isRS256Authenticated (server.setup.lib.atTime now) now
            server.setup.publicKey token .null
      | none => some (false, .null) := by
  unfold authenticated isAuthenticated presentedToken
  cases req.findHeader "x-access-token".toList with
  | some token => rfl
  | none =>
      cases (server.setup.parseQuery req.uri).lookup
        "x-access-token".toList with
      | none => rfl
      | some token =>
          cases token with
          | nil => rfl
          | cons c token => rfl

theorem authenticated_cases (hobjects : server.setup.lib.DecodesObjects)
    (now : Int64) (req : HttpRequest) :
    (∃ obj, server.VerifiedToken now req obj ∧
        obj.header.isObject = true ∧ obj.payload.isObject = true ∧
        server.authenticated now req = some (true, jwtObjectToJson obj)) ∨
      (∀ obj, ¬ server.VerifiedToken now req obj) ∧
        ∃ j, server.authenticated now req = some (false, j) := by
  rw [authenticated_eq]
  unfold VerifiedToken
  cases server.presentedToken req with
  | none => exact Or.inr ⟨by simp, .null, rfl⟩
  | some token =>
      rcases isRS256Authenticated_cases hobjects now server.setup.publicKey
        token with
        ⟨obj, hdecrypt, hheader, hpayload, halive, hresult⟩ | ⟨hnone, hresult⟩
      · exact Or.inl ⟨obj, ⟨token, rfl, hdecrypt, halive⟩, hheader, hpayload,
          hresult⟩
      · refine Or.inr ⟨?_, hresult⟩
        intro obj ⟨other, hother, hdecrypt, halive⟩
        cases hother
        exact hnone obj hdecrypt halive

theorem tryMatchUnsecureUri_cases (server : RS256SecureServer θ η)
    (req : HttpRequest) :
    (∃ handler segments, server.unsecureRoutes.FirstMatch
        (server.regexSearch req.uri) handler segments ∧
        server.tryMatchUnsecureUri req =
          (true, [.unsecureRoute handler segments])) ∨
      server.unsecureRoutes.NoMatch (server.regexSearch req.uri) ∧
        server.tryMatchUnsecureUri req = (false, []) := by
  rcases matchRoutes_cases (server.regexSearch req.uri)
    (@Action.unsecureRoute θ η) server.unsecureRoutes.ordered with
    ⟨pattern, handler, segments, hmem, hmatch, hbefore, heq⟩ | ⟨hnone, heq⟩
  · exact Or.inl ⟨handler, segments, ⟨pattern, hmem, hmatch, hbefore⟩, heq⟩
  · exact Or.inr ⟨hnone, heq⟩

theorem CarriesToken.not_noSession {sess : WebSession} {obj : Token}
    (hcarries : CarriesToken sess obj) : ¬ NoSession obj := by
  rintro (hsid | huser | hexpTs)
  · cases hsid.symm.trans hcarries.sid
  · cases huser.symm.trans hcarries.user
  · cases hexpTs.symm.trans hcarries.expTs

theorem tryMatchUri_cases (server : RS256SecureServer θ η) (req : HttpRequest)
    {obj : Token} (hheader : obj.header.isObject = true)
    (hpayload : obj.payload.isObject = true) :
    (∃ handler segments sess, server.routes.FirstMatch
        (server.regexSearch req.uri) handler segments ∧
        CarriesToken sess obj ∧
        server.tryMatchUri req (jwtObjectToJson obj) =
          some (true, [.route handler segments sess])) ∨
      ¬ NoSession obj ∧
        server.routes.NoMatch (server.regexSearch req.uri) ∧
        server.tryMatchUri req (jwtObjectToJson obj) = some (false, []) ∨
      NoSession obj ∧
        server.tryMatchUri req (jwtObjectToJson obj) = none := by
  unfold tryMatchUri
  rcases fromJson_token_cases hheader hpayload with
    ⟨sess, hsess, hcarries⟩ | ⟨hnone, hmissing⟩
  · rw [hsess, Option.map_some]
    rcases matchRoutes_cases (server.regexSearch req.uri)
      (fun handler segments => @Action.route θ η handler segments sess)
        server.routes.ordered with
      ⟨pattern, handler, segments, hmem, hmatch, hbefore, heq⟩ | ⟨hnone, heq⟩
    · exact Or.inl ⟨handler, segments, sess, ⟨pattern, hmem, hmatch, hbefore⟩,
        hcarries, congrArg some heq⟩
    · exact Or.inr (Or.inl ⟨hcarries.not_noSession, hnone,
        congrArg some heq⟩)
  · rw [hnone]
    exact Or.inr (Or.inr ⟨hmissing, rfl⟩)

/-- Every request gets exactly one of the five answers, unless it brings a
verified token of which no session can be made: then an exception leaves the
call before anything has been done. -/
theorem processRequest_answers (hobjects : server.setup.lib.DecodesObjects)
    (now : Int64) (req : HttpRequest) :
    (∃ action, server.processRequest now req = ⟨[action], false⟩ ∧
        server.Answers now req action) ∨
      server.processRequest now req = ⟨[], true⟩ ∧ server.NeedsToken req ∧
        ∃ obj, server.VerifiedToken now req obj ∧ NoSession obj := by
  unfold processRequest
  by_cases hoptions : req.command = .options
  · rw [if_pos hoptions]
    exact Or.inl ⟨_, rfl, .preflight hoptions⟩
  rw [if_neg hoptions]
  rcases server.tryMatchUnsecureUri_cases req with
    ⟨handler, segments, hfirst, hmatch⟩ | ⟨hnone, hmatch⟩
  · rw [hmatch]
    exact Or.inl ⟨_, rfl, .unsecured hoptions hfirst⟩
  have hneeds : server.NeedsToken req := ⟨hoptions, hnone⟩
  rw [hmatch]
  dsimp only
  rw [if_neg Bool.false_ne_true]
  rcases authenticated_cases hobjects now req with
    ⟨obj, hverified, hheader, hpayload, hresult⟩ | ⟨hunverified, j, hresult⟩
  · rw [hresult]
    dsimp only
    rcases server.tryMatchUri_cases req hheader hpayload with
      ⟨handler, segments, sess, hfirst, hcarries, hroute⟩ |
        ⟨hsession, hroutes, hroute⟩ | ⟨hmissing, hroute⟩
    · rw [hroute]
      exact Or.inl ⟨_, rfl, .secured hneeds hresult hverified hfirst hcarries⟩
    · rw [hroute]
      exact Or.inl ⟨_, rfl, .notFound hneeds hverified hsession hroutes⟩
    · rw [hroute]
      exact Or.inr ⟨rfl, hneeds, obj, hverified, hmissing⟩
  · rw [hresult]
    exact Or.inl ⟨_, rfl, .unauthorized hneeds hunverified⟩

end RS256SecureServer

def sessionRoute : RouteTable Unit where
  routes := [("^/api/session".toList, ())]
  ordered := by decide

def noRoutes : RouteTable Unit where
  routes := []
  ordered := List.Pairwise.nil

/-- A server with one secured route, which every request matches. -/
def sessionServer (token : Token) : RS256SecureServer Unit Unit where
  setup := {
    lib := {
      publicKeyOf := yodaSetup.lib.publicKeyOf
      parse := fun encStr =>
        if encStr = "a.b.c".toList then some token else none
      what := yodaSetup.lib.what
      what_ne_nil := yodaSetup.lib.what_ne_nil }
    publicKey := yodaSetup.publicKey
    parseQuery := fun _ => [] }
  regexSearch uri _ := some [uri]
  routes := sessionRoute
  unsecureRoutes := noRoutes

def sessionRequest : HttpRequest where
  command := .get
  uri := "/api/session".toList
  inputHeaders := [("X-Access-Token".toList, "a.b.c".toList)]

theorem sessionServer_decodesObjects {token : Token}
    (hheader : token.header.isObject = true)
    (hpayload : token.payload.isObject = true) :
    (sessionServer token).setup.lib.DecodesObjects := by
  intro encStr obj hparse
  have htoken : (if encStr = "a.b.c".toList then some token else none) =
      some obj := hparse
  split_ifs at htoken
  cases htoken
  exact ⟨hheader, hpayload⟩

def yodaSession : WebSession where
  sid := "sess:1".toList
  user := "yoda".toList
  isValid := true

theorem yodaRequest_answers :
    (sessionServer yodaToken).processRequest 1735689600000 sessionRequest =
        ⟨[.route () ["/api/session".toList] yodaSession], false⟩ ∧
      (sessionServer yodaToken).Answers 1735689600000 sessionRequest
        (.route () ["/api/session".toList] yodaSession) := by
  have hrun : (sessionServer yodaToken).processRequest 1735689600000
      sessionRequest =
        ⟨[.route () ["/api/session".toList] yodaSession], false⟩ := by
    decide +kernel
  rcases RS256SecureServer.processRequest_answers
    (@sessionServer_decodesObjects yodaToken rfl rfl) 1735689600000
      sessionRequest with
    ⟨action, hperformed, hanswers⟩ | ⟨hthrown, _⟩
  · rw [hrun] at hperformed
    cases hperformed
    exact ⟨hrun, hanswers⟩
  · rw [hrun] at hthrown
    cases hthrown

/-- A token whose session id is a number. -/
def numberedToken : Token where
  alg := .rs256
  header := .object [
    ("alg".toList, .string "RS256".toList),
    ("sid".toList, .unsigned 5)]
  payload := yodaToken.payload
  signingInput := yodaToken.signingInput
  signature := yodaToken.signature

theorem numberedToken_not_answered :
    ¬ ∀ (server : RS256SecureServer Unit Unit) (now : Int64)
        (req : HttpRequest), server.setup.lib.DecodesObjects →
      ∃ action, server.processRequest now req = ⟨[action], false⟩ := by
  intro hclaim
  have hthrown : (sessionServer numberedToken).processRequest 1735689600000
      sessionRequest = ⟨[], true⟩ := by
    decide +kernel
  obtain ⟨action, hanswered⟩ := hclaim (sessionServer numberedToken)
    1735689600000 sessionRequest
      (@sessionServer_decodesObjects numberedToken rfl rfl)
  rw [hthrown] at hanswered
  cases hanswered

end StoreCpp
