import StoreCpp.WebToken
import StoreCpp.StepMachine

/-!
# The websocket server with RS256 sessions

The server authenticates a user by the token in the query string of the
handshake request, hands messages of valid users to `onMessageReceived` and
sends a publication on a Redis channel to the users whose session id is the
channel.  The library runs one callback at a time, performs one handshake per
connection before its frames, and calls nothing of a user after it was
destroyed; a user is its pointer, which a later connection may get again.
-/

namespace StoreCpp

open Printf StepMachine

structure WebSession where
  sid : Str := []
  expTs : Str := []
  user : Str := []
  isValid : Bool := false
  deriving DecidableEq

def Json.find (key : Str) : Json → Option Json
  | .object members => lookup key members
  | _ => none

/-- `from_json` for a session; `none` when a conversion throws. -/
def WebSession.fromJson (j : Json) (p : WebSession) : Option WebSession := do
  let p ← (
    if (j.find "sid".toList).isSome ∧ (j.find "exp_ts".toList).isSome ∧
        (j.find "user".toList).isSome then do
      let sid ← j.valueString "sid".toList []
      let user ← j.valueString "user".toList []
      let expTs ← j.valueString "exp_ts".toList []
      return { p with sid, user, expTs }
    else some p)
  match j.find "header".toList, j.find "payload".toList with
  | some (.object header), some (.object payload) =>
      let sid ← (Json.object header).valueString "sid".toList []
      let user ← (Json.object payload).valueString "user".toList []
      let expTs ← (Json.object payload).valueString "exp_ts".toList []
      return { sid, user, expTs, isValid := true }
  | _, _ => return p

structure WebRequest where
  method : Str := []
  path : Str := []
  httpVersion : Str := []

structure User where
  msg : Str := []
  req : WebRequest := {}
  sess : WebSession := {}

/-- The texts before the blanks of the request; what follows the last blank
is dropped. -/
def splitRequest (buf : Str) (v : List Str) : Str → List Str
  | [] => v
  | c :: rest =>
      if c ≠ ' ' then splitRequest (buf ++ [c]) v rest
      else splitRequest [] (v ++ [buf]) rest

def parseWebRequestLine (req : Str) (user : User) : User :=
  if req.length = 0 then user
  else
    let v := splitRequest [] [] req
    { user with
      req := {
        method := v[0]?.getD user.req.method
        path := v[1]?.getD user.req.path
        httpVersion := v[2]?.getD user.req.httpVersion } }

/-- A reading of the clock after the epoch, in milliseconds. -/
structure WallClock where
  now : Int64
  afterEpoch : 0 < now

/-- The server's public key, the JWT library and `evhttp_parse_query`. -/
structure ServerSetup where
  lib : JwtLibrary
  publicKey : Str
  parseQuery : Str → List (Str × Str)

def ServerSetup.parseQuerystringForAuthentication (setup : ServerSetup)
    (clock : WallClock) (path : Str) (j : Json) : Option (Bool × Json) :=
  RS256SecureWsServer.parseQuerystringForAuthentication
    (setup.lib.atTime clock.now) clock.now setup.publicKey
    (setup.parseQuery (cstr path)) j

def Json.isObject : Json → Bool
  | .object _ => true
  | _ => false

/-- `handshake_cb_handler`; `none` when an exception leaves it. -/
def ServerSetup.handshake (setup : ServerSetup) (clock : WallClock)
    (wsReqStr : Str) (user : User) : Option User := do
  let user := parseWebRequestLine wsReqStr user
  let (tokenIsValid, j) ←
    setup.parseQuerystringForAuthentication clock user.req.path .null
  if ¬ tokenIsValid ∨
      ¬ ((j.find "header".toList).any Json.isObject) ∨
      ¬ ((j.find "payload".toList).any Json.isObject) then
    return user
  else
    let thisSess ← WebSession.fromJson j {}
    return { user with sess := thisSess }

/-! ## The server's runs -/

/-- What a handshake was: its request text and its time. -/
structure Handshake where
  wsReqStr : Str
  clock : WallClock

/-- A live user, with the handshake that it has made. -/
structure Connection where
  user : User := {}
  handshake : Option Handshake := none

/-- The first token in the query string of the handshake request. -/
def ServerSetup.handshakeToken (setup : ServerSetup) (wsReqStr : Str) :
    Option Str :=
  let path := (parseWebRequestLine wsReqStr {}).req.path
  (setup.parseQuery (cstr path)).lookup "x-access-token".toList

/-- The decoded token of a handshake that `isRS256Authenticated` accepted. -/
def ServerSetup.acceptedToken (setup : ServerSetup) (handshake : Handshake) :
    Option Json :=
  (setup.handshakeToken handshake.wsReqStr).bind fun token =>
    let now := handshake.clock.now
    match isRS256Authenticated (setup.lib.atTime now) now setup.publicKey
        token .null with
    | some (true, j) => some j
    | _ => none

def Connection.acceptedToken (setup : ServerSetup) (connection : Connection) :
    Option Json :=
  connection.handshake.bind setup.acceptedToken

def headerSid (j : Json) : Option Str :=
  ((j.find "header".toList).bind (Json.find "sid".toList)).bind Json.getString

structure ServerState (ι : Type) where
  userVec : List ι
  connection : ι → Option Connection

inductive ServerEvent (ι : Type) where
  | listen (u : ι)
  | handshake (u : ι) (wsReqStr : Str) (clock : WallClock)
  | frameRecv (u : ι) (payload : Str) (fin : Bool)
  | frameWrite (u : ι)
  | close (u : ι)
  | publish (chan msg : Str)

inductive Output (ι : Type) where
  | onMessageReceived (u : ι) (message : Str)
  | sendFrame (u : ι) (payload : Str)
  deriving DecidableEq

section Runs

variable {ι : Type} [DecidableEq ι]

namespace ServerState

def set (state : ServerState ι) (u : ι) (connection : Connection) :
    ServerState ι :=
  { state with
    connection := Function.update state.connection u (some connection) }

def userDisconnect (state : ServerState ι) (u : ι) : ServerState ι where
  userVec := state.userVec.erase u
  connection := Function.update state.connection u none

/-- `frame_recv_cb_handler`. -/
def frameRecv (state : ServerState ι) (u : ι) (connection : Connection)
    (payload : Str) (fin : Bool) : ServerState ι × List (Output ι) :=
  let user := connection.user
  if ¬ user.sess.isValid then
    (state, [.sendFrame u "Unauthorized".toList])
  else
    let msg := if 0 < payload.length then user.msg ++ payload else user.msg
    if fin then
      (state.set u { connection with user := { user with msg := [] } },
        [.onMessageReceived u msg])
    else (state.set u { connection with user := { user with msg } }, [])

/-- `broadcast`. -/
def broadcast (state : ServerState ι) (chan msg : Str) : List (Output ι) :=
  (state.userVec.filter fun u =>
    (state.connection u).any fun connection =>
      connection.user.sess.sid = chan).map fun u => .sendFrame u msg

/-- The state after an event and what it makes the server do; `none` when the
library does not produce the event, or an exception ends the process. -/
def perform (setup : ServerSetup) (state : ServerState ι) :
    ServerEvent ι → Option (ServerState ι × List (Output ι))
  | .listen u =>
      match state.connection u with
      | none =>
          let listening := state.set u {}
          some ({ listening with userVec := state.userVec ++ [u] }, [])
      | some _ => none
  | .handshake u wsReqStr clock =>
      match state.connection u with
      | some ⟨user, none⟩ =>
          (setup.handshake clock wsReqStr user).map fun user =>
            (state.set u ⟨user, some ⟨wsReqStr, clock⟩⟩, [])
      | _ => none
  | .frameRecv u payload fin =>
      match state.connection u with
      | some ⟨user, some handshake⟩ =>
          some (state.frameRecv u ⟨user, some handshake⟩ payload fin)
      | _ => none
  | .frameWrite u =>
      (state.connection u).map fun connection =>
        if ¬ connection.user.sess.isValid then (state.userDisconnect u, [])
        else (state, [])
  | .close u =>
      (state.connection u).map fun _ => (state.userDisconnect u, [])
  | .publish chan msg =>
      if "sess:".toList.isPrefixOf chan then
        some (state, state.broadcast chan msg)
      else none

def acceptedToken (setup : ServerSetup) (state : ServerState ι) (u : ι) :
    Option Json :=
  (state.connection u).bind (Connection.acceptedToken setup)

end ServerState

def redisWsServer (ι : Type) [DecidableEq ι] (setup : ServerSetup) :
    Machine (ServerState ι) (ServerEvent ι) where
  init state := state.userVec = [] ∧ ∀ u, state.connection u = none
  step state event := (state.perform setup event).map Prod.fst

end Runs

/-! ## Handshakes -/

theorem Json.isObject_iff {j : Json} :
    j.isObject = true ↔ ∃ members, j = .object members := by
  cases j <;> simp [Json.isObject]

theorem Json.find_eq_none {j : Json} {key : Str} (hj : j.isObject = false) :
    j.find key = none := by
  cases j with
  | object members => cases hj
  | _ => rfl

theorem parseQuerystringForAuthentication_eq (lib : JwtLibrary) (now : Int64)
    (publicKey : Str) (headers : List (Str × Str)) (j : Json) :
    RS256SecureWsServer.parseQuerystringForAuthentication lib now publicKey
        headers j =
      match headers.lookup "x-access-token".toList with
      | some val => isRS256Authenticated lib now publicKey val j
      | none => some (false, j) := by
  induction headers with
  | nil => rfl
  | cons header rest ih =>
      obtain ⟨key, val⟩ := header
      rw [RS256SecureWsServer.parseQuerystringForAuthentication, ih,
        List.lookup_cons]
      by_cases hkey : key = "x-access-token".toList
      · rw [if_pos hkey, hkey]
        simp
      · have hbeq : ("x-access-token".toList == key) = false := by
          simpa using fun heq => hkey heq.symm
        rw [if_neg hkey, hbeq]

theorem isRS256Authenticated_true {lib : JwtLibrary} {now : Int64}
    {publicKey token : Str} {j j' : Json}
    (haccepted : isRS256Authenticated lib now publicKey token j =
      some (true, j')) :
    ∃ obj, j' = jwtObjectToJson obj ∧
      tokenExpired now (jwtObjectToJson obj) = some false := by
  unfold isRS256Authenticated at haccepted
  dsimp only at haccepted
  split_ifs at haccepted with herror
  · cases haccepted
  · obtain ⟨obj, _, hexpired⟩ := Option.bind_eq_some_iff.mp haccepted
    obtain ⟨expired, htoken, hresult⟩ := Option.bind_eq_some_iff.mp hexpired
    cases expired with
    | true => cases hresult
    | false =>
        cases hresult
        exact ⟨obj, rfl, htoken⟩

theorem find_header (obj : Token) :
    (jwtObjectToJson obj).find "header".toList = some obj.header := rfl

theorem find_payload (obj : Token) :
    (jwtObjectToJson obj).find "payload".toList = some obj.payload := rfl

theorem payload_isObject {obj : Token} (clock : WallClock)
    (hexpired : tokenExpired clock.now (jwtObjectToJson obj) = some false) :
    ∃ members, obj.payload = .object members := by
  have hpayload : (jwtObjectToJson obj).valueJson "payload".toList .null =
      some obj.payload := rfl
  have hclock := clock.afterEpoch
  rw [tokenExpired, hpayload] at hexpired
  cases hobj : obj.payload with
  | object members => exact ⟨members, rfl⟩
  | null => simp [hobj, hclock] at hexpired
  | boolean value => simp [hobj] at hexpired
  | integer value => simp [hobj] at hexpired
  | unsigned value => simp [hobj] at hexpired
  | float bits => simp [hobj] at hexpired
  | string text => simp [hobj] at hexpired
  | array values => simp [hobj] at hexpired

theorem fromJson_token_eq {obj : Token} (hheader : obj.header.isObject = true)
    (hpayload : obj.payload.isObject = true) :
    WebSession.fromJson (jwtObjectToJson obj) {} = do
      let sid ← obj.header.valueString "sid".toList []
      let user ← obj.payload.valueString "user".toList []
      let expTs ← obj.payload.valueString "exp_ts".toList []
      return { sid, user, expTs, isValid := true } := by
  obtain ⟨header, hheader⟩ := Json.isObject_iff.mp hheader
  obtain ⟨payload, hpayload⟩ := Json.isObject_iff.mp hpayload
  have hflat : ((jwtObjectToJson obj).find "sid".toList).isSome = false := rfl
  rw [WebSession.fromJson, hflat, find_header, find_payload, hheader,
    hpayload]
  rfl

theorem fromJson_token {obj : Token} {header payload : List (Str × Json)}
    {s : WebSession} (hheader : obj.header = .object header)
    (hpayload : obj.payload = .object payload)
    (hsession : WebSession.fromJson (jwtObjectToJson obj) {} = some s) :
    s.isValid = true ∧
      (Json.object header).valueString "sid".toList [] = some s.sid := by
  rw [fromJson_token_eq (Json.isObject_iff.mpr ⟨header, hheader⟩)
    (Json.isObject_iff.mpr ⟨payload, hpayload⟩), hheader] at hsession
  obtain ⟨sid, hsid, hsession⟩ := Option.bind_eq_some_iff.mp hsession
  obtain ⟨user, _, hsession⟩ := Option.bind_eq_some_iff.mp hsession
  obtain ⟨expTs, _, hresult⟩ := Option.bind_eq_some_iff.mp hsession
  cases hresult
  exact ⟨rfl, hsid⟩

theorem valueString_sid_iff {header : List (Str × Json)} {sid chan : Str}
    (hsid : (Json.object header).valueString "sid".toList [] = some sid)
    (hchan : chan ≠ []) :
    sid = chan ↔
      (Json.lookup "sid".toList header).bind Json.getString = some chan := by
  rw [Json.valueString, Json.valueWith] at hsid
  cases hlookup : Json.lookup "sid".toList header with
  | none =>
      rw [hlookup] at hsid
      cases hsid
      simp [hchan.symm]
  | some value =>
      rw [hlookup] at hsid
      simp [hsid]

/-- What a session says about the handshake that it comes from. -/
structure Connection.Sound (setup : ServerSetup) (connection : Connection) :
    Prop where
  fresh : connection.handshake = none → connection.user = {}
  valid : connection.user.sess.isValid = true →
    ∃ j, connection.acceptedToken setup = some j
  sid : ∀ chan, chan ≠ [] → (connection.user.sess.sid = chan ↔
    ∃ j, connection.acceptedToken setup = some j ∧ headerSid j = some chan)

theorem Connection.sound_listen (setup : ServerSetup) :
    Connection.Sound setup {} where
  fresh _ := rfl
  valid hvalid := by cases hvalid
  sid := by
    intro chan hchan
    simp [Connection.acceptedToken, hchan.symm]

/-- The session depends only on the handshake, so a new message buffer keeps
what it says. -/
theorem Connection.Sound.setMsg {setup : ServerSetup} {user : User}
    {handshake : Handshake}
    (hsound : Connection.Sound setup ⟨user, some handshake⟩) (msg : Str) :
    Connection.Sound setup ⟨{ user with msg }, some handshake⟩ where
  fresh hnone := by cases hnone
  valid := hsound.valid
  sid := hsound.sid

theorem acceptedToken_eq {setup : ServerSetup} {clock : WallClock}
    {wsReqStr : Str} {tokenIsValid : Bool} {j : Json}
    (hparse : setup.parseQuerystringForAuthentication clock
      (parseWebRequestLine wsReqStr {}).req.path .null =
        some (tokenIsValid, j)) :
    setup.acceptedToken ⟨wsReqStr, clock⟩ =
      if tokenIsValid then some j else none := by
  unfold ServerSetup.parseQuerystringForAuthentication at hparse
  rw [parseQuerystringForAuthentication_eq] at hparse
  unfold ServerSetup.acceptedToken ServerSetup.handshakeToken
  dsimp only
  cases htoken : List.lookup "x-access-token".toList
      (setup.parseQuery (cstr (parseWebRequestLine wsReqStr {}).req.path)) with
  | none =>
      rw [htoken] at hparse
      cases hparse
      rfl
  | some token =>
      rw [htoken] at hparse
      dsimp only at hparse
      rw [Option.bind_some, hparse]
      cases tokenIsValid <;> rfl

theorem acceptedToken_obj {setup : ServerSetup} {handshake : Handshake}
    {j : Json} (haccepted : setup.acceptedToken handshake = some j) :
    ∃ obj payload, j = jwtObjectToJson obj ∧
      obj.payload = .object payload := by
  obtain ⟨token, _, hmatch⟩ := Option.bind_eq_some_iff.mp haccepted
  dsimp only at hmatch
  split at hmatch
  · rename_i j' hauthenticated
    cases hmatch
    obtain ⟨obj, hobj, hexpired⟩ := isRS256Authenticated_true hauthenticated
    obtain ⟨payload, hpayload⟩ := payload_isObject handshake.clock hexpired
    exact ⟨obj, payload, hobj, hpayload⟩
  · cases hmatch

/-- A handshake that sets no session is sound when no accepted token has a
session id. -/
theorem Connection.sound_of_noSession {setup : ServerSetup} {user : User}
    {handshake : Handshake} (hsession : user.sess = {})
    (hnone : ∀ j, setup.acceptedToken handshake = some j →
      headerSid j = none) :
    Connection.Sound setup ⟨user, some handshake⟩ where
  fresh hfresh := by cases hfresh
  valid hvalid := by
    rw [hsession] at hvalid
    cases hvalid
  sid := by
    intro chan hchan
    rw [hsession]
    refine iff_of_false (fun heq => hchan heq.symm) ?_
    rintro ⟨j, haccepted, hsid⟩
    rw [hnone j haccepted] at hsid
    cases hsid

theorem Connection.sound_of_fromJson {setup : ServerSetup} {user : User}
    {handshake : Handshake} {j : Json} {header : List (Str × Json)}
    (haccepted : setup.acceptedToken handshake = some j)
    (hheader : j.find "header".toList = some (.object header))
    (hsession : WebSession.fromJson j {} = some user.sess) :
    Connection.Sound setup ⟨user, some handshake⟩ := by
  obtain ⟨obj, payload, rfl, hpayload⟩ := acceptedToken_obj haccepted
  rw [find_header] at hheader
  obtain ⟨_, hsid⟩ :=
    fromJson_token (Option.some.inj hheader) hpayload hsession
  constructor
  · intro hfresh
    cases hfresh
  · intro _
    exact ⟨_, haccepted⟩
  · intro chan hchan
    rw [valueString_sid_iff hsid hchan]
    have hheaderSid : headerSid (jwtObjectToJson obj) =
        (Json.lookup "sid".toList header).bind Json.getString := by
      rw [headerSid, find_header, Option.some.inj hheader]
      rfl
    rw [← hheaderSid]
    constructor
    · intro heq
      exact ⟨_, haccepted, heq⟩
    · rintro ⟨j, hj, heq⟩
      cases haccepted.symm.trans hj
      exact heq

theorem parseWebRequestLine_sess (req : Str) (user : User) :
    (parseWebRequestLine req user).sess = user.sess := by
  unfold parseWebRequestLine
  split_ifs <;> rfl

theorem Connection.sound_handshake {setup : ServerSetup} {clock : WallClock}
    {wsReqStr : Str} {user : User}
    (hhandshake : setup.handshake clock wsReqStr {} = some user) :
    Connection.Sound setup ⟨user, some ⟨wsReqStr, clock⟩⟩ := by
  have hdefault := parseWebRequestLine_sess wsReqStr {}
  obtain ⟨⟨tokenIsValid, j⟩, hparse, hsession⟩ :=
    Option.bind_eq_some_iff.mp hhandshake
  have haccepted := acceptedToken_eq hparse
  dsimp only at hsession
  split_ifs at hsession with hinvalid
  · cases hsession
    apply Connection.sound_of_noSession hdefault
    intro j' hj'
    rw [haccepted] at hj'
    split_ifs at hj' with hvalid
    cases hj'
    obtain ⟨obj, payload, rfl, hpayload⟩ := acceptedToken_obj
      (haccepted.trans (if_pos hvalid))
    rw [find_header, find_payload, hpayload] at hinvalid
    have hheader : obj.header.isObject = false := by
      simpa [hvalid, Json.isObject] using hinvalid
    rw [headerSid, find_header, Option.bind_some, Json.find_eq_none hheader]
    rfl
  · obtain ⟨sess, hsess, heq⟩ := Option.bind_eq_some_iff.mp hsession
    cases heq
    simp only [not_or, not_not] at hinvalid
    obtain ⟨hvalid, hheader, _⟩ := hinvalid
    obtain ⟨_, hfind, hobject⟩ := (Option.any_eq_true _ _).mp hheader
    obtain ⟨header, rfl⟩ := Json.isObject_iff.mp hobject
    exact Connection.sound_of_fromJson (haccepted.trans (if_pos hvalid))
      hfind hsess

/-! ## The server -/

section Server

variable {ι : Type} [DecidableEq ι] {setup : ServerSetup}

/-- `user_vec` lists the live users, each once, and every session comes from
its handshake. -/
structure ServerState.Consistent (setup : ServerSetup)
    (state : ServerState ι) : Prop where
  nodup : state.userVec.Nodup
  mem_iff : ∀ u, u ∈ state.userVec ↔ (state.connection u).isSome
  sound : ∀ u connection, state.connection u = some connection →
    connection.Sound setup

theorem ServerState.Consistent.sound_set {state : ServerState ι}
    (hstate : state.Consistent setup) (u : ι) {connection : Connection}
    (hsound : connection.Sound setup) (v : ι) (other : Connection)
    (hother : (state.set u connection).connection v = some other) :
    other.Sound setup := by
  unfold ServerState.set at hother
  by_cases hv : v = u
  · subst hv
    simp only [Function.update_self] at hother
    cases hother
    exact hsound
  · simp only [Function.update_of_ne hv] at hother
    exact hstate.sound v other hother

theorem ServerState.Consistent.set {state : ServerState ι}
    (hstate : state.Consistent setup) {u : ι} {old connection : Connection}
    (hold : state.connection u = some old)
    (hsound : connection.Sound setup) :
    (state.set u connection).Consistent setup where
  nodup := hstate.nodup
  mem_iff := by
    intro v
    unfold ServerState.set
    by_cases hv : v = u
    · subst hv
      simp [hstate.mem_iff, hold]
    · simp [Function.update_of_ne hv, hstate.mem_iff]
  sound := hstate.sound_set u hsound

theorem ServerState.Consistent.listen {state : ServerState ι}
    (hstate : state.Consistent setup) {u : ι}
    (hnone : state.connection u = none) :
    ServerState.Consistent setup
      { state.set u {} with userVec := state.userVec ++ [u] } where
  nodup := by
    have hnew : u ∉ state.userVec := by simp [hstate.mem_iff, hnone]
    exact List.nodup_append.mpr ⟨hstate.nodup, List.nodup_singleton u,
      fun v hv w hw heq => hnew (List.mem_singleton.mp hw ▸ heq ▸ hv)⟩
  mem_iff := by
    intro v
    unfold ServerState.set
    by_cases hv : v = u
    · subst hv
      simp
    · simp [hstate.mem_iff, hv]
  sound := hstate.sound_set u (Connection.sound_listen setup)

theorem ServerState.Consistent.userDisconnect {state : ServerState ι}
    (hstate : state.Consistent setup) (u : ι) :
    (state.userDisconnect u).Consistent setup where
  nodup := hstate.nodup.erase u
  mem_iff := by
    intro v
    unfold ServerState.userDisconnect
    by_cases hv : v = u
    · subst hv
      simp [hstate.nodup.not_mem_erase]
    · simp [Function.update_of_ne hv, List.mem_erase_of_ne hv, hstate.mem_iff]
  sound := by
    intro v other hother
    unfold ServerState.userDisconnect at hother
    by_cases hv : v = u
    · subst hv
      simp at hother
    · simp only [Function.update_of_ne hv] at hother
      exact hstate.sound v other hother

theorem ServerState.Consistent.frameRecv {state : ServerState ι}
    (hstate : state.Consistent setup) {u : ι} {user : User}
    {handshake : Handshake}
    (hu : state.connection u = some ⟨user, some handshake⟩) (payload : Str)
    (fin : Bool) :
    (state.frameRecv u ⟨user, some handshake⟩ payload fin).1.Consistent
      setup := by
  have hsound := hstate.sound u _ hu
  unfold ServerState.frameRecv
  by_cases hvalid : user.sess.isValid = true
  · simp only [hvalid, not_true_eq_false, if_false]
    generalize (if 0 < payload.length then user.msg ++ payload
      else user.msg) = msg
    cases fin with
    | true => exact hstate.set hu (hsound.setMsg [])
    | false => exact hstate.set hu (hsound.setMsg msg)
  · rw [if_pos hvalid]
    exact hstate

theorem ServerState.Consistent.perform {state next : ServerState ι}
    {event : ServerEvent ι} {outputs : List (Output ι)}
    (hstate : state.Consistent setup)
    (hperform : state.perform setup event = some (next, outputs)) :
    next.Consistent setup := by
  cases event with
  | listen u =>
      cases hu : state.connection u with
      | none =>
          simp only [ServerState.perform, hu] at hperform
          cases hperform
          exact hstate.listen hu
      | some connection => simp [ServerState.perform, hu] at hperform
  | handshake u wsReqStr clock =>
      simp only [ServerState.perform] at hperform
      split at hperform
      · rename_i user hu
        obtain ⟨left, hleft, hresult⟩ := Option.map_eq_some_iff.mp hperform
        cases hresult
        have huser : user = {} := (hstate.sound u _ hu).fresh rfl
        rw [huser] at hleft
        exact hstate.set hu (Connection.sound_handshake hleft)
      · cases hperform
  | frameRecv u payload fin =>
      simp only [ServerState.perform] at hperform
      split at hperform
      · rename_i user handshake hu
        have hnext := hstate.frameRecv hu payload fin
        rw [Option.some.inj hperform] at hnext
        exact hnext
      · cases hperform
  | frameWrite u =>
      obtain ⟨connection, _, hresult⟩ := Option.map_eq_some_iff.mp hperform
      split_ifs at hresult
      · cases hresult
        exact hstate
      · cases hresult
        exact hstate.userDisconnect u
  | close u =>
      obtain ⟨connection, _, hresult⟩ := Option.map_eq_some_iff.mp hperform
      cases hresult
      exact hstate.userDisconnect u
  | publish chan msg =>
      simp only [ServerState.perform] at hperform
      split_ifs at hperform
      cases hperform
      exact hstate

theorem ServerState.Consistent.of_reachable {state : ServerState ι}
    (hreach : (redisWsServer ι setup).Reachable state) :
    state.Consistent setup := by
  apply hreach.invariant
  · rintro start ⟨hvec, hconnection⟩
    refine ⟨?_, ?_, ?_⟩
    · rw [hvec]
      exact List.nodup_nil
    · intro u
      simp [hvec, hconnection u]
    · intro u connection hu
      rw [hconnection u] at hu
      cases hu
  · intro current event next hcurrent hstep
    obtain ⟨⟨result, outputs⟩, hperform, hresult⟩ :=
      Option.map_eq_some_iff.mp hstep
    cases hresult
    exact hcurrent.perform hperform

/-! ## Messages and publications -/

/-- The users whose accepted token has the channel as its session id. -/
def ServerState.Subscribed (setup : ServerSetup) (state : ServerState ι)
    (chan : Str) (u : ι) : Prop :=
  ∃ j, state.acceptedToken setup u = some j ∧ headerSid j = some chan

/-- Messages come from users with an accepted token only, and a publication
is sent once to each user that has its channel. -/
structure ServerState.Answers (setup : ServerSetup) (state : ServerState ι)
    (event : ServerEvent ι) (outputs : List (Output ι)) : Prop where
  messages : ∀ u message, .onMessageReceived u message ∈ outputs →
    ∃ j, state.acceptedToken setup u = some j
  publications : ∀ chan msg, event = .publish chan msg →
    ∃ users : List ι, users.Nodup ∧
      outputs = users.map (fun u => .sendFrame u msg) ∧
      ∀ u, u ∈ users ↔ state.Subscribed setup chan u

theorem ServerState.valid_of_frameRecv {state : ServerState ι} {u v : ι}
    {connection : Connection} {payload message : Str} {fin : Bool}
    (hmessage : .onMessageReceived u message ∈
      (state.frameRecv v connection payload fin).2) :
    u = v ∧ connection.user.sess.isValid = true := by
  unfold ServerState.frameRecv at hmessage
  dsimp only at hmessage
  by_cases hvalid : connection.user.sess.isValid = true
  · rw [if_neg (not_not_intro hvalid)] at hmessage
    cases fin with
    | true =>
        simp only [if_true, List.mem_singleton, Output.onMessageReceived.injEq]
          at hmessage
        exact ⟨hmessage.1, hvalid⟩
    | false => simp at hmessage
  · simp [hvalid] at hmessage

theorem ServerState.Consistent.messages {state next : ServerState ι}
    (hstate : state.Consistent setup) {event : ServerEvent ι}
    {outputs : List (Output ι)}
    (hperform : state.perform setup event = some (next, outputs)) (u : ι)
    (message : Str) (hmessage : .onMessageReceived u message ∈ outputs) :
    ∃ j, state.acceptedToken setup u = some j := by
  cases event with
  | listen v =>
      simp only [ServerState.perform] at hperform
      split at hperform <;> cases hperform
      cases hmessage
  | handshake v wsReqStr clock =>
      simp only [ServerState.perform] at hperform
      split at hperform
      · obtain ⟨_, _, hresult⟩ := Option.map_eq_some_iff.mp hperform
        cases hresult
        cases hmessage
      · cases hperform
  | frameRecv v payload fin =>
      simp only [ServerState.perform] at hperform
      split at hperform
      · rename_i user handshake hv
        have houtputs := congrArg Prod.snd (Option.some.inj hperform)
        dsimp only at houtputs
        rw [← houtputs] at hmessage
        obtain ⟨rfl, hvalid⟩ := ServerState.valid_of_frameRecv hmessage
        rw [ServerState.acceptedToken, hv, Option.bind_some]
        exact (hstate.sound u _ hv).valid hvalid
      · cases hperform
  | frameWrite v =>
      obtain ⟨connection, _, hresult⟩ := Option.map_eq_some_iff.mp hperform
      split_ifs at hresult <;> cases hresult <;> cases hmessage
  | close v =>
      obtain ⟨connection, _, hresult⟩ := Option.map_eq_some_iff.mp hperform
      cases hresult
      cases hmessage
  | publish chan msg =>
      simp only [ServerState.perform] at hperform
      split_ifs at hperform
      cases hperform
      simp [ServerState.broadcast] at hmessage

omit [DecidableEq ι] in
theorem ServerState.Consistent.publications {state : ServerState ι}
    (hstate : state.Consistent setup) {chan : Str} (hchan : chan ≠ [])
    (msg : Str) :
    ∃ users : List ι, users.Nodup ∧
      state.broadcast chan msg = users.map (fun u => .sendFrame u msg) ∧
      ∀ u, u ∈ users ↔ state.Subscribed setup chan u := by
  refine ⟨_, hstate.nodup.filter _, rfl, ?_⟩
  intro u
  rw [List.mem_filter, hstate.mem_iff]
  unfold ServerState.Subscribed ServerState.acceptedToken
  cases hu : state.connection u with
  | none => simp
  | some connection =>
      have hsid := (hstate.sound u connection hu).sid chan hchan
      simpa using hsid

theorem redisWsServer_answers {state next : ServerState ι}
    {event : ServerEvent ι} {outputs : List (Output ι)}
    (hreach : (redisWsServer ι setup).Reachable state)
    (hperform : state.perform setup event = some (next, outputs)) :
    state.Answers setup event outputs := by
  have hstate := ServerState.Consistent.of_reachable hreach
  constructor
  · exact hstate.messages hperform
  · rintro chan msg rfl
    simp only [ServerState.perform] at hperform
    split_ifs at hperform with htopic
    cases hperform
    have hchan : chan ≠ [] := by
      intro hnil
      rw [hnil] at htopic
      exact absurd htopic (by decide)
    exact hstate.publications hchan msg

end Server

def yodaToken : Token where
  alg := .rs256
  header := .object [
    ("alg".toList, .string "RS256".toList),
    ("sid".toList, .string "sess:1".toList)]
  payload := .object [
    ("exp".toList, .unsigned 4102444800000),
    ("user".toList, .string "yoda".toList)]
  signingInput := "input".toList
  signature := .rs256 "key".toList "input".toList

def yodaSetup : ServerSetup where
  lib := {
    publicKeyOf := fun privateKey => privateKey ++ ".pub".toList
    parse := fun encStr =>
      if encStr = "a.b.c".toList then some yodaToken else none
    what := fun _ => "decode error".toList
    what_ne_nil := fun _ => by decide }
  publicKey := "key.pub".toList
  parseQuery path :=
    if path = "/?x-access-token=a.b.c".toList then
      [("x-access-token".toList, "a.b.c".toList)]
    else []

def emptyServer : ServerState Bool where
  userVec := []
  connection _ := none

def twoUsers : List (ServerEvent Bool) := [
  .listen true,
  .handshake true "GET /?x-access-token=a.b.c HTTP/1.1".toList
    ⟨1735689600000, by decide⟩,
  .listen false,
  .handshake false "GET / HTTP/1.1".toList ⟨1735689600000, by decide⟩]

def twoUsersServer : Option (ServerState Bool) :=
  (redisWsServer Bool yodaSetup).run emptyServer twoUsers

def yodaNews : ServerEvent Bool := .publish "sess:1".toList "news".toList

theorem twoUsers_publish :
    ∃ state next, (redisWsServer Bool yodaSetup).Reachable state ∧
      state.perform yodaSetup yodaNews =
        some (next, [.sendFrame true "news".toList]) ∧
      state.Answers yodaSetup yodaNews [.sendFrame true "news".toList] := by
  have houtputs : twoUsersServer.bind (fun state =>
      (state.perform yodaSetup yodaNews).map Prod.snd) =
        some [.sendFrame true "news".toList] := rfl
  obtain ⟨state, hrun, hnews⟩ := Option.bind_eq_some_iff.mp houtputs
  obtain ⟨⟨next, outputs⟩, hperform, heq⟩ := Option.map_eq_some_iff.mp hnews
  cases heq
  have hreach : (redisWsServer Bool yodaSetup).Reachable state :=
    ⟨emptyServer, twoUsers, ⟨rfl, fun _ => rfl⟩, hrun⟩
  exact ⟨state, next, hreach, hperform, redisWsServer_answers hreach hperform⟩

end StoreCpp
