import StoreCpp.Reassembly
import StoreCpp.SecureWsServer

/-!
# The messages of a websocket user

The frame callback of `RS256SecureWsServer` appends the payload of a valid
user's frame to the message buffer of that user and hands the buffer to
`onMessageReceived` at a frame with the final bit.  The frames that the server
has got from a user since the connection was made, and the messages that it
has passed on for that user, are kept beside its state.
-/

namespace StoreCpp

open Reassembly StepMachine

structure WsHistory (ι : Type) where
  server : ServerState ι
  received : ι → List (Frame Char)
  delivered : ι → List Str

section Histories

variable {ι : Type} [DecidableEq ι]

/-- The messages among the outputs that are passed on for the user. -/
def deliveredTo (u : ι) (outputs : List (Output ι)) : List Str :=
  outputs.filterMap fun output =>
    match output with
    | .onMessageReceived v message => if v = u then some message else none
    | .sendFrame _ _ => none

/-- A new connection starts with no frames and no messages. -/
def WsHistory.record (history : WsHistory ι) (event : ServerEvent ι)
    (server : ServerState ι) (outputs : List (Output ι)) : WsHistory ι :=
  match event with
  | .listen u => {
      server
      received := Function.update history.received u []
      delivered := Function.update history.delivered u [] }
  | .frameRecv u payload fin => {
      server
      received := Function.update history.received u
        (history.received u ++ [⟨payload, fin⟩])
      delivered := fun v => history.delivered v ++ deliveredTo v outputs }
  | _ => {
      history with
      server
      delivered := fun v => history.delivered v ++ deliveredTo v outputs }

def wsHistories (ι : Type) [DecidableEq ι] (setup : ServerSetup) :
    Machine (WsHistory ι) (ServerEvent ι) where
  init history :=
    history.server.userVec = [] ∧ ∀ u, history.server.connection u = none
  step history event :=
    (history.server.perform setup event).map fun left =>
      history.record event left.1 left.2

/-- The messages of an authenticated user are the payloads that have come,
cut behind each final frame; nothing is passed on or kept for another. -/
structure WsHistory.Reassembles (history : WsHistory ι) (u : ι)
    (connection : Connection) : Prop where
  authenticated : connection.user.sess.isValid = true →
    history.delivered u = messages (history.received u)
  unauthenticated : connection.user.sess.isValid = false →
    history.delivered u = [] ∧ connection.user.msg = []

/-- What the buffer and the messages of a connection are after its frames. -/
structure FramesKept (connection : Connection) (received : List (Frame Char))
    (delivered : List Str) : Prop where
  fresh : connection.handshake = none → received = []
  msg : connection.user.msg =
    if connection.user.sess.isValid then unfinished received else []
  delivered : delivered =
    if connection.user.sess.isValid then messages received else []

def WsHistory.Kept (history : WsHistory ι) : Prop :=
  ∀ u connection, history.server.connection u = some connection →
    FramesKept connection (history.received u) (history.delivered u)

theorem framesKept_listen : FramesKept {} [] [] where
  fresh _ := rfl
  msg := rfl
  delivered := rfl

theorem FramesKept.handshake {user next : User} {handshake : Handshake}
    {received : List (Frame Char)} {delivered : List Str}
    (hkept : FramesKept ⟨user, none⟩ received delivered)
    (hmsg : next.msg = user.msg) :
    FramesKept ⟨next, some handshake⟩ received delivered where
  fresh hnone := by cases hnone
  msg := by
    have hold := hkept.msg
    rw [hkept.fresh rfl] at hold ⊢
    dsimp only at hold ⊢
    rw [hmsg, hold]
    split_ifs <;> rfl
  delivered := by
    have hold := hkept.delivered
    rw [hkept.fresh rfl] at hold ⊢
    rw [hold]
    split_ifs <;> rfl

theorem handshake_msg {setup : ServerSetup} {clock : WallClock}
    {wsReqStr : Str} {user next : User}
    (hhandshake : setup.handshake clock wsReqStr user = some next) :
    next.msg = user.msg := by
  have hparse : (parseWebRequestLine wsReqStr user).msg = user.msg := by
    unfold parseWebRequestLine
    split_ifs
    · rfl
    · rfl
  unfold ServerSetup.handshake at hhandshake
  obtain ⟨⟨tokenIsValid, j⟩, _, hresult⟩ :=
    Option.bind_eq_some_iff.mp hhandshake
  dsimp only at hresult
  split_ifs at hresult
  · cases hresult
    exact hparse
  · obtain ⟨thisSess, _, hnext⟩ := Option.bind_eq_some_iff.mp hresult
    cases hnext
    exact hparse

/-- The buffer behind the payload of a frame, which may be empty. -/
theorem appended_msg (msg payload : Str) :
    (if 0 < payload.length then msg ++ payload else msg) = msg ++ payload := by
  cases payload with
  | nil => simp
  | cons c payload => simp

theorem deliveredTo_nil (u : ι) : deliveredTo u [] = [] := rfl

theorem deliveredTo_other {u v : ι} (hne : v ≠ u) (message : Str) :
    deliveredTo v [Output.onMessageReceived u message] = [] := by
  simp [deliveredTo, hne.symm]

/-- What one frame does to the connection of its user and to the others. -/
structure FrameEffect (state : ServerState ι) (u : ι)
    (received : List (Frame Char)) (delivered : List Str)
    (next : ServerState ι) (outputs : List (Output ι)) : Prop where
  others : ∀ v, v ≠ u → next.connection v = state.connection v ∧
    deliveredTo v outputs = []
  kept : ∃ after, next.connection u = some after ∧
    FramesKept after received (delivered ++ deliveredTo u outputs)

theorem frameRecv_unauthorized {state : ServerState ι} {u : ι}
    {connection : Connection} {received : List (Frame Char)}
    {delivered : List Str} (hu : state.connection u = some connection)
    (hhandshake : connection.handshake ≠ none)
    (hvalid : connection.user.sess.isValid = false)
    (hkept : FramesKept connection received delivered) (payload : Str)
    (fin : Bool) :
    FrameEffect state u (received ++ [⟨payload, fin⟩]) delivered
      (state.frameRecv u connection payload fin).1
      (state.frameRecv u connection payload fin).2 := by
  have hframe : state.frameRecv u connection payload fin =
      (state, [.sendFrame u "Unauthorized".toList]) := by
    simp [ServerState.frameRecv, hvalid]
  have hmsg := hkept.msg
  have hdelivered := hkept.delivered
  rw [hvalid] at hmsg hdelivered
  rw [hframe]
  refine ⟨fun v _ => ⟨rfl, rfl⟩, connection, hu, ?_, ?_, ?_⟩
  · intro hnone
    exact absurd hnone hhandshake
  · rw [hvalid]
    exact hmsg
  · rw [hvalid, hdelivered]
    rfl

theorem frameRecv_authorized {state : ServerState ι} {u : ι}
    {connection : Connection} {received : List (Frame Char)}
    {delivered : List Str}
    (hhandshake : connection.handshake ≠ none)
    (hvalid : connection.user.sess.isValid = true)
    (hkept : FramesKept connection received delivered) (payload : Str)
    (fin : Bool) :
    FrameEffect state u (received ++ [⟨payload, fin⟩]) delivered
      (state.frameRecv u connection payload fin).1
      (state.frameRecv u connection payload fin).2 := by
  have hmsg := hkept.msg
  have hdelivered := hkept.delivered
  rw [hvalid, if_pos rfl] at hmsg hdelivered
  unfold ServerState.frameRecv
  dsimp only
  rw [if_neg (not_not_intro hvalid), appended_msg, hmsg]
  cases fin with
  | true =>
      refine ⟨?_, _, Function.update_self .., ?_, ?_, ?_⟩
      · intro v hv
        exact ⟨Function.update_of_ne hv _ _, deliveredTo_other hv _⟩
      · intro hnone
        exact absurd hnone hhandshake
      · dsimp only
        rw [if_pos hvalid, unfinished_concat, if_pos rfl]
      · dsimp only
        rw [if_pos hvalid, messages_concat, if_pos rfl, hdelivered]
        simp [deliveredTo]
  | false =>
      refine ⟨?_, _, Function.update_self .., ?_, ?_, ?_⟩
      · intro v hv
        exact ⟨Function.update_of_ne hv _ _, rfl⟩
      · intro hnone
        exact absurd hnone hhandshake
      · dsimp only
        rw [if_pos hvalid, unfinished_concat, if_neg Bool.false_ne_true]
      · dsimp only
        rw [if_pos hvalid, messages_concat, if_neg Bool.false_ne_true,
          hdelivered]
        exact List.append_nil _

variable {setup : ServerSetup}

theorem deliveredTo_broadcast (state : ServerState ι) (u : ι)
    (chan msg : Str) : deliveredTo u (state.broadcast chan msg) = [] := by
  simp [deliveredTo, ServerState.broadcast]

namespace WsHistory

/-- An event of one user leaves what is kept for the others. -/
theorem Kept.changedAt {history next : WsHistory ι} (hkept : history.Kept)
    (u : ι)
    (hothers : ∀ v, v ≠ u →
      next.server.connection v = history.server.connection v ∧
        next.received v = history.received v ∧
          next.delivered v = history.delivered v)
    (hat : ∀ connection, next.server.connection u = some connection →
      FramesKept connection (next.received u) (next.delivered u)) :
    next.Kept := by
  intro v connection hv
  by_cases hsame : v = u
  · rw [hsame] at hv ⊢
    exact hat connection hv
  · obtain ⟨hconnection, hreceived, hdelivered⟩ := hothers v hsame
    rw [hconnection] at hv
    rw [hreceived, hdelivered]
    exact hkept v connection hv

theorem Kept.listen {history : WsHistory ι} (hkept : history.Kept) (u : ι)
    (userVec : List ι) :
    (history.record (.listen u)
      { history.server.set u {} with userVec } []).Kept := by
  apply hkept.changedAt u
  · intro v hv
    exact ⟨Function.update_of_ne hv _ _, Function.update_of_ne hv _ _,
      Function.update_of_ne hv _ _⟩
  · intro connection hu
    simp only [record, ServerState.set, Function.update_self] at hu ⊢
    cases hu
    exact framesKept_listen

theorem Kept.handshake {history : WsHistory ι} (hkept : history.Kept) {u : ι}
    {user next : User} (hu : history.server.connection u = some ⟨user, none⟩)
    (hmsg : next.msg = user.msg) (wsReqStr : Str) (clock : WallClock) :
    (history.record (.handshake u wsReqStr clock)
      (history.server.set u ⟨next, some ⟨wsReqStr, clock⟩⟩) []).Kept := by
  apply hkept.changedAt u
  · intro v hv
    exact ⟨Function.update_of_ne hv _ _, rfl, List.append_nil _⟩
  · intro connection hnext
    simp only [record, ServerState.set, Function.update_self] at hnext ⊢
    cases hnext
    rw [deliveredTo_nil, List.append_nil]
    exact (hkept u _ hu).handshake hmsg

theorem Kept.frameRecv {history : WsHistory ι} (hkept : history.Kept) {u : ι}
    {payload : Str} {fin : Bool} {next : ServerState ι}
    {outputs : List (Output ι)}
    (heffect : FrameEffect history.server u
      (history.received u ++ [⟨payload, fin⟩]) (history.delivered u) next
      outputs) :
    (history.record (.frameRecv u payload fin) next outputs).Kept := by
  apply hkept.changedAt u
  · intro v hv
    obtain ⟨hconnection, hnone⟩ := heffect.others v hv
    refine ⟨hconnection, Function.update_of_ne hv _ _, ?_⟩
    simp only [record, hnone, List.append_nil]
  · intro connection hu
    obtain ⟨after, hafter, hframes⟩ := heffect.kept
    cases Option.some.inj (hafter.symm.trans hu)
    simp only [record, Function.update_self]
    exact hframes

theorem Kept.userDisconnect {history : WsHistory ι} (hkept : history.Kept)
    (u : ι) :
    WsHistory.Kept
      { history with server := history.server.userDisconnect u } := by
  apply hkept.changedAt u
  · intro v hv
    exact ⟨Function.update_of_ne hv _ _, rfl, rfl⟩
  · intro connection hu
    simp only [ServerState.userDisconnect, Function.update_self] at hu
    cases hu

/-- The frame callback on a connection with its handshake done. -/
theorem Kept.frameEffect {history : WsHistory ι} (hkept : history.Kept)
    {u : ι} {user : User} {handshake : Handshake}
    (hu : history.server.connection u = some ⟨user, some handshake⟩)
    (payload : Str) (fin : Bool) :
    FrameEffect history.server u (history.received u ++ [⟨payload, fin⟩])
      (history.delivered u)
      (history.server.frameRecv u ⟨user, some handshake⟩ payload fin).1
      (history.server.frameRecv u ⟨user, some handshake⟩ payload fin).2 := by
  have hsome : (⟨user, some handshake⟩ : Connection).handshake ≠ none :=
    Option.some_ne_none handshake
  cases hvalid : user.sess.isValid with
  | true => exact frameRecv_authorized hsome hvalid (hkept u _ hu) payload fin
  | false =>
      exact frameRecv_unauthorized hu hsome hvalid (hkept u _ hu) payload fin

theorem Kept.perform {history : WsHistory ι} (hkept : history.Kept)
    {event : ServerEvent ι} {next : ServerState ι}
    {outputs : List (Output ι)}
    (hperform : history.server.perform setup event = some (next, outputs)) :
    (history.record event next outputs).Kept := by
  cases event with
  | listen u =>
      simp only [ServerState.perform] at hperform
      split at hperform
      · cases hperform
        exact hkept.listen u _
      · cases hperform
  | handshake u wsReqStr clock =>
      simp only [ServerState.perform] at hperform
      split at hperform
      · rename_i user hu
        obtain ⟨authenticated, hhandshake, hresult⟩ :=
          Option.map_eq_some_iff.mp hperform
        cases hresult
        exact hkept.handshake hu (handshake_msg hhandshake) wsReqStr clock
      · cases hperform
  | frameRecv u payload fin =>
      simp only [ServerState.perform] at hperform
      split at hperform
      · rename_i user handshake hu
        have heffect := hkept.frameEffect hu payload fin
        rw [Option.some.inj hperform] at heffect
        exact hkept.frameRecv heffect
      · cases hperform
  | frameWrite u =>
      obtain ⟨connection, _, hresult⟩ := Option.map_eq_some_iff.mp hperform
      split_ifs at hresult
      · cases hresult
        simp only [record, deliveredTo_nil, List.append_nil]
        exact hkept
      · cases hresult
        simp only [record, deliveredTo_nil, List.append_nil]
        exact hkept.userDisconnect u
  | close u =>
      obtain ⟨connection, _, hresult⟩ := Option.map_eq_some_iff.mp hperform
      cases hresult
      simp only [record, deliveredTo_nil, List.append_nil]
      exact hkept.userDisconnect u
  | publish chan msg =>
      simp only [ServerState.perform] at hperform
      split_ifs at hperform
      cases hperform
      simp only [record, deliveredTo_broadcast, List.append_nil]
      exact hkept

theorem Kept.of_reachable {history : WsHistory ι}
    (hreach : (wsHistories ι setup).Reachable history) : history.Kept := by
  apply hreach.invariant
  · rintro start ⟨_, hconnection⟩ u connection hu
    rw [hconnection u] at hu
    cases hu
  · intro current event next hcurrent hstep
    obtain ⟨⟨server, outputs⟩, hperform, hresult⟩ :=
      Option.map_eq_some_iff.mp hstep
    cases hresult
    exact hcurrent.perform hperform

end WsHistory

/-- In every run the frames of each user are put together apart from those of
all other users. -/
theorem wsHistories_reassemble {history : WsHistory ι}
    (hreach : (wsHistories ι setup).Reachable history) {u : ι}
    {connection : Connection}
    (hu : history.server.connection u = some connection) :
    history.Reassembles u connection := by
  have hkept := WsHistory.Kept.of_reachable hreach u connection hu
  constructor
  · intro hvalid
    have hdelivered := hkept.delivered
    rwa [hvalid, if_pos rfl] at hdelivered
  · intro hvalid
    have hdelivered := hkept.delivered
    have hmsg := hkept.msg
    rw [hvalid, if_neg Bool.false_ne_true] at hdelivered hmsg
    exact ⟨hdelivered, hmsg⟩

end Histories

def emptyHistory : WsHistory Bool where
  server := emptyServer
  received _ := []
  delivered _ := []

/-- Frames of both users, in turn. -/
def mixedFrames : List (ServerEvent Bool) :=
  twoUsers ++ [
    .frameRecv true "he".toList false,
    .frameRecv false "noise".toList true,
    .frameRecv true [] false,
    .frameRecv true "llo".toList true]

theorem mixedFrames_reassemble :
    ∃ history connection,
      (wsHistories Bool yodaSetup).Reachable history ∧
      history.server.connection true = some connection ∧
      history.delivered true = ["hello".toList] ∧
      history.Reassembles true connection := by
  have hfinal : ((wsHistories Bool yodaSetup).run emptyHistory
      mixedFrames).bind (fun history =>
        (history.server.connection true).map fun _ =>
          history.delivered true) = some ["hello".toList] := rfl
  obtain ⟨history, hrun, hhistory⟩ := Option.bind_eq_some_iff.mp hfinal
  obtain ⟨connection, hconnection, hdelivered⟩ :=
    Option.map_eq_some_iff.mp hhistory
  have hreach : (wsHistories Bool yodaSetup).Reachable history :=
    ⟨emptyHistory, mixedFrames, ⟨rfl, fun _ => rfl⟩, hrun⟩
  exact ⟨history, connection, hreach, hconnection, hdelivered,
    wsHistories_reassemble hreach hconnection⟩

end StoreCpp
