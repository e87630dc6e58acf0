import StoreCpp.Extensions
import StoreCpp.StepMachine

/-!
# The notification loop of a PostgreSQL client

`ClientHandler` sends one `LISTEN` and then waits for input, reads it and
hands every notification that the driver has by then to its callback.  A
notification passes from the server to the network, to the client's socket, to
the driver's queue and to the callback.  The driver also reads the socket
while it waits for the answer to `LISTEN`.
-/

namespace StoreCpp

namespace ClientHandler

open StepMachine

structure PGNotify where
  relname : Str
  extra : Str
  bePid : ℤ

structure PGNotifyResult where
  channel : Str
  data : Str
  pid : ℤ

def PGNotify.result (notify : PGNotify) : PGNotifyResult where
  channel := notify.relname
  data := notify.extra
  pid := notify.bePid

def listenCommand (channel : Str) : Str := "LISTEN ".toList ++ channel

/-- What the server listens to after a command, `none` when it is an error. -/
structure Server where
  listens : Str → Option Str

inductive Phase where
  | connecting
  | connected
  | listening
  | top
  | selecting
  | consuming
  | draining
  | done
  | exited
  | thrown
  deriving DecidableEq

/-- `sent` and `lost` record the history: what the server sent to this
connection, and what of it a broken connection took away. -/
structure Listener where
  phase : Phase := .connecting
  accepted : Bool := false
  channel : Option Str := none
  network : List PGNotify := []
  socket : List PGNotify := []
  peerClosed : Bool := false
  dropped : Bool := false
  queue : List PGNotify := []
  delivered : List PGNotifyResult := []
  nnotifies : ℕ := 0
  sent : List PGNotify := []
  lost : List PGNotify := []

inductive Action where
  | connect (ok : Bool)
  | execute
  | answer (ok : Bool) (read : ℕ)
  | notify (message : PGNotify)
  | arrive
  | disconnect (kept : ℕ)
  | socketCheck
  | select (ok : Bool)
  | consumeInput (read : ℕ)
  | notifies (throws : Bool)

/-- `PQexec` sends the command; the server runs it unless the connection is
gone by then. -/
def Listener.execute (server : Server) (channel : Str) (listener : Listener) :
    Option Listener :=
  if listener.phase = .connected then
    let channel :=
      if listener.peerClosed then none
      else server.listens (listenCommand channel)
    some { listener with
      phase := .listening
      accepted := channel.isSome
      channel := channel }
  else none

/-- The answer of the server, read off the socket with notifications that
came before it; a broken connection may have lost it. -/
def Listener.answer (ok : Bool) (read : ℕ) (listener : Listener) :
    Option Listener :=
  if listener.phase = .listening then
    if ok then
      if listener.accepted then
        some { listener with
          phase := .top
          queue := listener.queue ++ listener.socket.take read
          socket := listener.socket.drop read }
      else none
    else if listener.accepted ∧ listener.peerClosed = false then none
    else some { listener with phase := .exited }
  else none

/-- A notification on another channel does not reach the connection. -/
def Listener.notify (message : PGNotify) (listener : Listener) : Listener :=
  if listener.channel = some message.relname then
    { listener with
      network := listener.network ++ [message]
      sent := listener.sent ++ [message] }
  else listener

def Listener.arrive (listener : Listener) : Option Listener :=
  match listener.network with
  | [] => none
  | message :: network => some { listener with
      network := network
      socket := listener.socket ++ [message] }

def Listener.disconnect (kept : ℕ) (listener : Listener) : Listener :=
  { listener with
    channel := none
    peerClosed := true
    network := listener.network.take kept
    lost := listener.network.drop kept ++ listener.lost }

/-- `PQsocket` is negative once the driver has dropped the connection. -/
def Listener.socketCheck (listener : Listener) : Option Listener :=
  if listener.phase = .top then
    some { listener with
      phase := if listener.dropped then .done else .selecting }
  else none

/-- `select` returns when there is input or the end of it, if only a part of
a message. -/
def Listener.select (ok : Bool) (listener : Listener) : Option Listener :=
  if listener.phase = .selecting then
    if ok = false then some { listener with phase := .exited }
    else if listener.socket ≠ [] ∨ listener.network ≠ [] ∨
        listener.peerClosed then
      some { listener with phase := .consuming }
    else none
  else none

/-- `PQconsumeInput`; at the end of the input it drops the connection. -/
def Listener.consumeInput (read : ℕ) (listener : Listener) : Option Listener :=
  if listener.phase = .consuming ∧ (listener.socket ≠ [] → 0 < read) then
    some { listener with
      phase := .draining
      queue := listener.queue ++ listener.socket.take read
      socket := listener.socket.drop read
      dropped := listener.dropped ||
        (listener.peerClosed && listener.socket.isEmpty &&
          listener.network.isEmpty) }
  else none

/-- One test of the inner loop and, for a notification, its body. -/
def Listener.notifies (throws : Bool) (listener : Listener) :
    Option Listener :=
  if listener.phase = .draining then
    match listener.queue with
    | [] => some { listener with phase := .top }
    | notify :: queue => some { listener with
        phase := if throws then .thrown else .draining
        queue := queue
        delivered := listener.delivered ++ [notify.result]
        nnotifies := listener.nnotifies + if throws then 0 else 1 }
  else none

def Listener.step (server : Server) (channel : Str) (listener : Listener) :
    Action → Option Listener
  | .connect ok =>
      if listener.phase = .connecting then
        some { listener with phase := if ok then .connected else .exited }
      else none
  | .execute => listener.execute server channel
  | .answer ok read => listener.answer ok read
  | .notify message => some (listener.notify message)
  | .arrive => listener.arrive
  | .disconnect kept => some (listener.disconnect kept)
  | .socketCheck => listener.socketCheck
  | .select ok => listener.select ok
  | .consumeInput read => listener.consumeInput read
  | .notifies throws => listener.notifies throws

def handler (server : Server) (channel : Str) : Machine Listener Action where
  init listener := listener = {}
  step listener action := listener.step server channel action

/-- The loop waits for input and there is none that it has not read. -/
def Listener.Blocked (listener : Listener) : Prop :=
  listener.phase = .selecting ∧ listener.socket = [] ∧
    listener.network = [] ∧ listener.peerClosed = false

def Action.ReadsInput : Action → Bool
  | .consumeInput _ => true
  | _ => false

/-- Sent to the connection and not yet handed to the callback. -/
def Listener.pending (listener : Listener) : List PGNotify :=
  listener.queue ++ listener.socket ++ listener.network

/-- The part of the loop between two looks at the driver's queue. -/
def Phase.Waiting : Phase → Bool
  | .top | .selecting | .consuming | .done => true
  | _ => false

def Phase.Starting : Phase → Bool
  | .connecting | .connected | .listening => true
  | _ => false

structure Listener.Inv (woken : Bool) (listener : Listener) : Prop where
  history : listener.sent.map PGNotify.result = listener.delivered ++
    (listener.pending ++ listener.lost).map PGNotify.result
  kept : listener.peerClosed = false → listener.lost = []
  asleep : woken = false → listener.delivered = []
  starts : listener.phase.Starting = true → woken = false
  drains : listener.phase = .draining → woken = true
  emptied : woken = true → listener.phase.Waiting = true →
    listener.queue = []
  silent : listener.peerClosed = true → listener.channel = none
  dropped : listener.dropped = true → woken = true ∧
    listener.peerClosed = true ∧ listener.socket = [] ∧ listener.network = []
  ended : listener.phase = .done → listener.dropped = true

theorem Listener.Inv.notify {woken : Bool} {listener : Listener}
    (hinv : listener.Inv woken) (message : PGNotify) :
    (listener.notify message).Inv woken := by
  unfold Listener.notify
  by_cases hchannel : listener.channel = some message.relname
  · have hopen : listener.peerClosed = false := by
      by_contra hclosed
      rw [hinv.silent (by simpa using hclosed)] at hchannel
      cases hchannel
    have hnone := hinv.kept hopen
    have hhistory := hinv.history
    rw [if_pos hchannel]
    refine { hinv with history := ?_, dropped := ?_ }
    · simp only [Listener.pending, hnone, List.append_nil] at hhistory ⊢
      simp [hhistory]
    · intro hdropped
      rw [(hinv.dropped hdropped).2.1] at hopen
      cases hopen
  · rw [if_neg hchannel]
    exact hinv

theorem Listener.Inv.arrive {woken : Bool} {listener next : Listener}
    (hinv : listener.Inv woken) (hstep : listener.arrive = some next) :
    next.Inv woken := by
  unfold Listener.arrive at hstep
  cases hnetwork : listener.network with
  | nil =>
      rw [hnetwork] at hstep
      cases hstep
  | cons message network =>
      rw [hnetwork] at hstep
      cases hstep
      refine { hinv with history := ?_, dropped := ?_ }
      · rw [hinv.history]
        simp [Listener.pending, hnetwork]
      · intro hdropped
        rw [(hinv.dropped hdropped).2.2.2] at hnetwork
        cases hnetwork

theorem Listener.Inv.disconnect {woken : Bool} {listener : Listener}
    (hinv : listener.Inv woken) (kept : ℕ) :
    (listener.disconnect kept).Inv woken := by
  refine { hinv with
    history := ?_, kept := ?_, silent := fun _ => rfl, dropped := ?_ }
  · have hhistory := hinv.history
    have hsplit := List.take_append_drop kept listener.network
    have hnetwork : listener.network ++ listener.lost =
        listener.network.take kept ++
          (listener.network.drop kept ++ listener.lost) := by
      rw [← List.append_assoc, hsplit]
    rw [Listener.pending, List.append_assoc, hnetwork] at hhistory
    simpa [Listener.pending, Listener.disconnect] using hhistory
  · intro hopen
    cases hopen
  · intro hdropped
    obtain ⟨hwoken, _, hsocket, hnetwork⟩ := hinv.dropped hdropped
    refine ⟨hwoken, rfl, hsocket, ?_⟩
    simp [Listener.disconnect, hnetwork]

theorem Listener.Inv.connect {woken ok : Bool} {listener : Listener}
    (hinv : listener.Inv woken) (hphase : listener.phase = .connecting) :
    { listener with phase := if ok then .connected else .exited }.Inv
      woken := by
  have hstarts := hinv.starts (by rw [hphase]; rfl)
  cases ok with
  | true => exact { hinv with
      starts := fun _ => hstarts
      drains := fun hdraining => by cases hdraining
      emptied := fun _ hwaiting => by cases hwaiting
      ended := fun hdone => by cases hdone }
  | false => exact { hinv with
      starts := fun _ => hstarts
      drains := fun hdraining => by cases hdraining
      emptied := fun _ hwaiting => by cases hwaiting
      ended := fun hdone => by cases hdone }

theorem Listener.Inv.execute {woken : Bool} {listener next : Listener}
    {server : Server} {channel : Str} (hinv : listener.Inv woken)
    (hstep : listener.execute server channel = some next) :
    next.Inv woken := by
  unfold Listener.execute at hstep
  split_ifs at hstep with hphase hclosed
  · cases hstep
    exact { hinv with
      starts := fun _ => hinv.starts (by rw [hphase]; rfl)
      drains := fun hdraining => by cases hdraining
      emptied := fun _ hwaiting => by cases hwaiting
      silent := fun _ => rfl
      ended := fun hdone => by cases hdone }
  · cases hstep
    exact { hinv with
      starts := fun _ => hinv.starts (by rw [hphase]; rfl)
      drains := fun hdraining => by cases hdraining
      emptied := fun _ hwaiting => by cases hwaiting
      silent := fun hgone => absurd hgone hclosed
      ended := fun hdone => by cases hdone }

theorem Listener.Inv.answer {woken ok : Bool} {listener next : Listener}
    {read : ℕ} (hinv : listener.Inv woken)
    (hstep : listener.answer ok read = some next) : next.Inv woken := by
  unfold Listener.answer at hstep
  split_ifs at hstep with hphase
  · have hasleep := hinv.starts (by rw [hphase]; rfl)
    cases hstep
    refine { hinv with
      history := ?_
      starts := fun hstarting => by cases hstarting
      drains := fun hdraining => by cases hdraining
      emptied := fun hwoken => ?_
      dropped := fun hdropped => ?_
      ended := fun hdone => by cases hdone }
    · rw [hinv.history]
      simp [Listener.pending]
    · rw [hasleep] at hwoken
      cases hwoken
    · rw [hasleep] at hinv
      cases (hinv.dropped hdropped).1
  · cases hstep
    exact { hinv with
      starts := fun hstarting => by cases hstarting
      drains := fun hdraining => by cases hdraining
      emptied := fun _ hwaiting => by cases hwaiting
      ended := fun hdone => by cases hdone }

theorem Listener.Inv.socketCheck {woken : Bool} {listener next : Listener}
    (hinv : listener.Inv woken) (hstep : listener.socketCheck = some next) :
    next.Inv woken := by
  unfold Listener.socketCheck at hstep
  split_ifs at hstep with hphase hdropped
  · cases hstep
    exact { hinv with
      starts := fun hstarting => by cases hstarting
      drains := fun hdraining => by cases hdraining
      emptied := fun hwoken _ => hinv.emptied hwoken (by rw [hphase]; rfl)
      ended := fun _ => hdropped }
  · cases hstep
    exact { hinv with
      starts := fun hstarting => by cases hstarting
      drains := fun hdraining => by cases hdraining
      emptied := fun hwoken _ => hinv.emptied hwoken (by rw [hphase]; rfl)
      ended := fun hdone => by cases hdone }

theorem Listener.Inv.select {woken ok : Bool} {listener next : Listener}
    (hinv : listener.Inv woken) (hstep : listener.select ok = some next) :
    next.Inv woken := by
  unfold Listener.select at hstep
  split_ifs at hstep with hphase
  · cases hstep
    exact { hinv with
      starts := fun hstarting => by cases hstarting
      drains := fun hdraining => by cases hdraining
      emptied := fun _ hwaiting => by cases hwaiting
      ended := fun hdone => by cases hdone }
  · cases hstep
    exact { hinv with
      starts := fun hstarting => by cases hstarting
      drains := fun hdraining => by cases hdraining
      emptied := fun hwoken _ => hinv.emptied hwoken (by rw [hphase]; rfl)
      ended := fun hdone => by cases hdone }

theorem Listener.Inv.consumeInput {woken : Bool} {listener next : Listener}
    {read : ℕ} (hinv : listener.Inv woken)
    (hstep : listener.consumeInput read = some next) : next.Inv true := by
  unfold Listener.consumeInput at hstep
  split_ifs at hstep with hguard
  cases hstep
  refine { hinv with
    history := ?_
    asleep := fun hasleep => by cases hasleep
    starts := fun hstarting => by cases hstarting
    drains := fun _ => rfl
    emptied := fun _ hwaiting => by cases hwaiting
    dropped := fun hdropped => ?_
    ended := fun hdone => by cases hdone }
  · rw [hinv.history]
    simp [Listener.pending]
  · rcases Bool.or_eq_true_iff.mp hdropped with hbefore | hnow
    · obtain ⟨_, hclosed, hsocket, hnetwork⟩ := hinv.dropped hbefore
      exact ⟨rfl, hclosed, by simp [hsocket], hnetwork⟩
    · simp only [Bool.and_eq_true, List.isEmpty_iff] at hnow
      obtain ⟨⟨hclosed, hsocket⟩, hnetwork⟩ := hnow
      exact ⟨rfl, hclosed, by simp [hsocket], hnetwork⟩

theorem Listener.Inv.notifies {woken throws : Bool}
    {listener next : Listener} (hinv : listener.Inv woken)
    (hstep : listener.notifies throws = some next) : next.Inv woken := by
  unfold Listener.notifies at hstep
  rw [Option.ite_none_right_eq_some] at hstep
  obtain ⟨hphase, hstep⟩ := hstep
  have hwoken := hinv.drains hphase
  cases hqueue : listener.queue with
  | nil =>
      rw [hqueue] at hstep
      cases hstep
      refine { hinv with
        history := ?_
        starts := fun hstarting => by cases hstarting
        drains := fun hdraining => by cases hdraining
        emptied := fun _ _ => rfl
        ended := fun hdone => by cases hdone }
      rw [hinv.history]
      simp [Listener.pending, hqueue]
  | cons notify queue =>
      rw [hqueue] at hstep
      cases hstep
      refine { hinv with
        history := ?_
        asleep := fun hasleep => by rw [hwoken] at hasleep; cases hasleep
        starts := fun hstarting => ?_
        drains := fun _ => hwoken
        emptied := fun _ hwaiting => ?_
        ended := fun hdone => ?_ }
      · rw [hinv.history]
        simp [Listener.pending, hqueue]
      · cases throws <;> cases hstarting
      · cases throws <;> cases hwaiting
      · cases throws <;> cases hdone

theorem Listener.Inv.step {server : Server} {channel : Str} {woken : Bool}
    {listener next : Listener} {action : Action}
    (hinv : listener.Inv woken)
    (hstep : listener.step server channel action = some next) :
    next.Inv (woken || action.ReadsInput) := by
  cases action with
  | connect ok =>
      simp only [Listener.step, Option.ite_none_right_eq_some] at hstep
      obtain ⟨hphase, hnext⟩ := hstep
      cases hnext
      simpa [Action.ReadsInput] using
        @Listener.Inv.connect woken ok listener hinv hphase
  | execute => simpa [Action.ReadsInput] using hinv.execute hstep
  | answer ok read => simpa [Action.ReadsInput] using hinv.answer hstep
  | notify message =>
      cases hstep
      simpa [Action.ReadsInput] using hinv.notify message
  | arrive => simpa [Action.ReadsInput] using hinv.arrive hstep
  | disconnect kept =>
      cases hstep
      simpa [Action.ReadsInput] using hinv.disconnect kept
  | socketCheck => simpa [Action.ReadsInput] using hinv.socketCheck hstep
  | select ok => simpa [Action.ReadsInput] using hinv.select hstep
  | consumeInput read => simpa [Action.ReadsInput] using hinv.consumeInput hstep
  | notifies throws => simpa [Action.ReadsInput] using hinv.notifies hstep

theorem Listener.Inv.run {server : Server} {channel : Str}
    {actions : List Action} {final : Listener}
    (hrun : (handler server channel).run {} actions = some final) :
    final.Inv (actions.any Action.ReadsInput) := by
  refine @Machine.run_history _ _ (handler server channel)
    (fun before listener => listener.Inv (before.any Action.ReadsInput))
    ?_ {} final actions ?_ hrun
  · intro before listener action next hinv hstep
    rw [List.any_append, List.any_cons, List.any_nil, Bool.or_false]
    exact hinv.step hstep
  · constructor <;> simp [Listener.pending]

/-- Nothing is lost, repeated or reordered on the way to the callback.  A loop
that waits without input has handed on all that it was sent once any input has
woken it, and nothing before: what comes with the answer to `LISTEN` is kept
until then.  A loop that ends has handed on all that the connection did not
lose. -/
theorem handler_delivers (server : Server) (channel : Str)
    (actions : List Action) (final : Listener)
    (hrun : (handler server channel).run {} actions = some final) :
    final.delivered <+: final.sent.map PGNotify.result ∧
      (final.Blocked →
        (final.delivered = final.sent.map PGNotify.result ↔
          actions.any Action.ReadsInput = true ∨ final.sent = [])) ∧
      (final.phase = .done →
        final.sent.map PGNotify.result =
          final.delivered ++ final.lost.map PGNotify.result) := by
  have hinv := Listener.Inv.run hrun
  refine ⟨⟨_, hinv.history.symm⟩, ?_, ?_⟩
  · rintro ⟨hphase, hsocket, hnetwork, hopen⟩
    have hhistory := hinv.history
    simp only [Listener.pending, hsocket, hnetwork, hinv.kept hopen,
      List.append_nil] at hhistory
    cases hwoken : actions.any Action.ReadsInput with
    | true =>
        have hempty := hinv.emptied hwoken (by rw [hphase]; rfl)
        simp [hhistory, hempty]
    | false =>
        rw [hinv.asleep hwoken]
        simp [eq_comm]
  · intro hdone
    obtain ⟨hwoken, _, hsocket, hnetwork⟩ :=
      hinv.dropped (hinv.ended hdone)
    have hempty := hinv.emptied hwoken (by rw [hdone]; rfl)
    rw [hinv.history, Listener.pending, hempty, hsocket, hnetwork]
    rfl

/-- A server that listens to whatever follows the keyword. -/
def plainServer : Server where
  listens command := some (command.drop 7)

def orderNotify (extra : Str) : PGNotify where
  relname := "orders".toList
  extra := extra
  bePid := 4711

/-- One notification comes before the answer, and the second one when the loop
waits. -/
def earlyActions : List Action :=
  [.connect true, .execute, .notify (orderNotify "1".toList), .arrive,
    .answer true 1, .socketCheck]

def lateActions : List Action :=
  earlyActions ++
    [.notify (orderNotify "2".toList), .arrive, .select true,
      .consumeInput 1, .notifies false, .notifies false, .notifies false,
      .socketCheck]

def listenerAfter (actions : List Action) : Listener :=
  ((handler plainServer "orders".toList).run {} actions).getD {}

theorem earlyActions_kept_lateActions_delivered :
    (listenerAfter earlyActions).delivered ≠
        (listenerAfter earlyActions).sent.map PGNotify.result ∧
      (listenerAfter lateActions).delivered =
        (listenerAfter lateActions).sent.map PGNotify.result := by
  have hearly := handler_delivers plainServer "orders".toList earlyActions
    (listenerAfter earlyActions) rfl
  have hlate := handler_delivers plainServer "orders".toList lateActions
    (listenerAfter lateActions) rfl
  have hsent : (listenerAfter earlyActions).sent =
      [orderNotify "1".toList] := rfl
  constructor
  · intro hdelivered
    rcases (hearly.2.1 ⟨rfl, rfl, rfl, rfl⟩).mp hdelivered with hread | hnone
    · cases hread
    · rw [hsent] at hnone
      cases hnone
  · exact (hlate.2.1 ⟨rfl, rfl, rfl, rfl⟩).mpr (Or.inl rfl)

end ClientHandler

end StoreCpp
