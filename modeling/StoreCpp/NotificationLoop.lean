import StoreCpp.NotificationTrigger
import StoreCpp.StepMachine
import Mathlib.Data.List.Perm.Basic

/-!
# The loop that receives notifications

`start` runs a thread that receives one message of the queue after another and
passes each to the callback, and `stop` sets a flag that the thread reads
before each turn and then joins it.  The server takes a message out of the
queue when it runs the script that receives it; the client may fail to get
the answer.  The script also ends the conversation of the message, and what
the queue still holds of an ended conversation is dropped.  The flag is never
cleared.
-/

namespace StoreCpp

namespace Notifier

open StepMachine Nvarchar

inductive LoopPhase where
  | ended
  | checking
  | receiving
  | calling
  | sleeping
  deriving DecidableEq

inductive MessageType where
  | notification
  | endDialog
  | error
  deriving DecidableEq

structure QueueMessage where
  convHandle : ℕ
  messageType : MessageType
  messageBody : Option Bytes

def QueueMessage.isNotification (message : QueueMessage) : Bool :=
  message.messageType = .notification

/-- What one turn of the loop gets: a message, nothing within the timeout, or
no answer. -/
inductive Received where
  | message (message : QueueMessage)
  | timeout
  | noAnswer

/-- The value that the turn passes to the callback. -/
def Received.passed : Received → Nullable
  | .message queued => callbackMessage (receiveEvent queued.messageBody)
  | .timeout => callbackMessage (receiveEvent none)
  | .noAnswer => callbackMessage []

def Received.message? : Received → Option QueueMessage
  | .message queued => some queued
  | _ => none

/-- How `quick` ends after the script has run: with its rows, with a failure
that it catches, or with one that it does not. -/
inductive Reply where
  | rows
  | failed
  | uncaught

/-- `joinable` is that of the member `notificationLoopThread`.  `sent`,
`ended`, `lost` and `calls` are the history: the notifications of the trigger,
the messages that were dropped with their conversation, those whose answer the
client did not get, and what the callback was called for. -/
structure NotificationLoop where
  cancel : Bool := false
  joinable : Bool := false
  stopping : Bool := false
  terminated : Bool := false
  phase : LoopPhase := .ended
  queue : List QueueMessage := []
  sent : List QueueMessage := []
  ended : List QueueMessage := []
  lost : List QueueMessage := []
  calls : List Received := []

inductive LoopAction where
  | trigger (message : Option Bytes)
  | expire (convHandle : ℕ) (error : Bytes)
  | start
  | stopFlag
  | stopJoin
  | check
  | receive (index : ℕ) (ends : Bool) (reply : Reply)
  | receiveTimeout
  | receiveFails
  | receiveThrows
  | callbackReturns
  | callbackThrows
  | wake

namespace NotificationLoop

/-- The new thread is moved to the member, which ends the process if the
member still has one. -/
def start (loop : NotificationLoop) : Option NotificationLoop :=
  if loop.stopping then none
  else if loop.joinable then some { loop with terminated := true }
  else some { loop with joinable := true, phase := .checking }

/-- Joining a member without a thread throws; else it waits for the thread to
end. -/
def stopJoin (loop : NotificationLoop) : Option NotificationLoop :=
  if loop.stopping then
    if loop.joinable then
      if loop.phase = .ended then
        some { loop with stopping := false, joinable := false }
      else none
    else some { loop with stopping := false }
  else none

def check (loop : NotificationLoop) : Option NotificationLoop :=
  if loop.phase = .checking then
    some { loop with phase := if loop.cancel then .ended else .receiving }
  else none

/-- The callback is called with what the turn has got. -/
def call (received : Received) (loop : NotificationLoop) :
    NotificationLoop :=
  { loop with phase := .calling, calls := loop.calls ++ [received] }

/-- The trigger begins a dialog, sends the message on it and ends its side,
which puts a message of the broker behind it. -/
def trigger (message : Option Bytes) (loop : NotificationLoop) :
    NotificationLoop :=
  let convHandle := loop.sent.length
  let notification := ⟨convHandle, .notification, message⟩
  { loop with
    queue := loop.queue ++ [notification, ⟨convHandle, .endDialog, none⟩]
    sent := loop.sent ++ [notification] }

/-- The broker tells a conversation that its `LIFETIME` is over. -/
def expire (convHandle : ℕ) (error : Bytes) (loop : NotificationLoop) :
    Option NotificationLoop :=
  if convHandle < loop.sent.length then some { loop with
    queue := loop.queue ++ [⟨convHandle, .error, some error⟩] }
  else none

/-- `END CONVERSATION` drops what the queue holds of the conversation. -/
def endConversation (convHandle : ℕ) (loop : NotificationLoop) :
    NotificationLoop :=
  { loop with
    queue := loop.queue.filter fun message => message.convHandle != convHandle
    ended := loop.ended ++
      loop.queue.filter fun message => message.convHandle == convHandle }

/-- `RECEIVE TOP(1)` gives one of the messages that are the first of their
conversation. -/
def received (index : ℕ) (loop : NotificationLoop) : Option QueueMessage :=
  loop.queue[index]?.filter fun message =>
    (loop.queue.take index).all fun earlier =>
      earlier.convHandle != message.convHandle

/-- The queue after the script, which catches that the conversation could not
be ended. -/
def receiveEvent (index : ℕ) (ends : Bool) (message : QueueMessage)
    (loop : NotificationLoop) : NotificationLoop :=
  let taken := { loop with queue := loop.queue.eraseIdx index }
  if ends then taken.endConversation message.convHandle else taken

def receive (index : ℕ) (ends : Bool) (reply : Reply)
    (loop : NotificationLoop) : Option NotificationLoop :=
  if loop.phase = .receiving then
    (loop.received index).map fun message =>
      let taken := loop.receiveEvent index ends message
      let unanswered := { taken with lost := taken.lost ++ [message] }
      match reply with
      | .rows => taken.call (.message message)
      | .failed => unanswered.call .noAnswer
      | .uncaught => { unanswered with phase := .ended }
  else none

def step (loop : NotificationLoop) (action : LoopAction) :
    Option NotificationLoop :=
  if loop.terminated then none
  else
    match action with
    | .trigger message => some (loop.trigger message)
    | .expire convHandle error => loop.expire convHandle error
    | .start => loop.start
    | .stopFlag =>
        if loop.stopping then none
        else some { loop with cancel := true, stopping := true }
    | .stopJoin => loop.stopJoin
    | .check => loop.check
    | .receive index ends reply => loop.receive index ends reply
    | .receiveTimeout =>
        if loop.phase = .receiving ∧ loop.queue = [] then
          some (loop.call .timeout)
        else none
    | .receiveFails =>
        if loop.phase = .receiving then some (loop.call .noAnswer) else none
    | .receiveThrows =>
        if loop.phase = .receiving then some { loop with phase := .ended }
        else none
    | .callbackReturns =>
        if loop.phase = .calling then some { loop with phase := .sleeping }
        else none
    | .callbackThrows =>
        if loop.phase = .calling then some { loop with phase := .ended }
        else none
    | .wake =>
        if loop.phase = .sleeping then some { loop with phase := .checking }
        else none

end NotificationLoop

def notificationLoop : Machine NotificationLoop LoopAction where
  init loop := loop = {}
  step loop action := loop.step action

namespace NotificationLoop

def notifications (messages : List QueueMessage) : List QueueMessage :=
  messages.filter QueueMessage.isNotification

/-- The messages that the callback was called with. -/
def passed (loop : NotificationLoop) : List QueueMessage :=
  loop.calls.filterMap Received.message?

/-- A notification is the first message of its conversation. -/
def FirstOfConversation (earlier later : QueueMessage) : Prop :=
  later.isNotification = true → earlier.convHandle ≠ later.convHandle

/-- No notification is received twice or made up: what the trigger has sent is
still in the queue, or was lost, or was passed to the callback. -/
structure Inv (loop : NotificationLoop) : Prop where
  conserved : loop.sent.Perm (notifications
    (loop.passed ++ loop.lost ++ loop.queue))
  ended : ∀ message ∈ loop.ended, message.isNotification = false
  begun : ∀ message ∈ loop.queue, message.convHandle < loop.sent.length
  first : loop.queue.Pairwise FirstOfConversation
  joined : loop.joinable = false → loop.phase = .ended

/-- The calls so far, and one that the turn under way will make. -/
def bound (loop : NotificationLoop) : ℕ :=
  loop.calls.length + if loop.phase = .receiving then 1 else 0

/-- What a step does once the flag is set. -/
structure AfterCancel (loop next : NotificationLoop) : Prop where
  cancel : next.cancel = true
  calls : loop.calls <+: next.calls
  bound : next.bound ≤ loop.bound

theorem queue_perm {queue : List QueueMessage} {index : ℕ}
    {message : QueueMessage} (hget : queue[index]? = some message) :
    queue.Perm (message :: queue.eraseIdx index) := by
  obtain ⟨hlt, hmessage⟩ := List.getElem?_eq_some_iff.mp hget
  rw [← hmessage]
  exact (List.getElem_cons_eraseIdx_perm hlt).symm

/-- Behind the message that is received its conversation has no
notification. -/
theorem received_others {loop : NotificationLoop} {index : ℕ}
    {message other : QueueMessage} (hinv : loop.Inv)
    (hreceived : loop.received index = some message)
    (hother : other ∈ loop.queue.eraseIdx index)
    (hsame : other.convHandle = message.convHandle) :
    other.isNotification = false := by
  obtain ⟨hget, hfirst⟩ := Option.filter_eq_some_iff.mp hreceived
  obtain ⟨hlt, hmessage⟩ := List.getElem?_eq_some_iff.mp hget
  rw [List.eraseIdx_eq_take_drop_succ] at hother
  rcases List.mem_append.mp hother with hbefore | hafter
  · have hne := List.all_eq_true.mp hfirst other hbefore
    rw [hsame, bne_self_eq_false] at hne
    cases hne
  · have hpairs := hinv.first.sublist (List.drop_sublist index loop.queue)
    rw [List.drop_eq_getElem_cons hlt, hmessage] at hpairs
    cases hnotification : other.isNotification with
    | false => rfl
    | true =>
        have hne := (List.pairwise_cons.mp hpairs).1 other hafter hnotification
        exact absurd hsame.symm hne

/-- The script takes the message out of the queue, and no other
notification. -/
theorem receiveEvent_notifications {loop : NotificationLoop} {index : ℕ}
    {message : QueueMessage} (ends : Bool) (hinv : loop.Inv)
    (hreceived : loop.received index = some message) :
    (notifications loop.queue).Perm
      (notifications (message :: (loop.receiveEvent index ends message).queue))
    := by
  have hget := (Option.filter_eq_some_iff.mp hreceived).1
  refine ((queue_perm hget).filter _).trans ?_
  have hkept : notifications (loop.receiveEvent index ends message).queue =
      notifications (loop.queue.eraseIdx index) := by
    cases ends with
    | false => rfl
    | true =>
        change List.filter _ (List.filter _ _) = List.filter _ _
        rw [List.filter_filter]
        refine List.filter_congr fun other hother => ?_
        by_cases hsame : other.convHandle = message.convHandle
        · rw [received_others hinv hreceived hother hsame, Bool.false_and]
        · rw [bne_iff_ne.mpr hsame, Bool.and_true]
  have hcons : ∀ queue, notifications (message :: queue) =
      notifications [message] ++ notifications queue := fun queue =>
    List.filter_append [message] queue
  rw [hcons, hkept, ← hcons]
  exact List.Perm.refl _

@[simp] theorem receiveEvent_cancel (loop : NotificationLoop) (index : ℕ)
    (ends : Bool) (message : QueueMessage) :
    (loop.receiveEvent index ends message).cancel = loop.cancel := by
  cases ends <;> rfl

@[simp] theorem receiveEvent_joinable (loop : NotificationLoop) (index : ℕ)
    (ends : Bool) (message : QueueMessage) :
    (loop.receiveEvent index ends message).joinable = loop.joinable := by
  cases ends <;> rfl

@[simp] theorem receiveEvent_sent (loop : NotificationLoop) (index : ℕ)
    (ends : Bool) (message : QueueMessage) :
    (loop.receiveEvent index ends message).sent = loop.sent := by
  cases ends <;> rfl

@[simp] theorem receiveEvent_lost (loop : NotificationLoop) (index : ℕ)
    (ends : Bool) (message : QueueMessage) :
    (loop.receiveEvent index ends message).lost = loop.lost := by
  cases ends <;> rfl

@[simp] theorem receiveEvent_calls (loop : NotificationLoop) (index : ℕ)
    (ends : Bool) (message : QueueMessage) :
    (loop.receiveEvent index ends message).calls = loop.calls := by
  cases ends <;> rfl

theorem receiveEvent_sublist {loop : NotificationLoop} {index : ℕ}
    {message : QueueMessage} (ends : Bool) :
    (loop.receiveEvent index ends message).queue.Sublist loop.queue := by
  cases ends with
  | false => exact List.eraseIdx_sublist ..
  | true => exact List.filter_sublist.trans (List.eraseIdx_sublist ..)

theorem receiveEvent_ended {loop : NotificationLoop} {index : ℕ}
    {message : QueueMessage} (ends : Bool) (hinv : loop.Inv)
    (hreceived : loop.received index = some message) :
    ∀ other ∈ (loop.receiveEvent index ends message).ended,
      other.isNotification = false := by
  cases ends with
  | false => exact hinv.ended
  | true =>
      intro other hother
      rcases List.mem_append.mp hother with hbefore | hnow
      · exact hinv.ended other hbefore
      · obtain ⟨hmem, hsame⟩ := List.mem_filter.mp hnow
        exact received_others hinv hreceived hmem (beq_iff_eq.mp hsame)

/-- A loop that is not at its end has not been joined. -/
theorem Inv.of_running {loop : NotificationLoop} (hinv : loop.Inv)
    {running : LoopPhase} (hphase : loop.phase = running)
    (hrunning : running ≠ .ended) (phase : LoopPhase)
    (hjoinable : loop.joinable = false) : phase = .ended :=
  absurd (hphase.symm.trans (hinv.joined hjoinable)) hrunning

theorem Inv.call {loop : NotificationLoop} (hinv : loop.Inv)
    (hphase : loop.phase = .receiving) {received : Received}
    (hmessage : received.message? = none) : (loop.call received).Inv :=
  { hinv with
    conserved := by
      have hpassed : (loop.call received).passed = loop.passed := by
        simp [passed, NotificationLoop.call, hmessage]
      rw [hpassed]
      exact hinv.conserved
    joined := hinv.of_running hphase (by decide) _ }

theorem notifications_append (before after : List QueueMessage) :
    notifications (before ++ after) =
      notifications before ++ notifications after :=
  List.filter_append before after

/-- A message that was taken is passed or lost. -/
theorem Inv.taken {loop next : NotificationLoop} {index : ℕ} {ends : Bool}
    {message : QueueMessage} (hinv : loop.Inv)
    (hreceived : loop.received index = some message)
    (hsent : next.sent = loop.sent)
    (hqueue : next.queue = (loop.receiveEvent index ends message).queue)
    (hended : next.ended = (loop.receiveEvent index ends message).ended)
    (hhistory : (next.passed ++ next.lost).Perm
      (message :: (loop.passed ++ loop.lost)))
    (hjoined : next.joinable = false → next.phase = .ended) : next.Inv where
  conserved := by
    have hbefore := hinv.conserved
    rw [notifications_append] at hbefore
    rw [hsent, hqueue]
    refine hbefore.trans ?_
    refine ((receiveEvent_notifications ends hinv hreceived).append_left
      _).trans ?_
    rw [← notifications_append]
    refine List.Perm.filter _ (List.perm_middle.trans ?_)
    exact (hhistory.append_right _).symm
  ended := by
    rw [hended]
    exact receiveEvent_ended ends hinv hreceived
  begun := by
    rw [hsent, hqueue]
    exact fun other hother =>
      hinv.begun other ((receiveEvent_sublist ends).subset hother)
  first := by
    rw [hqueue]
    exact hinv.first.sublist (receiveEvent_sublist ends)
  joined := hjoined

theorem Inv.receive {loop next : NotificationLoop} {index : ℕ} {ends : Bool}
    {reply : Reply} (hinv : loop.Inv)
    (hstep : loop.receive index ends reply = some next) : next.Inv := by
  unfold NotificationLoop.receive at hstep
  rw [Option.ite_none_right_eq_some] at hstep
  obtain ⟨hphase, hstep⟩ := hstep
  obtain ⟨message, hreceived, hnext⟩ := Option.map_eq_some_iff.mp hstep
  have hjoined := hinv.of_running hphase (by decide)
  have hlost : (loop.passed ++ (loop.lost ++ [message])).Perm
      (message :: (loop.passed ++ loop.lost)) := by
    rw [← List.append_assoc]
    exact List.perm_append_singleton _ _
  subst next
  cases reply with
  | rows =>
      refine hinv.taken hreceived (receiveEvent_sent ..) rfl rfl ?_ ?_
      · simp only [passed, NotificationLoop.call, receiveEvent_calls,
          receiveEvent_lost, List.filterMap_append, List.filterMap_cons,
          List.filterMap_nil, Received.message?]
        rw [List.append_assoc, List.singleton_append]
        exact List.perm_middle
      · intro hnone
        exact hjoined _ ((receiveEvent_joinable ..).symm.trans hnone)
  | failed =>
      refine hinv.taken hreceived (receiveEvent_sent ..) rfl rfl ?_ ?_
      · simpa [passed, NotificationLoop.call, List.filterMap_cons,
          Received.message?] using hlost
      · intro hnone
        exact hjoined _ ((receiveEvent_joinable ..).symm.trans hnone)
  | uncaught =>
      refine hinv.taken hreceived (receiveEvent_sent ..) rfl rfl ?_
        fun _ => rfl
      simpa [passed] using hlost

/-- A new conversation starts with its notification. -/
theorem Inv.trigger {loop : NotificationLoop} (message : Option Bytes)
    (hinv : loop.Inv) : (loop.trigger message).Inv where
  conserved := by
    have hnew : notifications [⟨loop.sent.length, .notification, message⟩,
        ⟨loop.sent.length, .endDialog, none⟩] =
          [⟨loop.sent.length, .notification, message⟩] := rfl
    change (loop.sent ++ _).Perm (notifications
      (loop.passed ++ loop.lost ++ (loop.queue ++ _)))
    rw [← List.append_assoc, notifications_append, hnew]
    exact hinv.conserved.append_right _
  ended := hinv.ended
  begun := by
    intro queued hqueued
    change queued.convHandle < (loop.sent ++ [_]).length
    rw [List.length_append]
    rcases List.mem_append.mp hqueued with hbefore | hnow
    · exact Nat.lt_add_right _ (hinv.begun queued hbefore)
    · simp only [List.mem_cons, List.not_mem_nil, or_false] at hnow
      rcases hnow with rfl | rfl
      · exact Nat.lt_succ_self _
      · exact Nat.lt_succ_self _
  first := by
    refine List.pairwise_append.mpr ⟨hinv.first, ?_, ?_⟩
    · refine List.pairwise_pair.mpr fun hnotification => ?_
      cases hnotification
    · intro earlier hearlier later hlater _ hsame
      have hbegun := hinv.begun earlier hearlier
      simp only [List.mem_cons, List.not_mem_nil, or_false] at hlater
      rcases hlater with rfl | rfl
      · exact absurd hsame (Nat.ne_of_lt hbegun)
      · exact absurd hsame (Nat.ne_of_lt hbegun)
  joined := hinv.joined

theorem Inv.expire {loop next : NotificationLoop} {convHandle : ℕ}
    {error : Bytes} (hinv : loop.Inv)
    (hstep : loop.expire convHandle error = some next) : next.Inv := by
  unfold NotificationLoop.expire at hstep
  rw [Option.ite_none_right_eq_some] at hstep
  obtain ⟨hbegun, hnext⟩ := hstep
  cases hnext
  refine { hinv with conserved := ?_, begun := ?_, first := ?_ }
  · have hnew : notifications [⟨convHandle, .error, some error⟩] = [] := rfl
    change loop.sent.Perm (notifications
      (loop.passed ++ loop.lost ++ (loop.queue ++ _)))
    rw [← List.append_assoc, notifications_append, hnew, List.append_nil]
    exact hinv.conserved
  · intro queued hqueued
    rcases List.mem_append.mp hqueued with hbefore | hnow
    · exact hinv.begun queued hbefore
    · rw [List.mem_singleton.mp hnow]
      exact hbegun
  · refine List.pairwise_append.mpr ⟨hinv.first, List.pairwise_singleton .., ?_⟩
    intro earlier _ later hlater hnotification
    rw [List.mem_singleton.mp hlater] at hnotification
    cases hnotification

theorem Inv.step {loop next : NotificationLoop} {action : LoopAction}
    (hinv : loop.Inv) (hstep : loop.step action = some next) : next.Inv := by
  unfold NotificationLoop.step at hstep
  rw [Option.ite_none_left_eq_some] at hstep
  obtain ⟨_, hstep⟩ := hstep
  cases action with
  | trigger message =>
      cases hstep
      exact hinv.trigger message
  | expire convHandle error => exact hinv.expire hstep
  | start =>
      simp only [NotificationLoop.start] at hstep
      split_ifs at hstep with hstopping hjoinable
      · cases hstep
        exact { hinv with }
      · cases hstep
        exact { hinv with joined := fun hnone => by cases hnone }
  | stopFlag =>
      rw [Option.ite_none_left_eq_some] at hstep
      cases hstep.2
      exact { hinv with }
  | stopJoin =>
      simp only [NotificationLoop.stopJoin] at hstep
      split_ifs at hstep with hstopping hjoinable hended
      · cases hstep
        exact { hinv with joined := fun _ => hended }
      · cases hstep
        exact { hinv with }
  | check =>
      simp only [NotificationLoop.check] at hstep
      rw [Option.ite_none_right_eq_some] at hstep
      obtain ⟨hphase, hnext⟩ := hstep
      cases hnext
      exact { hinv with joined := hinv.of_running hphase (by decide) _ }
  | receive index ends reply => exact hinv.receive hstep
  | receiveTimeout =>
      rw [Option.ite_none_right_eq_some] at hstep
      obtain ⟨⟨hphase, _⟩, hnext⟩ := hstep
      cases hnext
      exact hinv.call hphase rfl
  | receiveFails =>
      rw [Option.ite_none_right_eq_some] at hstep
      obtain ⟨hphase, hnext⟩ := hstep
      cases hnext
      exact hinv.call hphase rfl
  | receiveThrows =>
      rw [Option.ite_none_right_eq_some] at hstep
      obtain ⟨_, hnext⟩ := hstep
      cases hnext
      exact { hinv with joined := fun _ => rfl }
  | callbackReturns =>
      rw [Option.ite_none_right_eq_some] at hstep
      obtain ⟨hphase, hnext⟩ := hstep
      cases hnext
      exact { hinv with joined := hinv.of_running hphase (by decide) _ }
  | callbackThrows =>
      rw [Option.ite_none_right_eq_some] at hstep
      obtain ⟨_, hnext⟩ := hstep
      cases hnext
      exact { hinv with joined := fun _ => rfl }
  | wake =>
      rw [Option.ite_none_right_eq_some] at hstep
      obtain ⟨hphase, hnext⟩ := hstep
      cases hnext
      exact { hinv with joined := hinv.of_running hphase (by decide) _ }

/-- Where the thread does not turn to the queue, nothing is called. -/
theorem afterCancel_of_phase {loop next : NotificationLoop}
    (hcancel : next.cancel = true) (hcalls : next.calls = loop.calls)
    (hphase : next.phase = .receiving → loop.phase = .receiving) :
    loop.AfterCancel next where
  cancel := hcancel
  calls := by rw [hcalls]
  bound := by
    unfold NotificationLoop.bound
    rw [hcalls]
    by_cases hreceiving : next.phase = .receiving
    · rw [if_pos hreceiving, if_pos (hphase hreceiving)]
    · rw [if_neg hreceiving]
      exact Nat.le_add_right _ _

/-- A turn that has started calls once. -/
theorem afterCancel_of_call {loop next : NotificationLoop}
    {received : Received} (hcancel : next.cancel = true)
    (hphase : loop.phase = .receiving)
    (hcalls : next.calls = loop.calls ++ [received])
    (hcalling : next.phase = .calling) : loop.AfterCancel next where
  cancel := hcancel
  calls := hcalls ▸ List.prefix_append _ _
  bound := by
    simp [NotificationLoop.bound, hphase, hcalls, hcalling]

theorem AfterCancel.receive {loop next : NotificationLoop} {index : ℕ}
    {ends : Bool} {reply : Reply} (hcancel : loop.cancel = true)
    (hstep : loop.receive index ends reply = some next) :
    loop.AfterCancel next := by
  unfold NotificationLoop.receive at hstep
  rw [Option.ite_none_right_eq_some] at hstep
  obtain ⟨hphase, hstep⟩ := hstep
  obtain ⟨message, _, hnext⟩ := Option.map_eq_some_iff.mp hstep
  have hkept := (receiveEvent_cancel loop index ends message).trans hcancel
  have hcalls := receiveEvent_calls loop index ends message
  subst next
  cases reply with
  | rows =>
      exact afterCancel_of_call hkept hphase (congrArg (· ++ _) hcalls) rfl
  | failed =>
      exact afterCancel_of_call hkept hphase (congrArg (· ++ _) hcalls) rfl
  | uncaught =>
      exact afterCancel_of_phase hkept hcalls fun hphase => by cases hphase

theorem AfterCancel.of_step {loop next : NotificationLoop}
    {action : LoopAction} (hcancel : loop.cancel = true)
    (hstep : loop.step action = some next) : loop.AfterCancel next := by
  unfold NotificationLoop.step at hstep
  rw [Option.ite_none_left_eq_some] at hstep
  obtain ⟨_, hstep⟩ := hstep
  cases action with
  | trigger message =>
      cases hstep
      exact afterCancel_of_phase hcancel rfl id
  | expire convHandle error =>
      simp only [NotificationLoop.expire] at hstep
      rw [Option.ite_none_right_eq_some] at hstep
      cases hstep.2
      exact afterCancel_of_phase hcancel rfl id
  | start =>
      simp only [NotificationLoop.start] at hstep
      split_ifs at hstep with hstopping hjoinable
      · cases hstep
        exact afterCancel_of_phase hcancel rfl id
      · cases hstep
        exact afterCancel_of_phase hcancel rfl fun hphase => by cases hphase
  | stopFlag =>
      rw [Option.ite_none_left_eq_some] at hstep
      cases hstep.2
      exact afterCancel_of_phase rfl rfl id
  | stopJoin =>
      simp only [NotificationLoop.stopJoin] at hstep
      split_ifs at hstep with hstopping hjoinable hended
      · cases hstep
        exact afterCancel_of_phase hcancel rfl id
      · cases hstep
        exact afterCancel_of_phase hcancel rfl id
  | check =>
      simp only [NotificationLoop.check] at hstep
      rw [Option.ite_none_right_eq_some, if_pos hcancel] at hstep
      cases hstep.2
      exact afterCancel_of_phase hcancel rfl fun hphase => by cases hphase
  | receive index ends reply => exact AfterCancel.receive hcancel hstep
  | receiveTimeout =>
      rw [Option.ite_none_right_eq_some] at hstep
      obtain ⟨⟨hphase, _⟩, hnext⟩ := hstep
      cases hnext
      exact afterCancel_of_call hcancel hphase rfl rfl
  | receiveFails =>
      rw [Option.ite_none_right_eq_some] at hstep
      obtain ⟨hphase, hnext⟩ := hstep
      cases hnext
      exact afterCancel_of_call hcancel hphase rfl rfl
  | receiveThrows =>
      rw [Option.ite_none_right_eq_some] at hstep
      cases hstep.2
      exact afterCancel_of_phase hcancel rfl fun hphase => by cases hphase
  | callbackReturns =>
      rw [Option.ite_none_right_eq_some] at hstep
      cases hstep.2
      exact afterCancel_of_phase hcancel rfl fun hphase => by cases hphase
  | callbackThrows =>
      rw [Option.ite_none_right_eq_some] at hstep
      cases hstep.2
      exact afterCancel_of_phase hcancel rfl fun hphase => by cases hphase
  | wake =>
      rw [Option.ite_none_right_eq_some] at hstep
      cases hstep.2
      exact afterCancel_of_phase hcancel rfl fun hphase => by cases hphase

theorem Inv.run {actions : List LoopAction} {final : NotificationLoop}
    (hrun : notificationLoop.run {} actions = some final) : final.Inv := by
  refine @Machine.run_invariant _ _ notificationLoop
    (fun loop => loop.Inv) ?_ {} final actions hrun ?_
  · intro loop action next hinv hstep
    exact hinv.step hstep
  · exact ⟨List.Perm.refl _, by simp, by simp, List.Pairwise.nil,
      fun _ => rfl⟩

theorem AfterCancel.run {middle final : NotificationLoop}
    {actions : List LoopAction} (hcancel : middle.cancel = true)
    (hrun : notificationLoop.run middle actions = some final) :
    middle.AfterCancel final := by
  refine @Machine.run_invariant _ _ notificationLoop
    (fun loop => middle.AfterCancel loop) ?_ middle final actions hrun ?_
  · intro loop action next hloop hstep
    have hnext := AfterCancel.of_step hloop.cancel hstep
    exact ⟨hnext.cancel, hloop.calls.trans hnext.calls,
      hnext.bound.trans hloop.bound⟩
  · exact ⟨hcancel, List.prefix_refl _, le_refl _⟩

end NotificationLoop

/-- A notification of the trigger is passed to the callback at most once: it
still waits, or its answer was lost, or it was passed.  What is dropped with a
conversation are messages of the broker. -/
theorem notificationLoop_passesOnce (actions : List LoopAction)
    (final : NotificationLoop)
    (hrun : notificationLoop.run {} actions = some final) :
    final.sent.Perm (NotificationLoop.notifications
      (final.passed ++ final.lost ++ final.queue)) ∧
    ∀ message ∈ final.ended, message.isNotification = false :=
  have hinv := NotificationLoop.Inv.run hrun
  ⟨hinv.conserved, hinv.ended⟩

/-- Once `stop` has set the flag the callback is called at most once more, and
once it has joined the thread never again, not even by a new `start`. -/
theorem notificationLoop_stops (before after : List LoopAction)
    (middle final : NotificationLoop)
    (hbefore : notificationLoop.run {} before = some middle)
    (hcancel : middle.cancel = true)
    (hafter : notificationLoop.run middle after = some final) :
    middle.calls <+: final.calls ∧
      final.calls.length ≤ middle.calls.length + 1 ∧
      (middle.joinable = false → final.calls = middle.calls) := by
  have hinv := NotificationLoop.Inv.run hbefore
  have hlater := NotificationLoop.AfterCancel.run hcancel hafter
  have hbound := hlater.bound
  refine ⟨hlater.calls, ?_, fun hjoined => ?_⟩
  · unfold NotificationLoop.bound at hbound
    split_ifs at hbound <;> omega
  · have hended := hinv.joined hjoined
    have hlength : final.calls.length ≤ middle.calls.length := by
      unfold NotificationLoop.bound at hbound
      rw [hended] at hbound
      simp only [reduceCtorEq, if_false] at hbound
      omega
    exact (hlater.calls.eq_of_length_le hlength).symm

/-- The broker's message goes with the first conversation. -/
def stoppedTurn : List LoopAction :=
  [.start, .trigger none, .trigger (some [0x41, 0]), .check, .stopFlag,
    .receive 0 true .rows, .callbackReturns, .wake, .check, .stopJoin]

/-- After the restart nothing is received any more. -/
def restarted : List LoopAction := [.start, .check]

def loopAfter (loop : NotificationLoop) (actions : List LoopAction) :
    NotificationLoop :=
  (notificationLoop.run loop actions).getD loop

theorem stoppedTurn_passesOnce :
    notificationLoop.run {} stoppedTurn = some (loopAfter {} stoppedTurn) ∧
      (loopAfter {} stoppedTurn).ended = [⟨0, .endDialog, none⟩] ∧
      (loopAfter {} stoppedTurn).sent.Perm (NotificationLoop.notifications
        ((loopAfter {} stoppedTurn).passed ++
          (loopAfter {} stoppedTurn).lost ++
            (loopAfter {} stoppedTurn).queue)) :=
  ⟨rfl, rfl,
    (notificationLoop_passesOnce stoppedTurn (loopAfter {} stoppedTurn)
      rfl).1⟩

theorem restarted_calls :
    (loopAfter (loopAfter {} stoppedTurn) restarted).calls =
      (loopAfter {} stoppedTurn).calls :=
  (notificationLoop_stops stoppedTurn restarted (loopAfter {} stoppedTurn)
    (loopAfter (loopAfter {} stoppedTurn) restarted) rfl rfl rfl).2.2 rfl

end Notifier

end StoreCpp
