import StoreCpp.Extensions
import StoreCpp.StepMachine

/-!
# The query loop of the MySQL client

`connectAsync` starts a chain of three operations, connect, query and store,
each of which starts the next one in its handler whether it has failed or not,
and then runs the `io_service`.  The service stops when the last work is done,
and a later `run` returns at once.  A handler that throws leaves `run` and is
no work any more either; whether the thread of the connector still holds some
at that moment is not the client's to say.
-/

namespace StoreCpp

namespace MyBaseClient

open StepMachine

structure Call where
  stmt : Str
  handleResult : ℕ

/-- An operation that the connector has not completed, with the statement it
belongs to. -/
inductive Pending where
  | connect (stmt : Str)
  | query (stmt : Str)
  | storeResult (stmt : Str)

def Pending.stmt : Pending → Str
  | .connect stmt => stmt
  | .query stmt => stmt
  | .storeResult stmt => stmt

/-- What the statement has been sent as already. -/
def Pending.sent : Pending → List Str
  | .connect _ => []
  | .query stmt => [stmt]
  | .storeResult stmt => [stmt]

structure ErrorCode where
  value : ℤ

def ErrorCode.failed (ec : ErrorCode) : Bool := ec.value ≠ 0

/-- `workLeft`: the service has other work than the handler that throws. -/
inductive HandlerOutcome where
  | returns
  | throws (workLeft : Bool)
  deriving DecidableEq

def HandlerOutcome.threw : HandlerOutcome → Bool
  | .returns => false
  | .throws _ => true

/-- A call of a user's handler with the result of a statement. -/
structure Invocation where
  handleResult : ℕ
  stmt : Str
  ec : ErrorCode
  threw : Bool

def Invocation.call (invocation : Invocation) : Call where
  stmt := invocation.stmt
  handleResult := invocation.handleResult

/-- `calls`, `queries` and `invoked` record the history. -/
structure QueryLoop where
  stopped : Bool := false
  running : Bool := false
  pending : List Pending := []
  userResultCallback : Option ℕ := none
  printed : List ErrorCode := []
  calls : List Call := []
  queries : List Str := []
  invoked : List Invocation := []

inductive LoopAction where
  | connectAsync (call : Call)
  | complete (index : ℕ) (ec : ErrorCode) (outcome : HandlerOutcome)
  | runReturns

/-- What has been printed to the error stream, after `check_error`. -/
def checkError (ec : ErrorCode) (printed : List ErrorCode) :
    List ErrorCode :=
  if ec.failed then printed ++ [ec] else printed

/-- `connectAsync` up to the loop inside `run`. -/
def QueryLoop.connectAsync (call : Call) (loop : QueryLoop) :
    Option QueryLoop :=
  if loop.running then none
  else some { loop with
    userResultCallback := some call.handleResult
    pending := loop.pending ++ [.connect call.stmt]
    running := !loop.stopped
    calls := loop.calls ++ [call] }

def QueryLoop.onConnect (ec : ErrorCode) (stmt : Str) (loop : QueryLoop) :
    QueryLoop :=
  { loop with
    printed := checkError ec loop.printed
    pending := loop.pending ++ [.query stmt]
    queries := loop.queries ++ [stmt] }

def QueryLoop.onQuery (ec : ErrorCode) (stmt : Str) (loop : QueryLoop) :
    QueryLoop :=
  { loop with
    printed := checkError ec loop.printed
    pending := loop.pending ++ [.storeResult stmt] }

/-- An exception of the user's handler ends `run`, and `connectAsync` prints
it. -/
def QueryLoop.onResult (ec : ErrorCode) (outcome : HandlerOutcome)
    (stmt : Str) (loop : QueryLoop) : Option QueryLoop :=
  loop.userResultCallback.map fun handleResult =>
    { loop with
      printed := checkError ec loop.printed
      running := !outcome.threw
      stopped := loop.stopped || outcome = .throws false
      invoked := loop.invoked ++ [⟨handleResult, stmt, ec, outcome.threw⟩] }

/-- `run` calls the handler of an operation that has completed. -/
def QueryLoop.complete (index : ℕ) (ec : ErrorCode)
    (outcome : HandlerOutcome) (loop : QueryLoop) : Option QueryLoop :=
  if loop.running then
    let rest := { loop with pending := loop.pending.eraseIdx index }
    match loop.pending[index]? with
    | none => none
    | some (.connect stmt) => some (rest.onConnect ec stmt)
    | some (.query stmt) => some (rest.onQuery ec stmt)
    | some (.storeResult stmt) => rest.onResult ec outcome stmt
  else none

def QueryLoop.runReturns (loop : QueryLoop) : Option QueryLoop :=
  if loop.running ∧ loop.pending.isEmpty then
    some { loop with running := false, stopped := true }
  else none

def QueryLoop.step (loop : QueryLoop) : LoopAction → Option QueryLoop
  | .connectAsync call => loop.connectAsync call
  | .complete index ec outcome => loop.complete index ec outcome
  | .runReturns => loop.runReturns

def queryLoop : Machine QueryLoop LoopAction where
  init loop := loop = {}
  step := QueryLoop.step

/-- The four stages of the loop: between two calls while the service can be
run, with an operation of the last call, with nothing left to do, and
stopped. -/
inductive QueryLoop.Stage (loop : QueryLoop) : Prop where
  | ready (hidle : loop.running = false) (hrunnable : loop.stopped = false)
      (hpending : loop.pending = [])
      (hcalls : loop.calls = loop.invoked.map Invocation.call)
      (hqueries : loop.queries = loop.invoked.map Invocation.stmt)
      (hthrew : ∀ invocation ∈ loop.invoked, invocation.threw = true)
  | working (op : Pending) (handleResult : ℕ)
      (hrunning : loop.running = true) (hrunnable : loop.stopped = false)
      (hpending : loop.pending = [op])
      (hcallback : loop.userResultCallback = some handleResult)
      (hcalls : loop.calls =
        loop.invoked.map Invocation.call ++ [⟨op.stmt, handleResult⟩])
      (hqueries : loop.queries =
        loop.invoked.map Invocation.stmt ++ op.sent)
      (hthrew : ∀ invocation ∈ loop.invoked, invocation.threw = true)
  | drained (before : List Invocation) (last : Invocation)
      (hrunning : loop.running = true) (hrunnable : loop.stopped = false)
      (hpending : loop.pending = [])
      (hinvoked : loop.invoked = before ++ [last])
      (hcalls : loop.calls = loop.invoked.map Invocation.call)
      (hqueries : loop.queries = loop.invoked.map Invocation.stmt)
      (hthrew : ∀ invocation ∈ before, invocation.threw = true)
  | ended (before : List Invocation) (last : Invocation)
      (hidle : loop.running = false) (hstopped : loop.stopped = true)
      (hinvoked : loop.invoked = before ++ [last])
      (hcalls : loop.invoked.map Invocation.call <+: loop.calls)
      (hqueries : loop.queries = loop.invoked.map Invocation.stmt)
      (hthrew : ∀ invocation ∈ before, invocation.threw = true)

namespace QueryLoop.Stage

variable {loop next : QueryLoop}

theorem connectAsync {call : Call} (hstage : loop.Stage)
    (hstep : loop.connectAsync call = some next) : next.Stage := by
  unfold QueryLoop.connectAsync at hstep
  cases hstage with
  | ready hidle hrunnable hpending hcalls hqueries hthrew =>
      rw [hidle] at hstep
      cases hstep
      refine .working (.connect call.stmt) call.handleResult ?_ hrunnable ?_
        rfl ?_ ?_ hthrew
      · rw [hrunnable]
        rfl
      · rw [hpending]
        rfl
      · rw [hcalls]
        rfl
      · rw [hqueries]
        exact (List.append_nil _).symm
  | working _ _ hrunning =>
      rw [hrunning] at hstep
      cases hstep
  | drained _ _ hrunning =>
      rw [hrunning] at hstep
      cases hstep
  | ended before last hidle hstopped hinvoked hcalls hqueries hthrew =>
      rw [hidle] at hstep
      cases hstep
      refine .ended before last ?_ hstopped hinvoked ?_ hqueries hthrew
      · rw [hstopped]
        rfl
      · exact hcalls.trans (List.prefix_append _ _)

/-- The user's handler is called with the result of its own statement. -/
theorem invoke {stmt : Str} {handleResult : ℕ} {ec : ErrorCode}
    {outcome : HandlerOutcome} (hrunnable : loop.stopped = false)
    (hcallback : loop.userResultCallback = some handleResult)
    (hcalls : loop.calls =
      loop.invoked.map Invocation.call ++ [⟨stmt, handleResult⟩])
    (hqueries : loop.queries = loop.invoked.map Invocation.stmt ++ [stmt])
    (hthrew : ∀ invocation ∈ loop.invoked, invocation.threw = true)
    (hstep : ({ loop with pending := [] } : QueryLoop).onResult ec outcome
      stmt = some next) : next.Stage := by
  obtain ⟨other, hother, heq⟩ := Option.map_eq_some_iff.mp hstep
  cases hcallback.symm.trans hother
  cases heq
  have hallCalls : loop.calls = List.map Invocation.call
      (loop.invoked ++ [⟨handleResult, stmt, ec, outcome.threw⟩]) := by
    rw [hcalls, List.map_append]
    rfl
  have hallQueries : loop.queries = List.map Invocation.stmt
      (loop.invoked ++ [⟨handleResult, stmt, ec, outcome.threw⟩]) := by
    rw [hqueries, List.map_append]
    rfl
  cases outcome with
  | returns =>
      exact .drained loop.invoked _ rfl (by simp [hrunnable]) rfl rfl hallCalls
        hallQueries hthrew
  | throws workLeft =>
      cases workLeft with
      | true =>
          refine .ready rfl (by simp [hrunnable]) rfl hallCalls hallQueries ?_
          intro invocation hmem
          rcases List.mem_append.mp hmem with hmem | hmem
          · exact hthrew invocation hmem
          · rw [List.mem_singleton.mp hmem]
            rfl
      | false =>
          refine .ended loop.invoked _ rfl (by simp) rfl ?_ hallQueries hthrew
          change _ <+: loop.calls
          rw [hallCalls]

theorem complete {index : ℕ} {ec : ErrorCode} {outcome : HandlerOutcome}
    (hstage : loop.Stage)
    (hstep : loop.complete index ec outcome = some next) : next.Stage := by
  unfold QueryLoop.complete at hstep
  cases hstage with
  | ready hidle =>
      rw [hidle] at hstep
      cases hstep
  | ended _ _ hidle =>
      rw [hidle] at hstep
      cases hstep
  | drained _ _ hrunning _ hpending =>
      rw [hrunning, if_pos rfl, hpending] at hstep
      cases hstep
  | working op handleResult hrunning hrunnable hpending hcallback hcalls
      hqueries hthrew =>
      rw [hrunning, if_pos rfl, hpending] at hstep
      cases index with
      | succ index => cases hstep
      | zero =>
          cases op with
          | connect stmt =>
              cases hstep
              refine .working (.query stmt) handleResult rfl hrunnable rfl
                hcallback hcalls ?_ hthrew
              change loop.queries ++ [stmt] = _
              rw [hqueries]
              exact congrArg (· ++ [stmt]) (List.append_nil _)
          | query stmt =>
              cases hstep
              exact .working (.storeResult stmt) handleResult rfl hrunnable rfl
                hcallback hcalls hqueries hthrew
          | storeResult stmt =>
              exact invoke hrunnable hcallback hcalls hqueries hthrew hstep

theorem runReturns (hstage : loop.Stage)
    (hstep : loop.runReturns = some next) : next.Stage := by
  unfold QueryLoop.runReturns at hstep
  obtain ⟨⟨hrunning, hempty⟩, heq⟩ := Option.ite_none_right_eq_some.mp hstep
  cases heq
  cases hstage with
  | ready hidle =>
      rw [hidle] at hrunning
      cases hrunning
  | ended _ _ hidle =>
      rw [hidle] at hrunning
      cases hrunning
  | working _ _ _ _ hpending =>
      rw [hpending] at hempty
      cases hempty
  | drained before last _ _ _ hinvoked hcalls hqueries hthrew =>
      refine .ended before last rfl rfl hinvoked ?_ hqueries hthrew
      change _ <+: loop.calls
      rw [hcalls]

theorem run {final : QueryLoop} {actions : List LoopAction}
    (hrun : queryLoop.run {} actions = some final) : final.Stage := by
  refine Machine.run_invariant ?_ hrun ?_
  · intro state action next hstage hstep
    cases action with
    | connectAsync call => exact hstage.connectAsync hstep
    | complete index ec outcome => exact hstage.complete hstep
    | runReturns => exact hstage.runReturns hstep
  · exact .ready rfl rfl rfl rfl rfl (by simp)

theorem idle_of_stopped (hstage : loop.Stage)
    (hstopped : loop.stopped = true) : loop.running = false := by
  cases hstage with
  | ready hidle => exact hidle
  | working _ _ _ hrunnable =>
      rw [hrunnable] at hstopped
      cases hstopped
  | drained _ _ _ hrunnable =>
      rw [hrunnable] at hstopped
      cases hstopped
  | ended _ _ hidle => exact hidle

end QueryLoop.Stage

/-- What stays as it is in a later state. -/
structure QueryLoop.Unanswering (loop later : QueryLoop) : Prop where
  stopped : later.stopped = true
  idle : later.running = false
  invoked : later.invoked = loop.invoked
  queries : later.queries = loop.queries

theorem QueryLoop.Unanswering.step {loop later next : QueryLoop}
    {action : LoopAction} (hlater : loop.Unanswering later)
    (hstep : later.step action = some next) : loop.Unanswering next := by
  cases action with
  | connectAsync call =>
      simp only [QueryLoop.step, QueryLoop.connectAsync, hlater.idle,
        Bool.false_eq_true, if_false, Option.some.injEq] at hstep
      subst next
      exact { hlater with idle := by simp [hlater.stopped] }
  | complete index ec outcome =>
      simp [QueryLoop.step, QueryLoop.complete, hlater.idle] at hstep
  | runReturns =>
      simp [QueryLoop.step, QueryLoop.runReturns, hlater.idle] at hstep

/-- A stopped service answers no call any more. -/
theorem QueryLoop.Unanswering.run {loop later : QueryLoop}
    {actions : List LoopAction} (hstopped : loop.stopped = true)
    (hidle : loop.running = false)
    (hrun : queryLoop.run loop actions = some later) :
    loop.Unanswering later := by
  refine @Machine.run_invariant _ _ queryLoop
    (fun later => loop.Unanswering later) ?_ loop later actions hrun ?_
  · intro later action next hlater hstep
    exact hlater.step hstep
  · exact ⟨hstopped, hidle, rfl, rfl⟩

def twoConnects : List LoopAction := [
  .connectAsync ⟨"select 1".toList, 7⟩,
  .complete 0 ⟨2003⟩ .returns,
  .complete 0 ⟨2006⟩ .returns,
  .complete 0 ⟨2006⟩ (.throws true),
  .connectAsync ⟨"select 2".toList, 8⟩,
  .complete 0 ⟨0⟩ .returns,
  .complete 0 ⟨0⟩ .returns,
  .complete 0 ⟨0⟩ (.throws false),
  .connectAsync ⟨"select 3".toList, 9⟩]

end MyBaseClient

end StoreCpp
