import StoreCpp.PathValue
import StoreCpp.StepMachine

/-!
# The pools of the clients of one process

A `pgsql::Client<T>` registers its connection pool in a container of the
process, under a key that is the name of its type, and reads it back from
there.  A pool is created only when the key has none.
-/

namespace StoreCpp

open StepMachine

/-! ## The container -/

/-- Instances by type name and key.  No member of the container fills the
creators for keys, so a missing instance is a null pointer. -/
abbrev InstanceMapWithKey (ι : Type) := Str → Option (Str → Option ι)

namespace InstanceMapWithKey

variable {ι : Type}

def registerInstanceWithKey (instanceMap : InstanceMapWithKey ι)
    (typeName key : Str) (registered : ι) : InstanceMapWithKey ι :=
  let inner := (instanceMap typeName).getD fun _ => none
  Function.update instanceMap typeName
    (some (Function.update inner key (some registered)))

def getInstanceWithKey (instanceMap : InstanceMapWithKey ι)
    (typeName key : Str) : Option ι :=
  match instanceMap typeName with
  | some inner => inner key
  | none => none

def instanceWithKeyExist (instanceMap : InstanceMapWithKey ι)
    (typeName key : Str) : Bool :=
  match instanceMap typeName with
  | some inner => (inner key).isSome
  | none => false

theorem getInstanceWithKey_register (instanceMap : InstanceMapWithKey ι)
    (typeName key : Str) (registered : ι) :
    (instanceMap.registerInstanceWithKey typeName key
      registered).getInstanceWithKey typeName key = some registered := by
  simp [registerInstanceWithKey, getInstanceWithKey]

theorem instanceWithKeyExist_eq (instanceMap : InstanceMapWithKey ι)
    (typeName key : Str) :
    instanceMap.instanceWithKeyExist typeName key =
      (instanceMap.getInstanceWithKey typeName key).isSome := by
  unfold instanceWithKeyExist getInstanceWithKey
  cases instanceMap typeName with
  | none => rfl
  | some inner => rfl

end InstanceMapWithKey

/-! ## Pools and clients -/

structure DBContext where
  server : Str := "127.0.0.1".toList
  port : Int32 := 5432
  database : Str := []
  user : Str := []
  password : Str := []
  deriving DecidableEq

/-- Where a pool's connections go. -/
structure Target where
  server : Str
  port : Int32
  database : Str
  user : Str
  deriving DecidableEq

def DBContext.target (dbContext : DBContext) : Target where
  server := dbContext.server
  port := dbContext.port
  database := dbContext.database
  user := dbContext.user

structure PostgreSQLPool where
  context : DBContext
  poolSize : Int32
  deriving DecidableEq

/-- What creating a pool does: it throws, or it succeeds, or (in a debug
build) the pool is registered and its test throws. -/
inductive Creation where
  | refused
  | created
  | testFailed
  deriving DecidableEq

abbrev Pools := InstanceMapWithKey PostgreSQLPool

def poolType : Str := "ConnectionPool<PostgreSQLConnection>".toList

/-- Whether `createPoolImpl` returns, and the container after it. -/
def createPoolImpl (context : DBContext) (poolKey : Str) (poolSize : Int32)
    (creation : Creation) (pools : Pools) : Bool × Pools :=
  if pools.instanceWithKeyExist poolType poolKey then (true, pools)
  else
    let registered :=
      pools.registerInstanceWithKey poolType poolKey ⟨context, poolSize⟩
    match creation with
    | .refused => (false, pools)
    | .created => (true, registered)
    | .testFailed => (false, registered)

/-- The settings that `createPoolFromJson` reads; the port of a configuration
without one is whatever the variable held. -/
def contextFromJson (config : Json) (environment : Str) (held : Int32) :
    Option DBContext := do
  let path (key : Str) := ["postgres".toList, environment, key]
  let text (key : Str) :=
    getPathValueFromJson Json.getString [] config (path key)
  let port ← getPathValueFromJson Json.getInt held config
    (path "port".toList)
  let server ← text "server".toList
  let database ← text "database".toList
  let user ← text "user".toList
  let password ← text "password".toList
  return { server, port, database, user, password }

/-- A constructor call of `Client<T>`; `typeName` is `typeid(this).name()`. -/
inductive Construction where
  | fromDBContext (typeName : Str) (dbContext : DBContext) (poolSize : Int32)
      (creation : Creation)
  | fromJson (typeName : Str) (config : Json) (environment : Str)
      (held poolSize : Int32) (creation : Creation)

def Construction.typeName : Construction → Str
  | fromDBContext typeName .. => typeName
  | fromJson typeName .. => typeName

def Construction.creation : Construction → Creation
  | fromDBContext _ _ _ creation => creation
  | fromJson _ _ _ _ _ creation => creation

def Construction.poolSize : Construction → Int32
  | fromDBContext _ _ poolSize _ =>
      if 0 < poolSize ∧ poolSize ≤ 20 then poolSize else 10
  | fromJson _ _ _ _ poolSize _ => poolSize

/-- The client's own configuration; `none` when reading it throws. -/
def Construction.context : Construction → Option DBContext
  | fromDBContext _ dbContext _ _ => some dbContext
  | fromJson _ config environment held _ _ =>
      contextFromJson config environment held

/-- A client, with its own configuration and the pool that it has got. -/
structure PgClientObject where
  context : DBContext
  pool : Option PostgreSQLPool

structure Process where
  pools : Pools
  clients : List PgClientObject

def freshProcess : Process where
  pools _ := none
  clients := []

def Process.construct (process : Process) (c : Construction) : Process :=
  match c.context with
  | none => process
  | some context =>
      let created := createPoolImpl context c.typeName c.poolSize c.creation
        process.pools
      if created.1 then
        { pools := created.2
          clients := process.clients ++
            [⟨context, created.2.getInstanceWithKey poolType c.typeName⟩] }
      else { process with pools := created.2 }

def constructions : Machine Process Construction where
  init process := process = freshProcess
  step process c := some (process.construct c)

def PgClientObject.ConnectsToOwn (client : PgClientObject) : Prop :=
  ∃ pool ∈ client.pool, pool.context.target = client.context.target

/-- A pool that the key has already goes where the new client wants to. -/
def PoolMatches (process : Process) (c : Construction) : Prop :=
  ∀ pool ∈ process.pools.getInstanceWithKey poolType c.typeName,
    ∀ context ∈ c.context, pool.context.target = context.target

/-! ## One construction and a run of them -/

theorem createPoolImpl_of_some {context : DBContext} {poolKey : Str}
    {poolSize : Int32} {creation : Creation} {pools : Pools}
    {pool : PostgreSQLPool}
    (hpool : pools.getInstanceWithKey poolType poolKey = some pool) :
    createPoolImpl context poolKey poolSize creation pools = (true, pools) := by
  have hexist : pools.instanceWithKeyExist poolType poolKey = true := by
    rw [InstanceMapWithKey.instanceWithKeyExist_eq, hpool]
    rfl
  rw [createPoolImpl, if_pos hexist]

theorem getInstance_createPoolImpl {context : DBContext} {poolKey : Str}
    {poolSize : Int32} {creation : Creation} {pools : Pools}
    (hpool : pools.getInstanceWithKey poolType poolKey = none)
    (hcreated :
      (createPoolImpl context poolKey poolSize creation pools).1 = true) :
    (createPoolImpl context poolKey poolSize creation
      pools).2.getInstanceWithKey poolType poolKey =
        some ⟨context, poolSize⟩ := by
  have hexist : ¬ pools.instanceWithKeyExist poolType poolKey = true := by
    rw [InstanceMapWithKey.instanceWithKeyExist_eq, hpool]
    simp
  rw [createPoolImpl, if_neg hexist] at hcreated ⊢
  cases creation with
  | refused => cases hcreated
  | testFailed => cases hcreated
  | created => exact InstanceMapWithKey.getInstanceWithKey_register _ _ _ _

theorem construct_connects_iff (process : Process) (c : Construction) :
    (∀ client ∈ (process.construct c).clients, client.ConnectsToOwn) ↔
      (∀ client ∈ process.clients, client.ConnectsToOwn) ∧
        PoolMatches process c := by
  unfold Process.construct
  cases hcontext : c.context with
  | none => simp [PoolMatches, hcontext]
  | some context =>
      dsimp only
      cases hpool : process.pools.getInstanceWithKey poolType c.typeName with
      | some pool =>
          rw [createPoolImpl_of_some hpool]
          simp [PoolMatches, PgClientObject.ConnectsToOwn, hcontext, hpool,
            or_imp, forall_and]
      | none =>
          have hmatches : PoolMatches process c := by
            intro pool hmem
            rw [hpool] at hmem
            cases hmem
          split_ifs with hcreated
          · rw [getInstance_createPoolImpl hpool hcreated]
            simp [PgClientObject.ConnectsToOwn, hmatches, or_imp, forall_and]
          · simp [hmatches]

theorem clients_connect_iff_of_run {start final : Process}
    {cs : List Construction} (hrun : constructions.run start cs = some final) :
    (∀ client ∈ final.clients, client.ConnectsToOwn) ↔
      (∀ client ∈ start.clients, client.ConnectsToOwn) ∧
        constructions.Guarded PoolMatches start cs := by
  induction cs generalizing start with
  | nil =>
      have heq : start = final := by simpa using hrun
      simp [heq, Machine.Guarded]
  | cons c cs ih =>
      obtain ⟨next, hnext, hrest⟩ := Machine.run_cons_eq_some.mp hrun
      cases hnext
      rw [ih hrest, construct_connects_iff, and_assoc]
      simp [Machine.Guarded, constructions]

def constructAll (cs : List Construction) : Process :=
  cs.foldl Process.construct freshProcess

theorem run_constructions (start : Process) (cs : List Construction) :
    constructions.run start cs = some (cs.foldl Process.construct start) := by
  induction cs generalizing start with
  | nil => rfl
  | cons c cs ih => exact ih (start.construct c)

theorem clients_connect_iff (cs : List Construction) :
    (∀ client ∈ (constructAll cs).clients, client.ConnectsToOwn) ↔
      constructions.Guarded PoolMatches freshProcess cs := by
  have hrun := clients_connect_iff_of_run (run_constructions freshProcess cs)
  rw [constructAll, hrun]
  simp [freshProcess]

def production : DBContext where
  server := "10.0.0.1".toList
  database := "eventstore".toList
  user := "streamer".toList

def staging : DBContext := { production with server := "10.0.0.2".toList }

def twoConstructions : List Construction := [
  .fromDBContext "Client<IEvent>*".toList production 10 .created,
  .fromDBContext "Client<IEvent>*".toList staging 10 .created]

/-- The client for staging works on production. -/
theorem twoConstructions_not_own :
    ¬ ∀ cs, ∀ client ∈ (constructAll cs).clients, client.ConnectsToOwn := by
  intro hclaim
  have hguard := (clients_connect_iff_of_run
    (run_constructions freshProcess twoConstructions)).mp
      (hclaim twoConstructions)
  have hmatches := (hguard.2.2 _ rfl).1
  have hpool : (freshProcess.construct
      (.fromDBContext "Client<IEvent>*".toList production 10
        .created)).pools.getInstanceWithKey poolType
          "Client<IEvent>*".toList = some ⟨production, 10⟩ := by
    decide +kernel
  exact absurd (hmatches _ hpool staging rfl) (by decide)

end StoreCpp
