import StoreCpp.Extensions
import StoreCpp.StepMachine

/-!
# Installing and uninstalling a notifier

A `Notifier` derives the names of a queue, a service, a trigger and two
procedures from a hash of the names of its table.  Its scripts create the
procedures, which create or drop the rest, and ask the catalog of the database
whether the service is there.  What no script touches is left out of the
catalog; names are compared as they are written.
-/

namespace StoreCpp

open Printf StepMachine

/-- The names that the scripts of a `Notifier` are filled with. -/
structure Notifier where
  databaseName : Str
  schemaName : Str
  tableName : Str
  identity : Str
  deriving DecidableEq

namespace Notifier

/-- The constructor, with `std::hash` as a parameter. -/
def create (hash : Str → UInt64) (databaseName_ schemaName tableName : Str) :
    Notifier :=
  let databaseName := databaseName_.filter fun c => ¬ (c = '[' ∨ c = ']')
  let name := databaseName ++ "$".toList ++ schemaName ++ "$".toList ++
    tableName
  { databaseName
    schemaName
    tableName
    identity := Nat.toDigits 16 (hash name).toNat }

def queueName (identity : Str) : Str := "ListenerQueue_".toList ++ identity

def serviceName (identity : Str) : Str :=
  "ListenerService_".toList ++ identity

def triggerName (identity : Str) : Str := "tr_Listener_".toList ++ identity

def installName (identity : Str) : Str :=
  "sp_InstallListenerNotification_".toList ++ identity

def uninstallName (identity : Str) : Str :=
  "sp_UninstallListenerNotification_".toList ++ identity

def conversationQueueName (n : Notifier) : Str := queueName n.identity

def conversationServiceName (n : Notifier) : Str := serviceName n.identity

def conversationTriggerName (n : Notifier) : Str := triggerName n.identity

def installListenerProcedureName (n : Notifier) : Str :=
  installName n.identity

def uninstallListenerProcedureName (n : Notifier) : Str :=
  uninstallName n.identity

end Notifier

/-- A procedure, whose text was filled in by the notifier that created it. -/
inductive Procedure where
  | install (creator : Notifier)
  | uninstall (creator : Notifier)

/-- The name of an object with its schema. -/
abbrev ObjectName := Str × Str

structure Service where
  name : Str
  queue : ObjectName
  deriving DecidableEq

/-- What the scripts read and write in one database; a column has a name and
a type. -/
structure Database where
  schemas : List Str
  columns : ObjectName → List (Str × Str)
  services : List Service
  queues : List ObjectName
  triggers : List ObjectName
  procedures : ObjectName → Option Procedure

namespace Database

def setProcedure (db : Database) (name : ObjectName)
    (procedure : Option Procedure) : Database :=
  { db with procedures := Function.update db.procedures name procedure }

/-- `SQL_FORMAT_INSTALL_SEVICE_BROKER_NOTIFICATION`; the queue is looked up
without its schema, and a service needs its queue. -/
def installServiceBroker (db : Database) (queue service schema : Str) :
    Option Database :=
  let db :=
    if db.queues.any fun name => name.2 = queue then db
    else { db with queues := db.queues ++ [(schema, queue)] }
  if db.services.any fun other => other.name = service then some db
  else if db.queues.contains (schema, queue) then
    some { db with services := db.services ++ [⟨service, (schema, queue)⟩] }
  else none

def withoutText : List Str :=
  ["text".toList, "ntext".toList, "image".toList, "geometry".toList,
    "geography".toList]

/-- The columns in `@select`. -/
def selectedColumns (db : Database) (schema table : Str) : List Str :=
  ((db.columns (schema, table)).filter fun column =>
    ¬ withoutText.contains column.2).map Prod.fst

/-- The statement of `SQL_FORMAT_CREATE_NOTIFICATION_TRIGGER` is NULL and does
nothing when `@select` is NULL. -/
def createNotificationTrigger (db : Database) (table trigger schema : Str) :
    Database :=
  if db.selectedColumns schema table = [] then db
  else { db with triggers := db.triggers ++ [(schema, trigger)] }

/-- The body of the procedure of `sqlFormatCreateInstallationProcedure`, with
`SQL_FORMAT_CHECK_NOTIFICATION_TRIGGER` in the middle. -/
def runInstall (db : Database) (n : Notifier) : Option Database :=
  (db.installServiceBroker n.conversationQueueName n.conversationServiceName
    n.schemaName).map fun db =>
      if db.triggers.contains (n.schemaName, n.conversationTriggerName) then
        db
      else
        db.createNotificationTrigger n.tableName n.conversationTriggerName
          n.schemaName

/-- `SQL_FORMAT_DELETE_NOTIFICATION_TRIGGER`. -/
def deleteNotificationTrigger (db : Database) (trigger schema : Str) :
    Database :=
  { db with triggers := db.triggers.filter (· ≠ (schema, trigger)) }

/-- `SQL_FORMAT_UNINSTALL_SERVICE_BROKER_NOTIFICATION`; a queue that a service
is on cannot be dropped. -/
def uninstallServiceBroker (db : Database) (queue service schema : Str) :
    Option Database :=
  let db :=
    { db with services := db.services.filter (·.name ≠ service) }
  if db.queues.contains (schema, queue) then
    if db.services.any fun other => other.queue = (schema, queue) then none
    else some { db with queues := db.queues.filter (· ≠ (schema, queue)) }
  else some db

/-- The body of the procedure of `sqlFormatCreateUninstallationProcedure`. -/
def runUninstall (db : Database) (n : Notifier) : Option Database :=
  ((db.deleteNotificationTrigger n.conversationTriggerName
    n.schemaName).uninstallServiceBroker n.conversationQueueName
      n.conversationServiceName n.schemaName).map fun db =>
        (db.setProcedure (n.schemaName, n.installListenerProcedureName)
          none).setProcedure (n.schemaName, n.uninstallListenerProcedureName)
            none

/-- Creates a procedure unless there is one of its name. -/
def createProcedure (db : Database) (name : ObjectName)
    (procedure : Procedure) : Option Database :=
  if (db.procedures name).isSome then some db
  else if db.schemas.contains name.1 then
    some (db.setProcedure name (some procedure))
  else none

/-- `SQL_FORMAT_EXECUTE_PROCEDURE`. -/
def executeProcedure (db : Database) (name : ObjectName) : Option Database :=
  match db.procedures name with
  | none => some db
  | some (.install creator) => db.runInstall creator
  | some (.uninstall creator) => db.runUninstall creator

/-- The three scripts of `installNotification`. -/
def installNotification (db : Database) (n : Notifier) : Option Database :=
  (db.createProcedure (n.schemaName, n.installListenerProcedureName)
    (.install n)).bind fun db =>
      (db.createProcedure (n.schemaName, n.uninstallListenerProcedureName)
        (.uninstall n)).bind fun db =>
          db.executeProcedure (n.schemaName, n.installListenerProcedureName)

def uninstall (db : Database) (n : Notifier) : Option Database :=
  db.executeProcedure (n.schemaName, n.uninstallListenerProcedureName)

/-- `sqlFormatGetDependencyIdentities`: the services whose name is the
identity. -/
def getDependencyDbIdentities (db : Database) (n : Notifier) : List Str :=
  (db.services.filter fun service => service.name = n.identity).map
    Service.name

end Database

/-- The databases of a server. -/
abbrev SqlServer := Str → Option Database

namespace SqlServer

/-- `USE` and the rest of a script; `none` when it fails. -/
def use (server : SqlServer) (databaseName : Str)
    (script : Database → Option Database) : Option SqlServer :=
  (server databaseName).bind fun db =>
    (script db).map fun next =>
      Function.update server databaseName (some next)

def checkServiceExists (server : SqlServer) (n : Notifier) : Bool :=
  match server n.databaseName with
  | none => false
  | some db => 0 < (db.getDependencyDbIdentities n).length

end SqlServer

/-! ## Runs of notifiers -/

/-- The names of the table that a notifier is made for. -/
structure TableNames where
  databaseName : Str
  schemaName : Str
  tableName : Str

def TableNames.notifier (hash : Str → UInt64) (names : TableNames) :
    Notifier :=
  Notifier.create hash names.databaseName names.schemaName names.tableName

inductive NotifierCall where
  | start (names : TableNames)
  | uninstall (names : TableNames)

def NotifierCall.perform (hash : Str → UInt64) (server : SqlServer) :
    NotifierCall → Option SqlServer
  | start names =>
      let n := names.notifier hash
      if server.checkServiceExists n then some server
      else server.use n.databaseName fun db => db.installNotification n
  | uninstall names =>
      let n := names.notifier hash
      server.use n.databaseName fun db => db.uninstall n

namespace Database

/-- One of the objects that an installation creates, the procedure that drops
them apart. -/
def Holds (db : Database) (schema identity : Str) : Prop :=
  (schema, Notifier.triggerName identity) ∈ db.triggers ∨
    ⟨Notifier.serviceName identity, (schema,
      Notifier.queueName identity)⟩ ∈ db.services ∨
    (schema, Notifier.queueName identity) ∈ db.queues ∨
    (db.procedures (schema, Notifier.installName identity)).isSome

def CanUninstall (db : Database) (schema identity : Str) : Prop :=
  (db.procedures (schema, Notifier.uninstallName identity)).isSome

/-- Before the first installation. -/
structure Clean (hash : Str → UInt64) (db : Database) : Prop where
  holdsNone : ∀ schema identity, ¬ db.Holds schema identity
  procedures : ∀ name, db.procedures name = none
  services : ∀ names : TableNames, ∀ service ∈ db.services,
    service.name ≠ (names.notifier hash).identity

end Database

def notifierCalls (hash : Str → UInt64) : Machine SqlServer NotifierCall where
  init server := ∀ name db, server name = some db → db.Clean hash
  step := NotifierCall.perform hash

/-- The listener service of the notifier's installation is there. -/
def SqlServer.ServicePresent (server : SqlServer) (n : Notifier) : Prop :=
  ∃ db, db ∈ server n.databaseName ∧
    ⟨n.conversationServiceName, (n.schemaName, n.conversationQueueName)⟩ ∈
      db.services

instance (server : SqlServer) (n : Notifier) :
    Decidable (server.ServicePresent n) :=
  inferInstanceAs (Decidable (∃ db, db ∈ server n.databaseName ∧ _))

/-- None of the five objects of the notifier's installation is there. -/
def SqlServer.NothingLeft (server : SqlServer) (n : Notifier) : Prop :=
  ∀ db, server n.databaseName = some db →
    ¬ db.Holds n.schemaName n.identity ∧
      ¬ db.CanUninstall n.schemaName n.identity

/-- The check of a notifier tells whether its listener service is there, and
its uninstallation leaves none of its objects. -/
def TellsAndClears (hash : Str → UInt64) (server : SqlServer)
    (names : TableNames) : Prop :=
  (server.checkServiceExists (names.notifier hash) = true ↔
    server.ServicePresent (names.notifier hash)) ∧
  ∀ next, (NotifierCall.uninstall names).perform hash server = some next →
    next.NothingLeft (names.notifier hash)

/-! ## The derived names -/

namespace Notifier

theorem queueName_inj {first second : Str}
    (hsame : queueName first = queueName second) : first = second := by
  unfold queueName at hsame
  exact List.append_cancel_left hsame

theorem triggerName_inj {first second : Str}
    (hsame : triggerName first = triggerName second) : first = second := by
  unfold triggerName at hsame
  exact List.append_cancel_left hsame

theorem installName_inj {first second : Str}
    (hsame : installName first = installName second) : first = second := by
  unfold installName at hsame
  exact List.append_cancel_left hsame

theorem uninstallName_inj {first second : Str}
    (hsame : uninstallName first = uninstallName second) : first = second := by
  unfold uninstallName at hsame
  exact List.append_cancel_left hsame

theorem installName_ne_uninstallName (first second : Str) :
    installName first ≠ uninstallName second := by
  intro hsame
  have hfourth := congrArg (List.take 4) hsame
  unfold installName uninstallName at hfourth
  rw [List.take_append_of_le_length (by decide +kernel),
    List.take_append_of_le_length (by decide +kernel)] at hfourth
  exact absurd hfourth (by decide +kernel)

/-- An identity has no capital letters, so no derived name is one. -/
theorem serviceName_ne_identity (hash : Str → UInt64) (names : TableNames)
    (identity : Str) :
    serviceName identity ≠ (names.notifier hash).identity := by
  intro hsame
  have hcapital : 'L' ∈ (names.notifier hash).identity := by
    rw [← hsame]
    exact List.mem_append_left _ (by decide +kernel)
  obtain ⟨digit, hdigit⟩ := exists_digitChar_of_mem_toDigits hcapital
  have hcases := digitChar_cases digit
  rw [← hdigit] at hcases
  exact absurd hcases (by decide)

end Notifier

/-! ## What the scripts do to a database -/

/-- The procedure has the name that its creator derives for it. -/
def Procedure.NamedAs (name : ObjectName) : Procedure → Prop
  | install creator =>
      (creator.schemaName, creator.installListenerProcedureName) = name
  | uninstall creator =>
      (creator.schemaName, creator.uninstallListenerProcedureName) = name

namespace Database

def WellNamed (db : Database) : Prop :=
  ∀ name procedure, db.procedures name = some procedure →
    procedure.NamedAs name

/-- The scripts of an installation add objects of that installation only and
drop no procedure. -/
structure Grows (schema identity : Str) (db next : Database) : Prop where
  triggers : ∀ name ∈ next.triggers, name ∈ db.triggers ∨
    name = (schema, Notifier.triggerName identity)
  services : ∀ service ∈ next.services, service ∈ db.services ∨
    service = ⟨Notifier.serviceName identity,
      (schema, Notifier.queueName identity)⟩
  queues : ∀ name ∈ next.queues, name ∈ db.queues ∨
    name = (schema, Notifier.queueName identity)
  keeps : ∀ name procedure, db.procedures name = some procedure →
    next.procedures name = some procedure
  creates : ∀ name procedure, next.procedures name = some procedure →
    db.procedures name = some procedure ∨ procedure.NamedAs name ∧
      (name = (schema, Notifier.installName identity) ∨
        name = (schema, Notifier.uninstallName identity))

theorem Grows.refl (schema identity : Str) (db : Database) :
    Grows schema identity db db where
  triggers _ hold := Or.inl hold
  services _ hold := Or.inl hold
  queues _ hold := Or.inl hold
  keeps _ _ hold := hold
  creates _ _ hold := Or.inl hold

theorem Grows.trans {schema identity : Str} {db middle next : Database}
    (hfirst : Grows schema identity db middle)
    (hsecond : Grows schema identity middle next) :
    Grows schema identity db next where
  triggers name hname :=
    (hsecond.triggers name hname).elim (hfirst.triggers name) Or.inr
  services service hservice :=
    (hsecond.services service hservice).elim (hfirst.services service) Or.inr
  queues name hname :=
    (hsecond.queues name hname).elim (hfirst.queues name) Or.inr
  keeps name procedure hold :=
    hsecond.keeps name procedure (hfirst.keeps name procedure hold)
  creates name procedure hfound :=
    (hsecond.creates name procedure hfound).elim
      (hfirst.creates name procedure) Or.inr

theorem Grows.holds {schema identity : Str} {db next : Database}
    (hgrows : Grows schema identity db next) {otherSchema other : Str}
    (hholds : next.Holds otherSchema other) :
    db.Holds otherSchema other ∨ otherSchema = schema ∧ other = identity := by
  obtain htrigger | hservice | hqueue | hprocedure := hholds
  · cases hgrows.triggers _ htrigger with
    | inl hold => exact Or.inl (Or.inl hold)
    | inr hnew =>
        obtain ⟨hschema, hname⟩ := Prod.ext_iff.mp hnew
        exact Or.inr ⟨hschema, Notifier.triggerName_inj hname⟩
  · cases hgrows.services _ hservice with
    | inl hold => exact Or.inl (Or.inr (Or.inl hold))
    | inr hnew =>
        have hqueue := congrArg Service.queue hnew
        obtain ⟨hschema, hname⟩ := Prod.ext_iff.mp hqueue
        exact Or.inr ⟨hschema, Notifier.queueName_inj hname⟩
  · cases hgrows.queues _ hqueue with
    | inl hold => exact Or.inl (Or.inr (Or.inr (Or.inl hold)))
    | inr hnew =>
        obtain ⟨hschema, hname⟩ := Prod.ext_iff.mp hnew
        exact Or.inr ⟨hschema, Notifier.queueName_inj hname⟩
  · obtain ⟨procedure, hfound⟩ := Option.isSome_iff_exists.mp hprocedure
    obtain hold | ⟨_, hinstall | huninstall⟩ := hgrows.creates _ _ hfound
    · have hsome : (db.procedures (otherSchema,
          Notifier.installName other)).isSome := by
        rw [hold]
        rfl
      exact Or.inl (Or.inr (Or.inr (Or.inr hsome)))
    · obtain ⟨hschema, hname⟩ := Prod.ext_iff.mp hinstall
      exact Or.inr ⟨hschema, Notifier.installName_inj hname⟩
    · exact absurd (Prod.ext_iff.mp huninstall).2
        (Notifier.installName_ne_uninstallName _ _)

theorem Grows.canUninstall {schema identity : Str} {db next : Database}
    (hgrows : Grows schema identity db next) {otherSchema other : Str}
    (hcan : db.CanUninstall otherSchema other) :
    next.CanUninstall otherSchema other := by
  obtain ⟨procedure, hold⟩ := Option.isSome_iff_exists.mp hcan
  unfold CanUninstall
  rw [hgrows.keeps _ _ hold]
  rfl

theorem Grows.wellNamed {schema identity : Str} {db next : Database}
    (hgrows : Grows schema identity db next) (hnamed : db.WellNamed) :
    next.WellNamed := by
  intro name procedure hfound
  cases hgrows.creates name procedure hfound with
  | inl hold => exact hnamed name procedure hold
  | inr hnew => exact hnew.1

theorem procedures_setProcedure_self (db : Database) (name : ObjectName)
    (procedure : Option Procedure) :
    (db.setProcedure name procedure).procedures name = procedure :=
  Function.update_self ..

theorem procedures_setProcedure_of_ne {db : Database}
    {name other : ObjectName} (hne : other ≠ name)
    (procedure : Option Procedure) :
    (db.setProcedure name procedure).procedures other =
      db.procedures other :=
  Function.update_of_ne hne _ _

theorem createProcedure_cases {db next : Database} {name : ObjectName}
    {procedure : Procedure}
    (hcreate : db.createProcedure name procedure = some next) :
    (db.procedures name).isSome ∧ next = db ∨
      db.procedures name = none ∧
        next = db.setProcedure name (some procedure) := by
  unfold createProcedure at hcreate
  split_ifs at hcreate with hsome
  · exact Or.inl ⟨hsome, (Option.some.inj hcreate).symm⟩
  · right
    exact ⟨Option.not_isSome_iff_eq_none.mp hsome,
      (Option.some.inj hcreate).symm⟩

theorem procedures_of_create {db next : Database} {name : ObjectName}
    {procedure : Procedure}
    (hcreate : db.createProcedure name procedure = some next) :
    (next.procedures name).isSome := by
  cases createProcedure_cases hcreate with
  | inl hthere =>
      rw [hthere.2]
      exact hthere.1
  | inr hnew =>
      rw [hnew.2, procedures_setProcedure_self]
      rfl

theorem grows_createProcedure {db next : Database} {name : ObjectName}
    {procedure : Procedure} {schema identity : Str}
    (hnamed : procedure.NamedAs name)
    (hown : name = (schema, Notifier.installName identity) ∨
      name = (schema, Notifier.uninstallName identity))
    (hcreate : db.createProcedure name procedure = some next) :
    Grows schema identity db next := by
  cases createProcedure_cases hcreate with
  | inl hthere =>
      rw [hthere.2]
      exact Grows.refl schema identity db
  | inr hnew =>
      obtain ⟨hnone, hnext⟩ := hnew
      rw [hnext]
      refine ⟨fun _ => Or.inl, fun _ => Or.inl, fun _ => Or.inl, ?_, ?_⟩
      · intro other old hold
        have hne : other ≠ name := by
          rintro rfl
          rw [hnone] at hold
          cases hold
        rw [procedures_setProcedure_of_ne hne]
        exact hold
      · intro other found hfound
        by_cases hsame : other = name
        · rw [hsame, procedures_setProcedure_self] at hfound
          cases hfound
          rw [hsame]
          exact Or.inr ⟨hnamed, hown⟩
        · rw [procedures_setProcedure_of_ne hsame] at hfound
          exact Or.inl hfound

theorem grows_installServiceBroker {db next : Database}
    {schema identity : Str}
    (hinstall : db.installServiceBroker (Notifier.queueName identity)
      (Notifier.serviceName identity) schema = some next) :
    Grows schema identity db next := by
  unfold installServiceBroker at hinstall
  dsimp only at hinstall
  split_ifs at hinstall <;> cases hinstall
  · exact Grows.refl schema identity db
  · refine ⟨fun _ => Or.inl, ?_, fun _ => Or.inl, fun _ _ hold => hold,
      fun _ _ => Or.inl⟩
    intro service hservice
    simpa using hservice
  · refine ⟨fun _ => Or.inl, fun _ => Or.inl, ?_, fun _ _ hold => hold,
      fun _ _ => Or.inl⟩
    intro name hname
    simpa using hname
  · refine ⟨fun _ => Or.inl, ?_, ?_, fun _ _ hold => hold,
      fun _ _ => Or.inl⟩
    · intro service hservice
      simpa using hservice
    · intro name hname
      simpa using hname

theorem grows_createTrigger (db : Database) (table schema identity : Str) :
    Grows schema identity db
      (db.createNotificationTrigger table (Notifier.triggerName identity)
        schema) := by
  unfold createNotificationTrigger
  split_ifs
  · exact Grows.refl schema identity db
  · refine ⟨?_, fun _ => Or.inl, fun _ => Or.inl, fun _ _ hold => hold,
      fun _ _ => Or.inl⟩
    intro name hname
    simpa using hname

theorem grows_runInstall {db next : Database} {n : Notifier}
    (hrun : db.runInstall n = some next) :
    Grows n.schemaName n.identity db next := by
  unfold runInstall at hrun
  obtain ⟨broker, hbroker, htrigger⟩ := Option.map_eq_some_iff.mp hrun
  have hgrows := grows_installServiceBroker hbroker
  rw [← htrigger]
  split_ifs
  · exact hgrows
  · exact hgrows.trans (grows_createTrigger broker n.tableName n.schemaName
      n.identity)

/-- The procedure that runs was created under the same identity. -/
theorem grows_executeInstall {db next : Database} {n : Notifier}
    (hnamed : db.WellNamed)
    (hrun : db.executeProcedure
      (n.schemaName, n.installListenerProcedureName) = some next) :
    Grows n.schemaName n.identity db next := by
  unfold executeProcedure at hrun
  split at hrun
  next =>
    cases hrun
    exact Grows.refl n.schemaName n.identity db
  next creator hprocedure =>
    obtain ⟨hschema, hname⟩ := Prod.ext_iff.mp (hnamed _ _ hprocedure)
    have hgrows := grows_runInstall hrun
    rw [show n.schemaName = creator.schemaName from hschema.symm,
      show n.identity = creator.identity from
        (Notifier.installName_inj hname).symm]
    exact hgrows
  next creator hprocedure =>
    obtain ⟨_, hname⟩ := Prod.ext_iff.mp (hnamed _ _ hprocedure)
    exact absurd hname.symm (Notifier.installName_ne_uninstallName _ _)

/-- After an installation the procedure that drops the objects is there. -/
theorem installNotification_spec {db next : Database} {n : Notifier}
    (hnamed : db.WellNamed)
    (hinstall : db.installNotification n = some next) :
    Grows n.schemaName n.identity db next ∧
      next.CanUninstall n.schemaName n.identity := by
  unfold installNotification at hinstall
  obtain ⟨first, hfirst, hrest⟩ := Option.bind_eq_some_iff.mp hinstall
  obtain ⟨second, hsecond, hrun⟩ := Option.bind_eq_some_iff.mp hrest
  have hinstallNamed : (Procedure.install n).NamedAs
      (n.schemaName, n.installListenerProcedureName) := rfl
  have huninstallNamed : (Procedure.uninstall n).NamedAs
      (n.schemaName, n.uninstallListenerProcedureName) := rfl
  have hgrowsFirst : Grows n.schemaName n.identity db first :=
    grows_createProcedure hinstallNamed (Or.inl rfl) hfirst
  have hgrowsSecond : Grows n.schemaName n.identity first second :=
    grows_createProcedure huninstallNamed (Or.inr rfl) hsecond
  have hgrows := hgrowsFirst.trans hgrowsSecond
  have hlast := grows_executeInstall (hgrows.wellNamed hnamed) hrun
  exact ⟨hgrows.trans hlast,
    hlast.canUninstall (procedures_of_create hsecond)⟩

theorem services_of_uninstallServiceBroker {db next : Database}
    {queue service schema : Str}
    (huninstall : db.uninstallServiceBroker queue service schema =
      some next) :
    next.services = db.services.filter (·.name ≠ service) := by
  unfold uninstallServiceBroker at huninstall
  dsimp only at huninstall
  split_ifs at huninstall <;> cases huninstall <;> rfl

theorem queues_of_uninstallServiceBroker {db next : Database}
    {queue service schema : Str}
    (huninstall : db.uninstallServiceBroker queue service schema =
      some next) :
    next.queues = db.queues.filter (· ≠ (schema, queue)) := by
  unfold uninstallServiceBroker at huninstall
  dsimp only at huninstall
  split_ifs at huninstall with hqueue
  · cases huninstall
    rfl
  · cases huninstall
    refine (List.filter_eq_self.mpr fun name hname => ?_).symm
    refine decide_eq_true fun hsame => hqueue ?_
    rw [hsame] at hname
    exact List.contains_iff_mem.mpr hname

theorem rest_of_uninstallServiceBroker {db next : Database}
    {queue service schema : Str}
    (huninstall : db.uninstallServiceBroker queue service schema =
      some next) :
    next.triggers = db.triggers ∧ next.procedures = db.procedures := by
  unfold uninstallServiceBroker at huninstall
  dsimp only at huninstall
  split_ifs at huninstall <;> cases huninstall <;> exact ⟨rfl, rfl⟩

/-- What the procedure of an uninstallation leaves. -/
structure Uninstalled (n : Notifier) (db next : Database) : Prop where
  triggers : next.triggers =
    db.triggers.filter (· ≠ (n.schemaName, n.conversationTriggerName))
  services : next.services =
    db.services.filter (·.name ≠ n.conversationServiceName)
  queues : next.queues =
    db.queues.filter (· ≠ (n.schemaName, n.conversationQueueName))
  procedures : ∀ name procedure, next.procedures name = some procedure ↔
    name ≠ (n.schemaName, n.installListenerProcedureName) ∧
      name ≠ (n.schemaName, n.uninstallListenerProcedureName) ∧
        db.procedures name = some procedure

theorem procedures_dropProcedure (db : Database) (name other : ObjectName)
    (procedure : Procedure) :
    (db.setProcedure name none).procedures other = some procedure ↔
      other ≠ name ∧ db.procedures other = some procedure := by
  by_cases hsame : other = name
  · rw [hsame, procedures_setProcedure_self]
    simp
  · rw [procedures_setProcedure_of_ne hsame]
    simp [hsame]

theorem uninstalled_of_runUninstall {db next : Database} {n : Notifier}
    (hrun : db.runUninstall n = some next) : Uninstalled n db next := by
  unfold runUninstall at hrun
  obtain ⟨broker, hbroker, hnext⟩ := Option.map_eq_some_iff.mp hrun
  obtain ⟨htriggers, hprocedures⟩ := rest_of_uninstallServiceBroker hbroker
  have hservices := services_of_uninstallServiceBroker hbroker
  have hqueues := queues_of_uninstallServiceBroker hbroker
  rw [← hnext]
  constructor
  · exact htriggers
  · exact hservices
  · exact hqueues
  · intro name procedure
    rw [procedures_dropProcedure, procedures_dropProcedure, hprocedures,
      and_left_comm]
    rfl

theorem Uninstalled.holds {n : Notifier} {db next : Database}
    (hleft : Uninstalled n db next) {schema identity : Str}
    (hholds : next.Holds schema identity) :
    db.Holds schema identity ∧
      ¬ (schema = n.schemaName ∧ identity = n.identity) := by
  obtain htrigger | hservice | hqueue | hprocedure := hholds
  · rw [hleft.triggers] at htrigger
    obtain ⟨hold, hother⟩ := List.mem_filter.mp htrigger
    refine ⟨Or.inl hold, fun hkey => of_decide_eq_true hother ?_⟩
    rw [hkey.1, hkey.2]
    rfl
  · rw [hleft.services] at hservice
    obtain ⟨hold, hother⟩ := List.mem_filter.mp hservice
    refine ⟨Or.inr (Or.inl hold), fun hkey => of_decide_eq_true hother ?_⟩
    rw [hkey.2]
    rfl
  · rw [hleft.queues] at hqueue
    obtain ⟨hold, hother⟩ := List.mem_filter.mp hqueue
    refine ⟨Or.inr (Or.inr (Or.inl hold)),
      fun hkey => of_decide_eq_true hother ?_⟩
    rw [hkey.1, hkey.2]
    rfl
  · obtain ⟨procedure, hfound⟩ := Option.isSome_iff_exists.mp hprocedure
    obtain ⟨hinstall, _, hold⟩ := (hleft.procedures _ _).mp hfound
    have hsome : (db.procedures (schema,
        Notifier.installName identity)).isSome := by
      rw [hold]
      rfl
    refine ⟨Or.inr (Or.inr (Or.inr hsome)), fun hkey => hinstall ?_⟩
    rw [hkey.1, hkey.2]
    rfl

theorem Uninstalled.canUninstall {n : Notifier} {db next : Database}
    (hleft : Uninstalled n db next) (schema identity : Str) :
    next.CanUninstall schema identity ↔
      db.CanUninstall schema identity ∧
        ¬ (schema = n.schemaName ∧ identity = n.identity) := by
  unfold CanUninstall
  rw [Option.isSome_iff_exists, Option.isSome_iff_exists]
  constructor
  · rintro ⟨procedure, hfound⟩
    obtain ⟨_, huninstall, hold⟩ := (hleft.procedures _ _).mp hfound
    refine ⟨⟨procedure, hold⟩, fun hkey => huninstall ?_⟩
    rw [hkey.1, hkey.2]
    rfl
  · rintro ⟨⟨procedure, hold⟩, hother⟩
    refine ⟨procedure, (hleft.procedures _ _).mpr ⟨?_, ?_, hold⟩⟩
    · intro hsame
      exact Notifier.installName_ne_uninstallName _ _
        (Prod.ext_iff.mp hsame).2.symm
    · intro hsame
      obtain ⟨hschema, hname⟩ := Prod.ext_iff.mp hsame
      exact hother ⟨hschema, Notifier.uninstallName_inj hname⟩

theorem Uninstalled.wellNamed {n : Notifier} {db next : Database}
    (hleft : Uninstalled n db next) (hnamed : db.WellNamed) :
    next.WellNamed := by
  intro name procedure hfound
  obtain ⟨_, _, hold⟩ := (hleft.procedures name procedure).mp hfound
  exact hnamed name procedure hold

/-- What the installations and uninstallations keep. -/
structure Sound (hash : Str → UInt64) (db : Database) : Prop where
  named : db.WellNamed
  held : ∀ schema identity, db.Holds schema identity →
    db.CanUninstall schema identity
  services : ∀ names : TableNames, ∀ service ∈ db.services,
    service.name ≠ (names.notifier hash).identity

theorem Clean.sound {hash : Str → UInt64} {db : Database}
    (hclean : db.Clean hash) : db.Sound hash where
  named name procedure hprocedure := by
    rw [hclean.procedures name] at hprocedure
    cases hprocedure
  held schema identity hholds :=
    absurd hholds (hclean.holdsNone schema identity)
  services := hclean.services

theorem Sound.installNotification {hash : Str → UInt64} {db next : Database}
    {n : Notifier} (hsound : db.Sound hash)
    (hinstall : db.installNotification n = some next) :
    next.Sound hash := by
  obtain ⟨hgrows, hcan⟩ := installNotification_spec hsound.named hinstall
  refine ⟨hgrows.wellNamed hsound.named, ?_, ?_⟩
  · intro schema identity hholds
    cases hgrows.holds hholds with
    | inl hold =>
        exact hgrows.canUninstall (hsound.held schema identity hold)
    | inr hkey =>
        rw [hkey.1, hkey.2]
        exact hcan
  · intro names service hservice
    cases hgrows.services service hservice with
    | inl hold => exact hsound.services names service hold
    | inr hnew =>
        rw [hnew]
        exact Notifier.serviceName_ne_identity hash names n.identity

/-- An uninstallation whose procedure is not there does nothing. -/
theorem uninstall_spec {db next : Database} {n : Notifier}
    (hnamed : db.WellNamed) (huninstall : db.uninstall n = some next) :
    next = db ∧ ¬ db.CanUninstall n.schemaName n.identity ∨
      ∃ creator : Notifier, creator.schemaName = n.schemaName ∧
        creator.identity = n.identity ∧ Uninstalled creator db next := by
  unfold uninstall executeProcedure at huninstall
  split at huninstall
  next hprocedure =>
    left
    refine ⟨(Option.some.inj huninstall).symm, fun hcan => ?_⟩
    unfold CanUninstall at hcan
    have hnone : db.procedures
        (n.schemaName, Notifier.uninstallName n.identity) = none := hprocedure
    rw [hnone] at hcan
    cases hcan
  next creator hprocedure =>
    obtain ⟨_, hname⟩ := Prod.ext_iff.mp (hnamed _ _ hprocedure)
    exact absurd hname (Notifier.installName_ne_uninstallName _ _)
  next creator hprocedure =>
    right
    obtain ⟨hschema, hname⟩ := Prod.ext_iff.mp (hnamed _ _ hprocedure)
    exact ⟨creator, hschema, Notifier.uninstallName_inj hname,
      uninstalled_of_runUninstall huninstall⟩

theorem Sound.uninstall {hash : Str → UInt64} {db next : Database}
    {n : Notifier} (hsound : db.Sound hash)
    (huninstall : db.uninstall n = some next) : next.Sound hash := by
  cases uninstall_spec hsound.named huninstall with
  | inl habsent =>
      rw [habsent.1]
      exact hsound
  | inr hpresent =>
      obtain ⟨creator, _, _, hleft⟩ := hpresent
      refine ⟨hleft.wellNamed hsound.named, ?_, ?_⟩
      · intro schema identity hholds
        obtain ⟨hold, hother⟩ := hleft.holds hholds
        exact (hleft.canUninstall schema identity).mpr
          ⟨hsound.held schema identity hold, hother⟩
      · intro names service hservice
        rw [hleft.services] at hservice
        exact hsound.services names service (List.mem_of_mem_filter hservice)

/-- An uninstallation leaves nothing of the installation. -/
theorem Sound.nothing_after_uninstall {hash : Str → UInt64}
    {db next : Database} {n : Notifier} (hsound : db.Sound hash)
    (huninstall : db.uninstall n = some next) :
    ¬ next.Holds n.schemaName n.identity ∧
      ¬ next.CanUninstall n.schemaName n.identity := by
  cases uninstall_spec hsound.named huninstall with
  | inl habsent =>
      obtain ⟨hsame, hcannot⟩ := habsent
      rw [hsame]
      exact ⟨fun hholds => hcannot (hsound.held _ _ hholds), hcannot⟩
  | inr hpresent =>
      obtain ⟨creator, hschema, hidentity, hleft⟩ := hpresent
      rw [← hschema, ← hidentity]
      constructor
      · intro hholds
        exact (hleft.holds hholds).2 ⟨rfl, rfl⟩
      · intro hcan
        exact ((hleft.canUninstall _ _).mp hcan).2 ⟨rfl, rfl⟩

theorem Sound.getDependencyDbIdentities {hash : Str → UInt64}
    {db : Database} (hsound : db.Sound hash) (names : TableNames) :
    db.getDependencyDbIdentities (names.notifier hash) = [] := by
  unfold Database.getDependencyDbIdentities
  have hnone : db.services.filter (fun service =>
      service.name = (names.notifier hash).identity) = [] := by
    rw [List.filter_eq_nil_iff]
    intro service hservice hname
    exact hsound.services names service hservice (of_decide_eq_true hname)
  rw [hnone]
  rfl

end Database

namespace SqlServer

def Sound (hash : Str → UInt64) (server : SqlServer) : Prop :=
  ∀ name db, server name = some db → db.Sound hash

theorem use_spec {server next : SqlServer} {databaseName : Str}
    {script : Database → Option Database}
    (huse : server.use databaseName script = some next) :
    ∃ db after, server databaseName = some db ∧ script db = some after ∧
      next = Function.update server databaseName (some after) := by
  unfold use at huse
  obtain ⟨db, hdb, hscript⟩ := Option.bind_eq_some_iff.mp huse
  obtain ⟨after, hafter, hnext⟩ := Option.map_eq_some_iff.mp hscript
  exact ⟨db, after, hdb, hafter, hnext.symm⟩

theorem Sound.use {hash : Str → UInt64} {server next : SqlServer}
    {databaseName : Str} {script : Database → Option Database}
    (hsound : server.Sound hash)
    (hscript : ∀ db after, db.Sound hash → script db = some after →
      after.Sound hash)
    (huse : server.use databaseName script = some next) :
    next.Sound hash := by
  obtain ⟨db, after, hdb, hafter, hnext⟩ := use_spec huse
  intro name found hfound
  rw [hnext] at hfound
  by_cases hsame : name = databaseName
  · rw [hsame, Function.update_self] at hfound
    cases hfound
    exact hscript db after (hsound databaseName db hdb) hafter
  · rw [Function.update_of_ne hsame] at hfound
    exact hsound name found hfound

theorem Sound.perform {hash : Str → UInt64} {server next : SqlServer}
    {call : NotifierCall} (hsound : server.Sound hash)
    (hperform : call.perform hash server = some next) :
    next.Sound hash := by
  cases call with
  | start names =>
      unfold NotifierCall.perform at hperform
      dsimp only at hperform
      split_ifs at hperform
      · cases hperform
        exact hsound
      · exact hsound.use
          (fun _ _ hdb hscript => hdb.installNotification hscript) hperform
  | uninstall names =>
      exact hsound.use (fun _ _ hdb hscript => hdb.uninstall hscript) hperform

theorem Sound.checkServiceExists {hash : Str → UInt64} {server : SqlServer}
    (hsound : server.Sound hash) (names : TableNames) :
    server.checkServiceExists (names.notifier hash) = false := by
  unfold SqlServer.checkServiceExists
  cases hdb : server (names.notifier hash).databaseName with
  | none => rfl
  | some db =>
      dsimp only
      rw [(hsound _ db hdb).getDependencyDbIdentities names]
      rfl

theorem Sound.nothingLeft {hash : Str → UInt64} {server next : SqlServer}
    (hsound : server.Sound hash) {names : TableNames}
    (huninstall : (NotifierCall.uninstall names).perform hash server =
      some next) :
    next.NothingLeft (names.notifier hash) := by
  obtain ⟨db, after, hdb, hafter, hnext⟩ := use_spec huninstall
  intro found hfound
  rw [hnext, Function.update_self] at hfound
  cases hfound
  exact (hsound _ db hdb).nothing_after_uninstall hafter

end SqlServer

theorem sound_of_reachable {hash : Str → UInt64} {server : SqlServer}
    (hreach : (notifierCalls hash).Reachable server) : server.Sound hash :=
  hreach.invariant
    (fun _ hinit name db hdb => (hinit name db hdb).sound)
    (fun _ _ _ hsound hstep => SqlServer.Sound.perform hsound hstep)

/-- The script looks for a service named by the identity alone. -/
theorem tellsAndClears_iff {hash : Str → UInt64} {server : SqlServer}
    (hreach : (notifierCalls hash).Reachable server) (names : TableNames) :
    TellsAndClears hash server names ↔
      ¬ server.ServicePresent (names.notifier hash) := by
  have hsound := sound_of_reachable hreach
  have hcheck := hsound.checkServiceExists names
  constructor
  · intro htells hpresent
    have htrue := htells.1.mpr hpresent
    rw [hcheck] at htrue
    cases htrue
  · intro habsent
    refine ⟨⟨fun htrue => ?_, fun hpresent => absurd hpresent habsent⟩,
      fun next huninstall => hsound.nothingLeft huninstall⟩
    rw [hcheck] at htrue
    cases htrue

/-! ## The table of the test -/

/-- `std::hash` of the names of the table of the test. -/
def testdataHash (_ : Str) : UInt64 := 0x48611bce2eb29ce4

def testdata : TableNames :=
  ⟨"test".toList, "dbo".toList, "testdata".toList⟩

def testDatabase : Database where
  schemas := ["dbo".toList]
  columns _ := [("id".toList, "int".toList), ("text".toList, "varchar".toList)]
  services := []
  queues := []
  triggers := []
  procedures _ := none

def testServer : SqlServer :=
  Function.update (fun _ => none) "test".toList (some testDatabase)

def startedServer : SqlServer :=
  ((notifierCalls testdataHash).run testServer [.start testdata]).getD
    testServer

def uninstalledServer : SqlServer :=
  ((notifierCalls testdataHash).run testServer
    [.start testdata, .uninstall testdata]).getD testServer

theorem testServer_init : (notifierCalls testdataHash).init testServer := by
  intro name db hdb
  have hsame : db = testDatabase := by
    unfold testServer at hdb
    by_cases hname : name = "test".toList
    · rw [hname, Function.update_self] at hdb
      exact (Option.some.inj hdb).symm
    · rw [Function.update_of_ne hname] at hdb
      cases hdb
  rw [hsame]
  refine ⟨?_, fun _ => rfl, fun _ service hservice => by cases hservice⟩
  intro schema identity hholds
  obtain hnone | hnone | hnone | hnone := hholds <;> cases hnone

theorem run_getD_reachable {hash : Str → UInt64} {server : SqlServer}
    (hinit : (notifierCalls hash).init server) (calls : List NotifierCall) :
    (notifierCalls hash).Reachable
      (((notifierCalls hash).run server calls).getD server) := by
  cases hrun : (notifierCalls hash).run server calls with
  | none => exact ⟨server, [], hinit, rfl⟩
  | some next => exact ⟨server, calls, hinit, hrun⟩

theorem uninstalled_tellsAndClears :
    ((notifierCalls testdataHash).run testServer
        [.start testdata, .uninstall testdata]).isSome ∧
      TellsAndClears testdataHash uninstalledServer testdata :=
  ⟨by decide +kernel,
    (tellsAndClears_iff (run_getD_reachable testServer_init _) testdata).mpr
      (by decide +kernel)⟩

/-- After the start of the test the service is there, and the check does not
tell it. -/
theorem started_not_tellsAndClears :
    ((notifierCalls testdataHash).run testServer
        [.start testdata]).isSome ∧
      (notifierCalls testdataHash).Reachable startedServer ∧
      ¬ TellsAndClears testdataHash startedServer testdata := by
  refine ⟨by decide +kernel, run_getD_reachable testServer_init _,
    fun htells => ?_⟩
  have htold := htells.1.mpr (by decide +kernel)
  exact absurd htold (by decide +kernel)

end StoreCpp
