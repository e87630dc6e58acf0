import StoreCpp.ConcurrentAppend
import StoreCpp.SaveStatements

/-!
# Concurrent saves as texts

Each transaction of a concurrent `Save` starts with the text of a statement.
A text that the server reads as it was meant starts the transaction of
`mt_append_event`; any other text is some other statement, which runs at once,
and a text that cannot be built ends the `Save` with an exception.
-/

namespace StoreCpp

open StepMachine

/-- The group whose statement the client sends next. -/
def Client.nextGroup (client : Client) : Option (Str × List IEvent) :=
  client.saving.bind fun saving =>
    if saving.txn.isNone then saving.remaining.head? else none

/-- The client after the statement of its next group has returned without a
transaction of `mt_append_event`. -/
def Client.skip (client : Client) : Client :=
  { client with saving := client.saving.map fun saving =>
      { saving with remaining := saving.remaining.tail } }

namespace Cluster

variable {ι : Type} [DecidableEq ι] [Fintype ι]

def sendText (texts : Texts) (dbSchema : Str) (cluster : Cluster ι) (i : ι)
    (generateUuid : ℕ → Uuid) (now : Int64) (group : Str × List IEvent) :
    Option (Cluster ι) :=
  let client := cluster.clients i
  match texts.statement generateUuid dbSchema group with
  | none =>
      client.saving.map fun saving =>
        cluster.set i (client.leave saving.record client.pending)
  | some sql =>
      if texts.ReadAsMeant generateUuid dbSchema group sql then
        cluster.perform i (.send generateUuid now)
      else
        (texts.otherStatement sql cluster.tables).map fun tables =>
          { cluster with tables }.set i client.skip

def performText (texts : Texts) (dbSchema : Str) (cluster : Cluster ι)
    (i : ι) : ClientOp → Option (Cluster ι)
  | .send generateUuid now =>
      (cluster.clients i).nextGroup.bind
        (cluster.sendText texts dbSchema i generateUuid now)
  | op => cluster.perform i op

end Cluster

def concurrentStatements (texts : Texts) (dbSchema : Str) (ι : Type)
    [DecidableEq ι] [Fintype ι] : Machine (Cluster ι) (ι × ClientOp) where
  init := (concurrentSaves ι).init
  step cluster action :=
    cluster.performText texts dbSchema action.1 action.2

/-- The statements that are sent are read as they were meant. -/
def SendsRead (texts : Texts) (dbSchema : Str) {ι : Type}
    (cluster : Cluster ι) : ι × ClientOp → Prop
  | (i, .send generateUuid _) =>
      ∀ group ∈ (cluster.clients i).nextGroup,
        texts.Reads generateUuid dbSchema group
  | _ => True

instance (texts : Texts) (dbSchema : Str) {ι : Type} (cluster : Cluster ι)
    (action : ι × ClientOp) :
    Decidable (SendsRead texts dbSchema cluster action) :=
  match action with
  | (i, .send generateUuid _) =>
      inferInstanceAs (Decidable (∀ group ∈ (cluster.clients i).nextGroup,
        texts.Reads generateUuid dbSchema group))
  | (_, .append _) | (_, .beginSave) | (_, .execute) | (_, .commit)
  | (_, .fail) | (_, .finish) => isTrue trivial

section Refinement

variable {texts : Texts} {dbSchema : Str} {ι : Type} [DecidableEq ι]
  [Fintype ι]

/-- A client without a next group starts no transaction. -/
theorem Cluster.perform_send_of_none {cluster : Cluster ι} {i : ι}
    (hnone : (cluster.clients i).nextGroup = none)
    (generateUuid : ℕ → Uuid) (now : Int64) :
    cluster.perform i (.send generateUuid now) = none := by
  rw [Option.eq_none_iff_forall_ne_some]
  intro next hperform
  cases Cluster.performs_of_perform hperform with
  | send _ _ saving saving' hsaving hsend =>
      unfold Saving.send at hsend
      split at hsend
      · rename_i key events rest htxn hremaining
        unfold Client.nextGroup at hnone
        rw [hsaving, Option.bind_some, htxn, hremaining] at hnone
        cases hnone
      · cases hsend

theorem performText_eq {cluster : Cluster ι} {i : ι} {op : ClientOp}
    (hread : SendsRead texts dbSchema cluster (i, op)) :
    cluster.performText texts dbSchema i op = cluster.perform i op := by
  cases op with
  | send generateUuid now =>
      cases hgroup : (cluster.clients i).nextGroup with
      | none =>
          rw [Cluster.perform_send_of_none hgroup, Cluster.performText, hgroup]
          rfl
      | some group =>
          obtain ⟨sql, hsql, hmeant⟩ :=
            (Texts.reads_iff _ _ _ _).mp (hread group hgroup)
          rw [Cluster.performText, hgroup, Option.bind_some, Cluster.sendText]
          simp only [hsql, if_pos hmeant]
  | append | beginSave | execute | commit | fail | finish => rfl

theorem concurrentStatements_run_eq {cluster : Cluster ι}
    {actions : List (ι × ClientOp)}
    (hread : (concurrentStatements texts dbSchema ι).Guarded
      (SendsRead texts dbSchema) cluster actions) :
    (concurrentStatements texts dbSchema ι).run cluster actions =
      (concurrentSaves ι).run cluster actions :=
  (Machine.run_eq_of_guarded
    (fun _ _ hstep => performText_eq hstep) hread).1

end Refinement

/-- Where every statement that is sent is read as it was meant, the rows of
every stream have the versions from 1 to its version, each once, and the
events that a `Save` has committed under one text of a stream id are stored in
order under consecutive versions. -/
theorem concurrentSaves_versions {texts : Texts} {dbSchema : Str} {ι : Type}
    [DecidableEq ι] [Fintype ι] {cluster : Cluster ι}
    (hreach : (concurrentStatements texts dbSchema ι).ReachableUnder
      (SendsRead texts dbSchema) cluster) :
    cluster.tables.Versioned ∧
      ∀ i, ∀ record ∈ (cluster.clients i).records,
        (record.committed.map Prod.fst).Nodup ∧
        ∀ part ∈ record.committed,
          (∀ row ∈ part.2, row ∈ cluster.tables.mtEvents) ∧
          ∃ stream base, uuidIn part.1 = some stream ∧
            RowsOf stream base
              (record.batch.filter fun event => event.streamId = part.1)
              part.2 := by
  obtain ⟨start, actions, hinit, hread, hrun⟩ := hreach
  rw [concurrentStatements_run_eq hread] at hrun
  exact callVersions_of_reachable ⟨start, actions, hinit, hrun⟩

def lowerCaseEvent : IEvent where
  seqId := 0
  id := []
  streamId := "00000000-0000-0000-0000-0000000000a1".toList
  type := "LowerCase".toList
  version := 0
  data := .null
  timestamp := 0

def upperCaseEvent : IEvent := {
  lowerCaseEvent with
  streamId := "00000000-0000-0000-0000-0000000000A1".toList
  type := "UpperCase".toList }

def idleCluster : Cluster Unit where
  tables := emptyTables
  clients _ := { pending := [], saving := none, history := [] }

def twoSpellingsOps : List ClientOp :=
  [.append lowerCaseEvent, .append upperCaseEvent, .beginSave] ++
    appendOne 2 1 ++ [.commit] ++ appendOne 1 2 ++ [.commit, .finish]

def twoSpellings : Option (Cluster Unit) :=
  (concurrentSaves Unit).run idleCluster
    (twoSpellingsOps.map fun op => ((), op))

def spelledStream : Uuid := 0xa1#128

def twoSpellingsRecord : Option SaveRecord :=
  twoSpellings.bind fun cluster => (cluster.clients ()).history.head?

/-- The group of the upper-case id comes first in key order. -/
theorem twoSpellingsRecord_eq :
    twoSpellingsRecord.map (fun record =>
      ((record.sentFor spelledStream).map IEvent.type,
        (record.rowsFor spelledStream).map fun row =>
          (row.version, row.type))) =
      some (["LowerCase".toList, "UpperCase".toList],
        [(1, "UpperCase".toList), (2, "LowerCase".toList)]) := by
  decide +kernel

theorem twoSpellingsOps_read :
    (concurrentSaves Unit).Guarded (SendsRead nullTexts "dwh".toList)
      idleCluster (twoSpellingsOps.map fun op => ((), op)) := by
  decide +kernel

/-- Both statements of that run are read as they were meant. -/
theorem twoSpellings_reachable : ∃ cluster record,
    twoSpellings = some cluster ∧ twoSpellingsRecord = some record ∧
      record ∈ (cluster.clients ()).records ∧
      (concurrentStatements nullTexts "dwh".toList Unit).ReachableUnder
        (SendsRead nullTexts "dwh".toList) cluster := by
  obtain ⟨record, hrecord, _⟩ :=
    Option.map_eq_some_iff.mp twoSpellingsRecord_eq
  obtain ⟨cluster, hcluster, hhead⟩ := Option.bind_eq_some_iff.mp hrecord
  have hinit : (concurrentSaves Unit).init idleCluster := by
    refine ⟨rfl, rfl, ?_, fun _ => rfl⟩
    intro stream row hrow
    cases hrow
  have hstep : ∀ (cluster : Cluster Unit) action,
      SendsRead nullTexts "dwh".toList cluster action →
        (concurrentSaves Unit).step cluster action =
          (concurrentStatements nullTexts "dwh".toList Unit).step cluster
            action :=
    fun _ _ hread => (performText_eq hread).symm
  obtain ⟨hsame, hguards⟩ :=
    Machine.run_eq_of_guarded hstep twoSpellingsOps_read
  refine ⟨cluster, record, hcluster, hrecord, ?_, idleCluster, _, hinit,
    (hguards _).mp twoSpellingsOps_read, hsame.symm.trans hcluster⟩
  exact List.mem_append_left _ (List.mem_of_mem_head? hhead)

theorem twoSpellings_versions : ∃ cluster record,
    twoSpellings = some cluster ∧ twoSpellingsRecord = some record ∧
      cluster.tables.Versioned ∧ (record.committed.map Prod.fst).Nodup := by
  obtain ⟨cluster, record, hcluster, hrecord, hmem, hreach⟩ :=
    twoSpellings_reachable
  obtain ⟨hversioned, hrecords⟩ := concurrentSaves_versions hreach
  exact ⟨cluster, record, hcluster, hrecord, hversioned,
    (hrecords () record hmem).1⟩

theorem twoSpellings_reordered :
    ¬ ∀ (texts : Texts) (dbSchema : Str) (cluster : Cluster Unit),
      (concurrentStatements texts dbSchema Unit).ReachableUnder
        (SendsRead texts dbSchema) cluster →
          cluster.tables.Versioned ∧
            ∀ i, ∀ record ∈ (cluster.clients i).records, ∀ stream,
              record.OrderKept stream := by
  intro hclaim
  obtain ⟨cluster, record, _, hrecord, hmem, hreach⟩ :=
    twoSpellings_reachable
  have heq := twoSpellingsRecord_eq
  rw [hrecord, Option.map_some, Option.some.injEq, Prod.mk.injEq] at heq
  obtain ⟨hsent, hrows⟩ := heq
  obtain ⟨base, rows, hperm, hkept⟩ :=
    (hclaim _ _ cluster hreach).2 () record hmem spelledStream
  have htypes := hkept.types
  rw [hsent] at htypes
  have hlength : rows.length = 2 := by
    simpa using congrArg List.length htypes
  obtain ⟨first, second, rfl⟩ := List.length_eq_two.mp hlength
  have hversions := hkept.versions
  simp only [List.map_cons, List.map_nil, List.length_cons, List.length_nil,
    List.range', List.cons.injEq, and_true] at hversions htypes
  have hsecond : (second.version, second.type) ∈
      [(1, "UpperCase".toList), (2, "LowerCase".toList)] := by
    rw [← hrows, ← (hperm.map _).mem_iff]
    simp
  rw [hversions.2, htypes.2] at hsecond
  simp at hsecond

end StoreCpp
