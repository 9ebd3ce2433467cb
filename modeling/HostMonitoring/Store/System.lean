import HostMonitoring.Framework.Runs
import HostMonitoring.Retention.AggregateCases
import HostMonitoring.Store.Hosts
import HostMonitoring.Store.Pairings
import HostMonitoring.Store.Reports

namespace HostMonitoring.Store

open HostMonitoring.Framework
open HostMonitoring.Framework.Tx
open HostMonitoring.Protocol
open HostMonitoring.Retention

/-- The calls that may change the store, each one serializable transaction, with
the clock readings, random draws and faults it meets. -/
inductive Op where
  | createInvite (f : Faults) (displayName actor : String) (inviteId instanceId : Uuid)
      (activationCode activationHash : String) (createdAt auditedAt : DateTime)
  | cancelInvite (f : Faults) (inviteId : Uuid) (actor : String) (cancelledAt auditedAt : DateTime)
  | createPairing (f : Faults) (request : ClientPairingRequest) (requestId : Uuid)
      (now createdAt : DateTime)
  | activate (f : Faults) (requestId : Uuid) (activationHash actor : String) (credentialId : Uuid)
      (now auditedAt : DateTime)
  | storeReport (f : Faults) (write : ReportWrite) (receivedAt : DateTime)
  | storeReportBatch (boundary : Boundary StoreError) (reports : List BatchItem)
  | updateRemark (f : Faults) (hostId : Uuid) (remark actor : String) (auditedAt : DateTime)
  | deleteHost (f : Faults) (hostId : Uuid) (actor : String) (auditedAt : DateTime)
  | aggregateRawBatch (f : Faults) (cutoff now : DateTime) (batchSize : Nat)
  | deleteAggregatedRawBatch (f : Faults) (batchSize : Nat)
  | deleteExpiredAggregateBatch (f : Faults) (cutoff : DateTime) (batchSize : Nat)

inductive Reply where
  | invite (r : Except StoreError (CreateInviteResult × Option String))
  | cancel (r : Except StoreError CancelInviteResult)
  | pairing (r : Except StoreError CreatePairingResult)
  | activate (r : Except StoreError ActivateResult)
  | report (r : Except StoreError (Bool × DateTime))
  | batch (r : Except StoreError (List (Except StoreError (Bool × DateTime))))
  | changed (r : Except StoreError Bool)
  | retention (r : Except StoreError Nat)

def Op.exec : Op → Db → Reply × Db
  | .createInvite f displayName actor inviteId instanceId activationCode activationHash createdAt
      auditedAt, db =>
    Prod.map .invite id (Store.createInvite f displayName actor inviteId instanceId activationCode
      activationHash createdAt auditedAt db)
  | .cancelInvite f inviteId actor cancelledAt auditedAt, db =>
    Prod.map .cancel id (Store.cancelInvite f inviteId actor cancelledAt auditedAt db)
  | .createPairing f request requestId now createdAt, db =>
    Prod.map .pairing id (Store.createPairing f request requestId now createdAt db)
  | .activate f requestId activationHash actor credentialId now auditedAt, db =>
    Prod.map .activate id (Store.activate f requestId activationHash actor credentialId now
      auditedAt db)
  | .storeReport f write receivedAt, db =>
    Prod.map .report id (Store.storeReport f write receivedAt db)
  | .storeReportBatch boundary reports, db =>
    Prod.map .batch id (Store.storeReportBatch boundary reports db)
  | .updateRemark f hostId remark actor auditedAt, db =>
    Prod.map .changed id (Store.updateRemark f hostId remark actor auditedAt db)
  | .deleteHost f hostId actor auditedAt, db =>
    Prod.map .changed id (Store.deleteHost f hostId actor auditedAt db)
  | .aggregateRawBatch f cutoff now batchSize, db =>
    Prod.map .retention id (Retention.aggregateRawBatch f cutoff now batchSize db)
  | .deleteAggregatedRawBatch f batchSize, db =>
    Prod.map .retention id (Retention.deleteAggregatedRawBatch f batchSize db)
  | .deleteExpiredAggregateBatch f cutoff batchSize, db =>
    Prod.map .retention id (Retention.deleteExpiredAggregateBatch f cutoff batchSize db)

def store : Machine Db Op Reply := ⟨.empty, Op.exec⟩

/-- The random identifiers a call draws. -/
def Op.uuids : Op → List Uuid
  | .createInvite _ _ _ inviteId instanceId _ _ _ _ => [inviteId, instanceId]
  | .createPairing _ _ requestId _ _ => [requestId]
  | .activate _ _ _ _ credentialId _ _ => [credentialId]
  | _ => []

/-- The activation code a call draws, by its hash. -/
def Op.codes : Op → List String
  | .createInvite _ _ _ _ _ _ activationHash _ _ => [activationHash]
  | _ => []

def drawn (ops : List Op) : List Uuid := ops.flatMap Op.uuids

def codes (ops : List Op) : List String := ops.flatMap Op.codes

/-- No identifier and no code is drawn twice. -/
def Fresh (ops : List Op) : Prop := (drawn ops).Nodup ∧ (codes ops).Nodup

theorem fresh_append (past later : List Op) (h : Fresh (past ++ later)) :
    Fresh past ∧ (∀ u ∈ drawn past, u ∉ drawn later) ∧ ∀ c ∈ codes past, c ∉ codes later := by
  obtain ⟨hu, hc⟩ := h
  rw [drawn, List.flatMap_append, List.nodup_append] at hu
  rw [codes, List.flatMap_append, List.nodup_append] at hc
  exact ⟨⟨hu.1, hc.1⟩, fun u hm hm' => hu.2.2 u hm u hm' rfl, fun c hm hm' => hc.2.2 c hm c hm' rfl⟩

theorem fresh_closed (past : List Op) (op : Op) (h : Fresh (past ++ [op])) : Fresh past :=
  (fresh_append past [op] h).1

/-- The request of a laptop that wants to be monitored. -/
def laptop : ClientPairingRequest where
  host := ⟨"00000000-0000-0000-0000-000000000009", "linux", none, none, "x86_64", "0.1.0"⟩
  tokenHash := "token"
  pollingSecretHash := "secret"

/-- The laptop has been invited and asks for pairing. -/
def laptopPaired : List Op :=
  [.createInvite .none "laptop" "admin" ⟨1⟩ ⟨2⟩ "code" "code hash" noon noon,
    .createPairing .none laptop ⟨3⟩ noon noon]

/-- The laptop's pairing has been activated as instance 2. -/
def laptopActive : List Op := laptopPaired ++ [.activate .none ⟨3⟩ "code hash" "admin" ⟨4⟩ noon noon]

def laptopReport (reportId : String) (collectedAt : DateTime) : ReportWrite :=
  cpuReport "00000000-0000-0000-0000-000000000002" reportId collectedAt 50

/-- The active laptop sends a report and then a newer one. -/
def laptopReported : List Op := laptopActive ++
  [.storeReport .none (laptopReport "00000000-0000-0000-0000-000000000005" noon) noon,
    .storeReport .none (laptopReport "00000000-0000-0000-0000-000000000006" (noon.plusSeconds 10))
      (noon.plusSeconds 10)]

theorem fresh_laptopReported : Fresh laptopReported := by
  simp [Fresh, drawn, codes, laptopReported, laptopActive, laptopPaired, Op.uuids, Op.codes]

end HostMonitoring.Store
