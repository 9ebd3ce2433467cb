import HostMonitoring.Data.Rfc3339
import HostMonitoring.Data.Uuid
import HostMonitoring.Framework.Table
import HostMonitoring.Framework.Transaction
import HostMonitoring.Protocol.Report

namespace HostMonitoring.Store

open HostMonitoring.Framework
open HostMonitoring.Protocol

inductive LifecycleStatus where
  | active
  | revoked
deriving DecidableEq

/-- `monitored_hosts`. -/
structure MonitoredHost where
  hostId : Uuid
  name : String
  os : String
  osVersion : Option String
  kernelVersion : Option String
  arch : String
  clientVersion : String
  capabilities : List Capability := []
  registeredAt : DateTime
  lastSeenAt : DateTime
  latestReportId : Option Uuid := none
  latestCollectedAt : Option DateTime := none
  latestIntervalSeconds : Option ℚ := none
  lifecycleStatus : LifecycleStatus := .active
  revokedAt : Option DateTime := none

instance : Keyed MonitoredHost where
  Clash r r' := r.hostId = r'.hostId
  symm _ _ := Eq.symm
  decidable _ _ := inferInstance

structure MetricSummary where
  cpuUsagePercent : Option ℚ
  memoryUsagePercent : Option ℚ
  networkReceivedBytesPerSecond : Option ℚ
  networkTransmittedBytesPerSecond : Option ℚ
  diskReadBytesPerSecond : Option ℚ
  diskWrittenBytesPerSecond : Option ℚ
  maxTemperatureCelsius : Option ℚ
  gpuUtilizationPercent : Option ℚ
  gpuMemoryUsagePercent : Option ℚ
deriving DecidableEq

/-- `client_metric_reports`. -/
structure MetricReport where
  reportId : Uuid
  hostId : Uuid
  schemaVersion : UInt16
  collectedAt : DateTime
  receivedAt : DateTime
  intervalSeconds : ℚ
  payload : Option ClientReport
  metrics : MetricSummary
  aggregatedAt : Option DateTime := none

instance : Keyed MetricReport where
  Clash r r' := r.reportId = r'.reportId
  symm _ _ := Eq.symm
  decidable _ _ := inferInstance

/-- `client_credentials`. -/
structure ClientCredential where
  credentialId : Uuid
  hostId : Uuid
  tokenHash : String
  issuedAt : DateTime
  lastUsedAt : Option DateTime := none
  revokedAt : Option DateTime := none

instance : Keyed ClientCredential where
  Clash r r' := r.credentialId = r'.credentialId ∨ r.tokenHash = r'.tokenHash
  symm _ _ := Or.imp Eq.symm Eq.symm
  decidable _ _ := inferInstance

inductive InviteStatus where
  | pending
  | active
  | cancelled
deriving DecidableEq

/-- `client_instance_invites`. -/
structure InstanceInvite where
  inviteId : Uuid
  instanceId : Uuid
  activationCodeHash : String
  displayName : String
  status : InviteStatus := .pending
  createdAt : DateTime
  activatedAt : Option DateTime := none
  cancelledAt : Option DateTime := none

namespace InstanceInvite

/-- `client_instance_invites_one_pending`. -/
def OnePending (r r' : InstanceInvite) : Prop :=
  r.status = .pending ∧ r'.status = .pending ∧ r.instanceId = r'.instanceId

instance : DecidableRel OnePending := fun _ _ => inferInstanceAs (Decidable (_ ∧ _ ∧ _))

end InstanceInvite

instance : Keyed InstanceInvite where
  Clash r r' := r.inviteId = r'.inviteId ∨ r.activationCodeHash = r'.activationCodeHash ∨
    r.OnePending r'
  symm _ _ := Or.imp Eq.symm (Or.imp Eq.symm fun h => ⟨h.2.1, h.1, h.2.2.symm⟩)
  decidable _ _ := inferInstance

inductive PairingRowStatus where
  | pending
  | active
  | denied
deriving DecidableEq

/-- `client_pairing_requests`. -/
structure PairingRequest where
  requestId : Uuid
  requestedHostId : Uuid
  os : String
  osVersion : Option String
  kernelVersion : Option String
  arch : String
  clientVersion : String
  tokenHash : String
  pollingSecretHash : String
  status : PairingRowStatus := .pending
  inviteId : Option Uuid := none
  instanceId : Option Uuid := none
  expiresAt : DateTime
  createdAt : DateTime
  activatedAt : Option DateTime := none

/-- A unique column admits any number of nulls. -/
def SameValue (a b : Option Uuid) : Prop := a = b ∧ a ≠ none

instance : DecidableRel SameValue := fun _ _ => inferInstanceAs (Decidable (_ ∧ _))

instance : Keyed PairingRequest where
  Clash r r' := r.requestId = r'.requestId ∨ r.tokenHash = r'.tokenHash ∨
    r.pollingSecretHash = r'.pollingSecretHash ∨ SameValue r.inviteId r'.inviteId
  symm _ _ := Or.imp Eq.symm (Or.imp Eq.symm (Or.imp Eq.symm fun h => ⟨h.1.symm, h.1 ▸ h.2⟩))
  decidable _ _ := inferInstance

/-- `audit_events`; the event number is the position. -/
structure AuditEvent where
  action : String
  target : String
  detail : Option String
  actor : String
  createdAt : DateTime

/-- The four columns one metric has in an hourly row. -/
structure ScalarAggregate where
  count : Int := 0
  min : Option ℚ := none
  max : Option ℚ := none
  avg : Option ℚ := none
deriving DecidableEq

/-- The samples of one host in one hour; the metrics in the order of their columns. -/
structure HourlyAggregate where
  hostId : Uuid
  bucketStart : DateTime
  intervalStart : DateTime
  intervalEnd : DateTime
  sampleCount : Int
  metrics : Fin 9 → ScalarAggregate

/-- `client_metric_hourly_aggregates`. -/
structure HourlyRow extends HourlyAggregate where
  updatedAt : DateTime

def HourlyAggregate.key (a : HourlyAggregate) : Uuid × DateTime := (a.hostId, a.bucketStart)

instance : Keyed HourlyRow where
  Clash r r' := r.key = r'.key
  symm _ _ := Eq.symm
  decidable _ _ := inferInstance

/-- The `CHECK` constraints of `client_metric_hourly_aggregates`. -/
def HourlyRow.admissible (r : HourlyRow) : Bool :=
  decide (0 < r.sampleCount) && DateTime.sqlLe r.bucketStart r.intervalStart &&
    DateTime.sqlLe r.intervalStart r.intervalEnd &&
    decide (∀ i, 0 ≤ (r.metrics i).count ∧ (r.metrics i).count ≤ r.sampleCount)

structure Db where
  hosts : Table MonitoredHost
  reports : Table MetricReport
  credentials : Table ClientCredential
  invites : Table InstanceInvite
  pairings : Table PairingRequest
  audit : List AuditEvent
  hourly : Table HourlyRow

def Db.empty : Db := ⟨.empty, .empty, .empty, .empty, .empty, [], .empty⟩

inductive SqlError where
  | uniqueViolation
  | foreignKeyViolation
  | checkViolation
  /-- Anything the database reports by itself: busy, I/O, a cancelled call. -/
  | fault (code : Nat)
deriving DecidableEq

inductive ReportStoreError where
  | unauthorized
  | reportIdConflict
deriving DecidableEq

def ReportStoreError.message : ReportStoreError → String
  | .unauthorized => "monitoring host or credential no longer exists"
  | .reportIdConflict => "report_id already belongs to another host"

/-- The errors behind `anyhow::Error`. -/
inductive StoreError where
  | sql (e : SqlError)
  | uuid
  | report (e : ReportStoreError)
  | ensure (message : String)
deriving DecidableEq

/-- What the database answers in place of a statement, by its number in the
call; `none` where it answers the statement. By `ties` it ranks the rows that an
`ORDER BY` leaves in any order. -/
structure Faults where
  boundary : Boundary StoreError
  statement : Nat → Option StoreError
  ties : Uuid → Nat

def Faults.none : Faults := ⟨.quiet _, fun _ => .none, fun _ => 0⟩

end HostMonitoring.Store
