import HostMonitoring.Store.Invites
import Mathlib.Data.Rat.Floor

namespace HostMonitoring.Store

open HostMonitoring.Framework
open HostMonitoring.Framework.Tx
open HostMonitoring.Protocol

structure HostRow where
  hostId : Uuid
  name : String
  os : String
  osVersion : Option String
  kernelVersion : Option String
  arch : String
  clientVersion : String
  capabilities : List Capability
  registeredAt : DateTime
  lastSeenAt : DateTime
  latestCollectedAt : Option DateTime
  latestIntervalSeconds : Option ℚ
  metrics : MetricSummary
deriving DecidableEq

/-- The metrics a left join finds no report for. -/
def MetricSummary.null : MetricSummary := ⟨none, none, none, none, none, none, none, none, none⟩

/-- The report the latest pointer of a host names. -/
def latestReport (h : MonitoredHost) (db : Db) : Option MetricReport :=
  db.reports.find? fun r => decide (h.latestReportId = some r.reportId)

/-- `HOST_SELECT` for one host. -/
def hostRow (db : Db) (h : MonitoredHost) : HostRow where
  hostId := h.hostId
  name := h.name
  os := h.os
  osVersion := h.osVersion
  kernelVersion := h.kernelVersion
  arch := h.arch
  clientVersion := h.clientVersion
  capabilities := h.capabilities
  registeredAt := h.registeredAt
  lastSeenAt := h.lastSeenAt
  latestCollectedAt := h.latestCollectedAt
  latestIntervalSeconds := h.latestIntervalSeconds
  metrics := (latestReport h db).elim .null MetricReport.metrics

structure HostSummary where
  id : String
  name : String
  os : String
  osVersion : Option String
  kernelVersion : Option String
  arch : String
  clientVersion : String
  registeredAt : DateTime
  lastSeenAt : DateTime
  latestCollectedAt : Option DateTime
  status : String
  capabilities : List Capability
  metrics : MetricSummary
deriving DecidableEq

/-- Both times are readings of `Utc::now`, which knows no leap second, so the second that `chrono`
adds across one is left out. -/
def hostStatus (lastSeen : DateTime) (interval : Option ℚ) (now : DateTime) : String :=
  let age : ℚ := max (Int.tdiv ((now.secs - lastSeen.secs) * 1000000000 +
    ((now.nanos : Int) - lastSeen.nanos)) 1000000000) 0
  let interval := max 1 (min (interval.getD 10) 3600)
  if age ≤ max (interval * 3) 30 then "online"
  else if age ≤ max (interval * 12) 300 then "stale"
  else "offline"

def summarize (now : DateTime) (row : HostRow) : HostSummary where
  id := row.hostId.toText
  name := row.name
  os := row.os
  osVersion := row.osVersion
  kernelVersion := row.kernelVersion
  arch := row.arch
  clientVersion := row.clientVersion
  registeredAt := row.registeredAt
  lastSeenAt := row.lastSeenAt
  latestCollectedAt := row.latestCollectedAt
  status := hostStatus row.lastSeenAt row.latestIntervalSeconds now
  capabilities := row.capabilities
  metrics := row.metrics

/-- `ORDER BY h.registered_at,h.host_id`. -/
def registeredBefore (h h' : MonitoredHost) : Bool :=
  DateTime.sqlLt h.registeredAt h'.registeredAt ||
    (DateTime.sqlLe h.registeredAt h'.registeredAt && decide (h.hostId ≤ h'.hostId))

/-- A negative limit is none, a negative offset zero. -/
def listedHosts (limit offset : Int) (db : Db) : List MonitoredHost :=
  let hosts := ((db.hosts.rows.filter fun h => decide (h.lifecycleStatus = .active)).mergeSort
    registeredBefore).drop offset.toNat
  if limit < 0 then hosts else hosts.take limit.toNat

theorem mem_of_listed (limit offset : Int) (db : Db) (h : MonitoredHost)
    (hm : h ∈ listedHosts limit offset db) : h ∈ db.hosts := by
  have inDrop : h ∈ ((db.hosts.rows.filter fun h => decide (h.lifecycleStatus = .active)).mergeSort
      registeredBefore).drop offset.toNat := by
    unfold listedHosts at hm
    split_ifs at hm
    · exact hm
    · exact List.mem_of_mem_take hm
  have sorted := List.mem_mergeSort.mp (List.mem_of_mem_drop inDrop)
  exact List.mem_of_mem_filter sorted

def listHosts (limit offset : Int) (now : DateTime) (db : Db) : List HostSummary × Nat :=
  ((listedHosts limit offset db).map fun h => summarize now (hostRow db h),
    db.hosts.count fun h => decide (h.lifecycleStatus = .active))

def getHostRow (hostId : Uuid) (db : Db) : Option HostRow :=
  (db.hosts.find? fun h => decide (h.hostId = hostId) && decide (h.lifecycleStatus = .active)).map
    (hostRow db)

/-- The second statement of `getHost`; it fails when the host is gone. -/
def getHostPayload (hostId : Uuid) (db : Db) : Option (Option ClientReport) :=
  (db.hosts.find? fun h => decide (h.hostId = hostId)).map fun h =>
    (latestReport h db).bind MetricReport.payload

/-- Both statements on one state. -/
def getHost (hostId : Uuid) (now : DateTime) (db : Db) :
    Option (HostSummary × Option ClientReport) :=
  match getHostRow hostId db, getHostPayload hostId db with
  | some row, some payload => some (summarize now row, payload)
  | _, _ => none

def updateRemark (f : Faults) (hostId : Uuid) (remark actor : String) (auditedAt : DateTime) :
    Db → Except StoreError Bool × Db :=
  transact f.boundary do
    let rowsAffected ← execute (f.statement 0) fun db =>
      .ok (db.hosts.count fun h => decide (h.hostId = hostId), { db with
        hosts := db.hosts.modify (fun h => decide (h.hostId = hostId))
          (fun h => { h with name := remark }) fun _ _ => id })
    if rowsAffected = 1 then do
      audit (f.statement 1) "monitoring.instance.remark.update" hostId.toText none actor auditedAt
      return .commit true
    else return .rollback (.ok false)

theorem updateRemark_cases (f : Faults) (hostId : Uuid) (remark actor : String)
    (auditedAt : DateTime) (db db' : Db) (r : Except StoreError Bool)
    (h : updateRemark f hostId remark actor auditedAt db = (r, db')) :
    (db' = db ∧ r ≠ .ok true) ∨
    (r = .ok true ∧ (∃ host ∈ db.hosts, host.hostId = hostId) ∧
      db' = { db with
        hosts := db.hosts.modify (fun h => decide (h.hostId = hostId))
          (fun h => { h with name := remark }) fun _ _ => id
        audit := db.audit ++
          [⟨"monitoring.instance.remark.update", hostId.toText, none, actor, auditedAt⟩] }) := by
  obtain ⟨⟨e, rfl⟩, rfl⟩ | ⟨⟨w, hb⟩, rfl⟩ | ⟨a, rfl, hb⟩ := transact_cases _ _ _ _ _ h
  · exact Or.inl ⟨rfl, by simp⟩
  · simp only [bind_ok, execute_ok] at hb
    obtain ⟨rowsAffected, _, _, hb⟩ := hb
    split_ifs at hb with h1
    · simp only [bind_ok, pure_ok] at hb
      obtain ⟨_, _, _, hb, _⟩ := hb
      cases hb
    · rw [pure_ok] at hb
      cases hb.1
      exact Or.inl ⟨rfl, by simp⟩
  · simp only [bind_ok, execute_ok, Except.ok.injEq, Prod.mk.injEq] at hb
    obtain ⟨rowsAffected, _, ⟨_, hn, rfl⟩, hb⟩ := hb
    split_ifs at hb with h1
    · simp only [bind_ok, pure_ok, audit_ok] at hb
      obtain ⟨_, _, ⟨_, rfl⟩, hb, rfl⟩ := hb
      cases hb
      refine Or.inr ⟨rfl, ?_, rfl⟩
      rw [h1] at hn
      have hpos : 0 < db.hosts.rows.countP fun h => decide (h.hostId = hostId) := by
        change 0 < db.hosts.count _
        rw [hn]
        exact Nat.one_pos
      obtain ⟨host, hm, hid⟩ := List.countP_pos_iff.mp hpos
      exact ⟨host, hm, of_decide_eq_true hid⟩
    · rw [pure_ok] at hb
      cases hb.1

/-- Deleting a host takes along every row that references it. -/
def cascadeHost (hostId : Uuid) (db : Db) : Db :=
  { db with
    hosts := db.hosts.delete fun h => decide (h.hostId = hostId)
    reports := db.reports.delete fun r => decide (r.hostId = hostId)
    credentials := db.credentials.delete fun c => decide (c.hostId = hostId)
    hourly := db.hourly.delete fun r => decide (r.hostId = hostId) }

def PairingRequest.ofHost (hostId : Uuid) (r : PairingRequest) : Bool :=
  decide (r.instanceId = some hostId) || (decide (r.requestedHostId = hostId) &&
    (decide (r.status = .pending) || decide (r.status = .denied)))

def removePairings (hostId : Uuid) (db : Db) : Db :=
  { db with pairings := db.pairings.delete (PairingRequest.ofHost hostId) }

def removeInvites (hostId : Uuid) (db : Db) : Db :=
  { db with invites := db.invites.delete fun r => decide (r.instanceId = hostId) }

def deleteHost (f : Faults) (hostId : Uuid) (actor : String) (auditedAt : DateTime) :
    Db → Except StoreError Bool × Db :=
  transact f.boundary do
    let found ← query (f.statement 0) fun db => db.hosts.any fun h => decide (h.hostId = hostId)
    if found = false then return .rollback (.ok false)
    else do
      audit (f.statement 1) "monitoring.instance.delete" hostId.toText
        (some "host, reports, credentials, pairings and invites permanently deleted") actor auditedAt
      execute (f.statement 2) fun db => .ok ((), removePairings hostId db)
      execute (f.statement 3) fun db => .ok ((), removeInvites hostId db)
      execute (f.statement 4) fun db => .ok ((), cascadeHost hostId db)
      return .commit true

theorem deleteHost_cases (f : Faults) (hostId : Uuid) (actor : String) (auditedAt : DateTime)
    (db db' : Db) (r : Except StoreError Bool)
    (h : deleteHost f hostId actor auditedAt db = (r, db')) :
    (db' = db ∧ r ≠ .ok true) ∨
    (r = .ok true ∧ (∃ host ∈ db.hosts, host.hostId = hostId) ∧
      db' = cascadeHost hostId (removeInvites hostId (removePairings hostId { db with
        audit := db.audit ++ [⟨"monitoring.instance.delete", hostId.toText,
          some "host, reports, credentials, pairings and invites permanently deleted",
          actor, auditedAt⟩] }))) := by
  obtain ⟨⟨e, rfl⟩, rfl⟩ | ⟨⟨w, hb⟩, rfl⟩ | ⟨a, rfl, hb⟩ := transact_cases _ _ _ _ _ h
  · exact Or.inl ⟨rfl, by simp⟩
  · simp only [bind_ok, query_ok] at hb
    obtain ⟨found, _, _, hb⟩ := hb
    split_ifs at hb with h0
    · rw [pure_ok] at hb
      cases hb.1
      exact Or.inl ⟨rfl, by simp⟩
    · simp only [bind_ok, pure_ok] at hb
      obtain ⟨_, _, _, _, _, _, _, _, _, _, _, _, hb, _⟩ := hb
      cases hb
  · simp only [bind_ok, query_ok] at hb
    obtain ⟨found, db₀, ⟨_, hf, rfl⟩, hb⟩ := hb
    split_ifs at hb with h0
    · rw [pure_ok] at hb
      cases hb.1
    · simp only [bind_ok, pure_ok, execute_ok, audit_ok, Except.ok.injEq, Prod.mk.injEq] at hb
      obtain ⟨_, _, ⟨_, rfl⟩, _, _, ⟨_, _, rfl⟩, _, _, ⟨_, _, rfl⟩, _, _, ⟨_, _, rfl⟩, hb, rfl⟩ := hb
      cases hb
      refine Or.inr ⟨rfl, ?_, rfl⟩
      rw [Bool.not_eq_false, hf, Table.any_eq_true] at h0
      obtain ⟨host, hm, hid⟩ := h0
      exact ⟨host, hm, of_decide_eq_true hid⟩

end HostMonitoring.Store
