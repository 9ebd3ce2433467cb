import HostMonitoring.Data.Text
import HostMonitoring.Store.Schema

namespace HostMonitoring.Store

open HostMonitoring.Framework
open HostMonitoring.Framework.Tx
open HostMonitoring.Protocol

/-- A report that passed the checks of the request handler. -/
structure ReportWrite where
  report : ClientReport
  tokenHash : String
  metrics : MetricSummary

def becomesLatest (collectedAt : DateTime) (reportId : Uuid) (previousReport : Option Uuid)
    (previousCollected : Option DateTime) : Bool :=
  match previousCollected with
  | none => true
  | some previous => decide (previous < collectedAt) || (decide (collectedAt = previous) &&
      match previousReport with
      | none => true
      | some previousId => decide (previousId < reportId))

/-- `ON CONFLICT(report_id) DO NOTHING RETURNING received_at`. -/
def insertReport (row : MetricReport) (db : Db) : Except StoreError (Option DateTime × Db) :=
  match db.reports.insert? row with
  | none => .ok (none, db)
  | some reports =>
    if db.hosts.any fun h => decide (h.hostId = row.hostId) then
      .ok (some row.receivedAt, { db with reports })
    else .error (.sql .foreignKeyViolation)

/-- The row of a report; only the newest one carries its payload. -/
def reportRow (write : ReportWrite) (reportId hostId : Uuid) (receivedAt : DateTime)
    (latest : Bool) : MetricReport where
  reportId
  hostId
  schemaVersion := write.report.schemaVersion
  collectedAt := write.report.collectedAt
  receivedAt
  intervalSeconds := write.report.intervalSeconds
  payload := if latest then some write.report else none
  metrics := write.metrics

def promote (report : ClientReport) (reportId : Uuid) (stored : DateTime) (h : MonitoredHost) :
    MonitoredHost :=
  { h with
    os := trim report.host.os
    osVersion := report.host.osVersion
    kernelVersion := report.host.kernelVersion
    arch := trim report.host.arch
    clientVersion := trim report.host.clientVersion
    capabilities := report.capabilities
    lastSeenAt := if DateTime.sqlLt stored h.lastSeenAt then h.lastSeenAt else stored
    latestReportId := some reportId
    latestCollectedAt := some report.collectedAt
    latestIntervalSeconds := some report.intervalSeconds }

def promoteHost (report : ClientReport) (hostId reportId : Uuid) (stored : DateTime)
    (hosts : Table MonitoredHost) : Table MonitoredHost :=
  hosts.modify (fun h => decide (h.hostId = hostId)) (promote report reportId stored)
    fun _ _ => id

def clearPayload (previous : Uuid) (reports : Table MetricReport) : Table MetricReport :=
  reports.modify (fun r => decide (r.reportId = previous)) (fun r => { r with payload := none })
    fun _ _ => id

theorem mem_promoteHost (report : ClientReport) (hostId reportId : Uuid) (stored : DateTime)
    (hosts : Table MonitoredHost) (h : MonitoredHost) :
    h ∈ promoteHost report hostId reportId stored hosts ↔
      (∃ h₀ ∈ hosts, h₀.hostId = hostId ∧ h = promote report reportId stored h₀) ∨
      (h ∈ hosts ∧ h.hostId ≠ hostId) := by
  refine (Table.mem_updated hosts.rows _ _ h).trans ?_
  simp only [decide_eq_true_eq, decide_eq_false_iff_not, ne_eq, Table.mem_def]

theorem mem_clearPayload (previous : Uuid) (reports : Table MetricReport) (r : MetricReport) :
    r ∈ clearPayload previous reports ↔
      (∃ r₀ ∈ reports, r₀.reportId = previous ∧ r = { r₀ with payload := none }) ∨
      (r ∈ reports ∧ r.reportId ≠ previous) := by
  refine (Table.mem_updated reports.rows _ _ r).trans ?_
  simp only [decide_eq_true_eq, decide_eq_false_iff_not, ne_eq, Table.mem_def]

def dropPayload (previous : Option Uuid) (reports : Table MetricReport) : Table MetricReport :=
  match previous with
  | some previous => clearPayload previous reports
  | none => reports

def touchCredential (tokenHash : String) (stored : DateTime) (credentials : Table ClientCredential) :
    Table ClientCredential :=
  credentials.modify (fun c => decide (c.tokenHash = tokenHash))
    (fun c => { c with lastUsedAt := some stored }) fun _ _ => id

/-- A newest report moves the latest pointer and takes the payload from the old one. -/
def advanceLatest (fault : Nat → Option StoreError) (latest : Bool) (report : ClientReport)
    (hostId reportId : Uuid) (stored : DateTime) (previousReport : Option Uuid) :
    Tx Db StoreError Unit :=
  if latest then do
    execute (fault 2) fun db =>
      .ok ((), { db with hosts := promoteHost report hostId reportId stored db.hosts })
    match previousReport.filter fun previous => decide (previous ≠ reportId) with
    | some previous =>
      execute (fault 3) fun db => .ok ((), { db with reports := clearPayload previous db.reports })
    | none => pure ()
  else pure ()

def authorizedHost (hostId : Uuid) (tokenHash : String) (db : Db) : Option MonitoredHost :=
  db.hosts.find? fun h => decide (h.hostId = hostId) && decide (h.lifecycleStatus = .active) &&
    db.credentials.any fun c => decide (c.hostId = h.hostId) && decide (c.tokenHash = tokenHash) &&
      c.revokedAt.isNone

def storeReportInTransaction (fault : Nat → Option StoreError) (write : ReportWrite)
    (receivedAt : DateTime) : Tx Db StoreError (Bool × DateTime) := do
  match Uuid.parseStr write.report.host.id, Uuid.parseStr write.report.reportId with
  | some hostId, some reportId =>
    let current ← query (fault 0) (authorizedHost hostId write.tokenHash)
    match current with
    | none => fail (.report .unauthorized)
    | some current =>
      let latest := becomesLatest write.report.collectedAt reportId current.latestReportId
        current.latestCollectedAt
      let inserted ← execute (fault 1)
        (insertReport (reportRow write reportId hostId receivedAt latest))
      match inserted with
      | none =>
        let existing ← query (fault 2) fun db =>
          db.reports.find? fun r => decide (r.reportId = reportId)
        match existing with
        | some row =>
          if row.hostId = hostId then return (false, row.receivedAt)
          else fail (.report .reportIdConflict)
        | none => fail (.report .reportIdConflict)
      | some stored =>
        advanceLatest fault latest write.report hostId reportId stored current.latestReportId
        execute (fault 4) fun db =>
          .ok ((), { db with credentials := touchCredential write.tokenHash stored db.credentials })
        return (true, stored)
  | _, _ => fail .uuid

/-- A report the store accepted: its row is new, the newest report moves the
host's latest pointer, and the credential was used. -/
structure Accepted (write : ReportWrite) (receivedAt : DateTime) (hostId reportId : Uuid)
    (host : MonitoredHost) (inserted : Table MetricReport) (db db' : Db) : Prop where
  row : db.reports.insert? (reportRow write reportId hostId receivedAt
    (becomesLatest write.report.collectedAt reportId host.latestReportId host.latestCollectedAt)) =
      some inserted
  hosts : db'.hosts =
    if becomesLatest write.report.collectedAt reportId host.latestReportId host.latestCollectedAt then
      promoteHost write.report hostId reportId receivedAt db.hosts
    else db.hosts
  reports : db'.reports =
    if becomesLatest write.report.collectedAt reportId host.latestReportId host.latestCollectedAt then
      dropPayload (host.latestReportId.filter fun previous => decide (previous ≠ reportId)) inserted
    else inserted
  credentials : db'.credentials = touchCredential write.tokenHash receivedAt db.credentials
  invites : db'.invites = db.invites
  pairings : db'.pairings = db.pairings
  audit : db'.audit = db.audit
  hourly : db'.hourly = db.hourly

namespace Accepted

variable {write : ReportWrite} {receivedAt : DateTime} {hostId reportId : Uuid}
  {host : MonitoredHost} {inserted : Table MetricReport} {db db' : Db}
  (acc : Accepted write receivedAt hostId reportId host inserted db db')
include acc

theorem fresh_report (r : MetricReport) (hr : r ∈ db.reports) : r.reportId ≠ reportId :=
  ((db.reports.insert?_eq_some _ _).mp acc.row).1 r hr

theorem mem_inserted (r : MetricReport) : r ∈ inserted ↔ r ∈ db.reports ∨
    r = reportRow write reportId hostId receivedAt (becomesLatest write.report.collectedAt reportId
      host.latestReportId host.latestCollectedAt) :=
  Table.mem_insert? _ _ _ _ acc.row

/-- Every row after an acceptance is the new one, or an old one that may have lost its payload. -/
theorem row_origin (r : MetricReport) (hr : r ∈ db'.reports) :
    r = reportRow write reportId hostId receivedAt (becomesLatest write.report.collectedAt reportId
      host.latestReportId host.latestCollectedAt) ∨
    ∃ r₀ ∈ db.reports, r = r₀ ∨ (host.latestReportId = some r₀.reportId ∧
      r = { r₀ with payload := none }) := by
  have plain (r : MetricReport) (hr : r ∈ inserted) := (acc.mem_inserted r).mp hr
  rw [acc.reports] at hr
  split_ifs at hr with hl
  · cases hp : host.latestReportId.filter fun previous => decide (previous ≠ reportId) with
    | none =>
      rw [hp] at hr
      obtain hr | hr := plain r hr
      · exact Or.inr ⟨r, hr, Or.inl rfl⟩
      · exact Or.inl hr
    | some previous =>
      rw [hp] at hr
      obtain ⟨hpointer, hne⟩ := Option.filter_eq_some_iff.mp hp
      obtain ⟨r₀, hr₀, hid, rfl⟩ | ⟨hr, _⟩ := (mem_clearPayload _ _ _).mp hr
      · obtain hr₀ | rfl := plain r₀ hr₀
        · exact Or.inr ⟨r₀, hr₀, Or.inr ⟨by rw [hid]; exact hpointer, rfl⟩⟩
        · exact absurd hid.symm (of_decide_eq_true hne)
      · obtain hr | hr := plain r hr
        · exact Or.inr ⟨r, hr, Or.inl rfl⟩
        · exact Or.inl hr
  · obtain hr | hr := plain r hr
    · exact Or.inr ⟨r, hr, Or.inl rfl⟩
    · exact Or.inl hr

/-- A row that the host's latest pointer does not name stays as it is. -/
theorem keeps_row (r : MetricReport) (hr : r ∈ db.reports)
    (hne : host.latestReportId ≠ some r.reportId) : r ∈ db'.reports := by
  have hr : r ∈ inserted := (acc.mem_inserted r).mpr (Or.inl hr)
  rw [acc.reports]
  split_ifs with hl
  · cases hp : host.latestReportId.filter fun previous => decide (previous ≠ reportId) with
    | none => exact hr
    | some previous =>
      have hpointer := (Option.filter_eq_some_iff.mp hp).1
      refine (mem_clearPayload _ _ _).mpr (Or.inr ⟨hr, fun hid => hne ?_⟩)
      rw [hpointer, hid]
  · exact hr

theorem new_row : reportRow write reportId hostId receivedAt (becomesLatest
    write.report.collectedAt reportId host.latestReportId host.latestCollectedAt) ∈ db'.reports := by
  have hr := (acc.mem_inserted _).mpr (Or.inr rfl)
  rw [acc.reports]
  split_ifs with hl
  · cases hp : host.latestReportId.filter fun previous => decide (previous ≠ reportId) with
    | none => exact hr
    | some previous =>
      have hne := (Option.filter_eq_some_iff.mp hp).2
      refine (mem_clearPayload _ _ _).mpr (Or.inr ⟨hr, fun hid => ?_⟩)
      exact of_decide_eq_true hne hid.symm
  · exact hr

/-- A newest report takes the payload from the row the pointer named before. -/
theorem cleared (newest : becomesLatest write.report.collectedAt reportId host.latestReportId
    host.latestCollectedAt = true) (r : MetricReport) (hr : r ∈ db'.reports)
    (hpointer : host.latestReportId = some r.reportId) (hne : r.reportId ≠ reportId) :
    r.payload = none := by
  have hp : (host.latestReportId.filter fun previous => decide (previous ≠ reportId)) =
      some r.reportId := by
    rw [hpointer]
    exact Option.filter_some_pos (decide_eq_true hne)
  rw [acc.reports, if_pos newest, hp] at hr
  obtain ⟨r₀, _, _, rfl⟩ | ⟨_, hother⟩ := (mem_clearPayload _ _ _).mp hr
  · rfl
  · exact absurd rfl hother

theorem keeps_owner (r : MetricReport) (hr : r ∈ db.reports) :
    ∃ r' ∈ db'.reports, r'.reportId = r.reportId ∧ r'.hostId = r.hostId := by
  by_cases hpointer : host.latestReportId = some r.reportId
  · have hr : r ∈ inserted := (acc.mem_inserted r).mpr (Or.inl hr)
    rw [acc.reports]
    split_ifs with hl
    · cases hp : host.latestReportId.filter fun previous => decide (previous ≠ reportId) with
      | none => exact ⟨r, hr, rfl, rfl⟩
      | some previous =>
        have named := (Option.filter_eq_some_iff.mp hp).1
        have same : r.reportId = previous := Option.some.inj (hpointer.symm.trans named)
        exact ⟨_, (mem_clearPayload _ _ _).mpr (Or.inl ⟨r, hr, same, rfl⟩), rfl, rfl⟩
    · exact ⟨r, hr, rfl, rfl⟩
  · exact ⟨r, acc.keeps_row r hr hpointer, rfl, rfl⟩

theorem keeps_id (r : MetricReport) (hr : r ∈ db.reports) :
    ∃ r' ∈ db'.reports, r'.reportId = r.reportId := by
  obtain ⟨r', hr', hid, _⟩ := acc.keeps_owner r hr
  exact ⟨r', hr', hid⟩

end Accepted

/-- The host and credential a report needs to be looked at. -/
structure Authorized (write : ReportWrite) (hostId reportId : Uuid) (host : MonitoredHost)
    (db : Db) : Prop where
  host_id : Uuid.parseStr write.report.host.id = some hostId
  report_id : Uuid.parseStr write.report.reportId = some reportId
  mem : host ∈ db.hosts
  is_host : host.hostId = hostId
  active : host.lifecycleStatus = .active
  credential : ∃ c ∈ db.credentials, c.hostId = hostId ∧ c.tokenHash = write.tokenHash ∧
    c.revokedAt = none

theorem authorizedHost_eq_some (hostId : Uuid) (tokenHash : String) (db : Db) (host : MonitoredHost)
    (h : authorizedHost hostId tokenHash db = some host) :
    host ∈ db.hosts ∧ host.hostId = hostId ∧ host.lifecycleStatus = .active ∧
      ∃ c ∈ db.credentials, c.hostId = hostId ∧ c.tokenHash = tokenHash ∧ c.revokedAt = none := by
  obtain ⟨hm, hp⟩ := Table.mem_of_find? _ _ _ h
  simp only [Bool.and_eq_true, decide_eq_true_eq, Table.any_eq_true,
    Option.isNone_iff_eq_none] at hp
  obtain ⟨⟨hid, hactive⟩, c, hc, ⟨hch, hct⟩, hcr⟩ := hp
  exact ⟨hm, hid, hactive, c, hc, hch.trans hid, hct, hcr⟩

theorem advanceLatest_ok (fault : Nat → Option StoreError) (latest : Bool) (report : ClientReport)
    (hostId reportId : Uuid) (stored : DateTime) (previousReport : Option Uuid) (u : Unit)
    (db db' : Db) (h : (advanceLatest fault latest report hostId reportId stored previousReport).run
      db = (.ok u, db')) :
    db' = { db with
      hosts := if latest then promoteHost report hostId reportId stored db.hosts else db.hosts
      reports := if latest then
        dropPayload (previousReport.filter fun previous => decide (previous ≠ reportId)) db.reports
        else db.reports } := by
  unfold advanceLatest at h
  split_ifs at h ⊢ with hl
  · simp only [bind_ok, execute_ok, Except.ok.injEq, Prod.mk.injEq] at h
    obtain ⟨_, _, ⟨_, _, rfl⟩, h⟩ := h
    cases hp : previousReport.filter fun previous => decide (previous ≠ reportId) with
    | none =>
      rw [hp, pure_ok] at h
      rw [h.2]
      rfl
    | some previous =>
      simp only [hp, execute_ok, Except.ok.injEq, Prod.mk.injEq] at h
      rw [← h.2.2]
      rfl
  · rw [((pure_ok _ _ _ _).mp h).2]

theorem storeReportInTransaction_ok (fault : Nat → Option StoreError) (write : ReportWrite)
    (receivedAt : DateTime) (accepted : Bool) (t : DateTime) (db db' : Db)
    (h : (storeReportInTransaction fault write receivedAt).run db = (.ok (accepted, t), db')) :
    ∃ hostId reportId host, Authorized write hostId reportId host db ∧
      ((accepted = false ∧ db' = db ∧ ∃ row ∈ db.reports, row.reportId = reportId ∧
          row.hostId = hostId ∧ t = row.receivedAt) ∨
        (accepted = true ∧ t = receivedAt ∧ ∃ inserted,
          Accepted write receivedAt hostId reportId host inserted db db')) := by
  unfold storeReportInTransaction at h
  cases hh : Uuid.parseStr write.report.host.id with
  | none =>
    rw [hh] at h
    exact absurd h (fail_ok _ _ _ _)
  | some hostId =>
    cases hr : Uuid.parseStr write.report.reportId with
    | none =>
      rw [hh, hr] at h
      exact absurd h (fail_ok _ _ _ _)
    | some reportId =>
      simp only [hh, hr, bind_ok, query_ok] at h
      obtain ⟨current, db₀, ⟨_, hcur, rfl⟩, h⟩ := h
      cases current with
      | none => exact absurd h (fail_ok _ _ _ _)
      | some host =>
        obtain ⟨hm, hid, hactive, hcred⟩ := authorizedHost_eq_some _ _ _ _ hcur.symm
        refine ⟨hostId, reportId, host, ⟨hh, hr, hm, hid, hactive, hcred⟩, ?_⟩
        simp only [bind_ok, execute_ok] at h
        obtain ⟨inserted, _, ⟨_, hins⟩, h⟩ := h
        unfold insertReport at hins
        cases hi : db₀.reports.insert? (reportRow write reportId hostId receivedAt
            (becomesLatest write.report.collectedAt reportId host.latestReportId
              host.latestCollectedAt)) with
        | none =>
          rw [hi] at hins
          cases hins
          left
          simp only [bind_ok, query_ok] at h
          obtain ⟨existing, _, ⟨_, hex, rfl⟩, h⟩ := h
          cases existing with
          | none => exact absurd h (fail_ok _ _ _ _)
          | some row =>
            obtain ⟨hrm, hrid⟩ := Table.mem_of_find? _ _ _ hex.symm
            simp only at h
            split_ifs at h with howner
            · rw [pure_ok] at h
              obtain ⟨ha, rfl⟩ := h
              cases ha
              exact ⟨rfl, rfl, row, hrm, of_decide_eq_true hrid, howner, rfl⟩
            · exact absurd h (fail_ok _ _ _ _)
        | some reports =>
          rw [hi] at hins
          simp only at hins
          split_ifs at hins with hfk
          cases hins
          right
          simp only [bind_ok, pure_ok, execute_ok, Except.ok.injEq, Prod.mk.injEq] at h
          obtain ⟨u, db₁, hadv, _, _, ⟨_, _, rfl⟩, ⟨rfl, rfl⟩, rfl⟩ := h
          rw [advanceLatest_ok _ _ _ _ _ _ _ _ _ _ hadv]
          exact ⟨rfl, rfl, reports, hi, rfl, rfl, rfl, rfl, rfl, rfl, rfl⟩

def storeReport (f : Faults) (write : ReportWrite) (receivedAt : DateTime) :
    Db → Except StoreError (Bool × DateTime) × Db :=
  transact f.boundary (commitOrRollback (storeReportInTransaction f.statement write receivedAt))

/-- One report of a batch with its clock reading and what its statements meet. -/
structure BatchItem where
  write : ReportWrite
  receivedAt : DateTime
  faults : Faults

/-- One outer transaction with a savepoint around every report. -/
def storeReportBatch (boundary : Boundary StoreError) (reports : List BatchItem) :
    Db → Except StoreError (List (Except StoreError (Bool × DateTime))) × Db :=
  transact boundary do
    let results ← reports.mapM fun item =>
      savepoint item.faults.boundary
        (storeReportInTransaction item.faults.statement item.write item.receivedAt)
    return .commit results

/-- A report stores nothing, or it is accepted. -/
theorem storeReport_cases (f : Faults) (write : ReportWrite) (receivedAt : DateTime) (db db' : Db)
    (r : Except StoreError (Bool × DateTime)) (h : storeReport f write receivedAt db = (r, db')) :
    (db' = db ∧ ((∃ e, r = .error e) ∨ ∃ hostId reportId host, ∃ row ∈ db.reports,
      Authorized write hostId reportId host db ∧ row.reportId = reportId ∧ row.hostId = hostId ∧
      r = .ok (false, row.receivedAt))) ∨
    (r = .ok (true, receivedAt) ∧ ∃ hostId reportId host inserted,
      Authorized write hostId reportId host db ∧
      Accepted write receivedAt hostId reportId host inserted db db') := by
  obtain ⟨⟨e, rfl⟩, rfl⟩ | ⟨⟨w, hb⟩, rfl⟩ | ⟨⟨accepted, t⟩, rfl, hb⟩ := transact_cases _ _ _ _ _ h
  · exact Or.inl ⟨rfl, Or.inl ⟨e, rfl⟩⟩
  · unfold commitOrRollback at hb
    simp only [bind_ok, attempt_ok] at hb
    obtain ⟨outcome, _, hs, hb⟩ := hb
    cases outcome with
    | ok a =>
      rw [pure_ok] at hb
      cases hb.1
    | error e =>
      rw [pure_ok] at hb
      cases hb.1
      exact Or.inl ⟨rfl, Or.inl ⟨e, rfl⟩⟩
  · unfold commitOrRollback at hb
    simp only [bind_ok, attempt_ok] at hb
    obtain ⟨outcome, _, hs, hb⟩ := hb
    cases outcome with
    | error e =>
      rw [pure_ok] at hb
      cases hb.1
    | ok a =>
      rw [pure_ok] at hb
      obtain ⟨ha, rfl⟩ := hb
      cases ha
      obtain ⟨hostId, reportId, host, auth, hcase⟩ := storeReportInTransaction_ok _ _ _ _ _ _ _ hs
      obtain ⟨rfl, rfl, row, hrm, hrid, howner, rfl⟩ | ⟨rfl, rfl, inserted, hacc⟩ := hcase
      · exact Or.inl ⟨rfl, Or.inr ⟨hostId, reportId, host, row, hrm, auth, hrid, howner, rfl⟩⟩
      · exact Or.inr ⟨rfl, hostId, reportId, host, inserted, auth, hacc⟩

/-- The reports of a batch as separate calls with the same clock readings. -/
def storeSeparately (item : BatchItem) : Db → Except StoreError (Bool × DateTime) × Db :=
  storeReport ⟨.quiet _, item.faults.statement, item.faults.ties⟩ item.write item.receivedAt

/-- A batch changes nothing, or does what its reports do one by one. -/
theorem storeReportBatch_cases (boundary : Boundary StoreError) (reports : List BatchItem)
    (db db' : Db) (r : Except StoreError (List (Except StoreError (Bool × DateTime))))
    (h : storeReportBatch boundary reports db = (r, db')) :
    ((∃ e, r = .error e) ∧ db' = db) ∨
    ∃ results, r = .ok results ∧
      (reports.mapM fun item => savepoint item.faults.boundary
        (storeReportInTransaction item.faults.statement item.write item.receivedAt)).run db =
          (.ok results, db') ∧
      oneByOne storeSeparately reports db = (results, db') := by
  obtain ⟨he, rfl⟩ | ⟨⟨w, hb⟩, rfl⟩ | ⟨a, rfl, hb⟩ := transact_cases _ _ _ _ _ h
  · exact Or.inl ⟨he, rfl⟩
  · simp only [bind_ok, pure_ok] at hb
    obtain ⟨_, _, _, hb, _⟩ := hb
    cases hb
  · simp only [bind_ok, pure_ok] at hb
    obtain ⟨results, _, hs, hb, rfl⟩ := hb
    cases hb
    exact Or.inr ⟨_, rfl, hs, savepoints_oneByOne _ _ _ _ _ _ hs⟩

def noon : DateTime := .ofSecs 1700049600

/-- A report with the given CPU usage and nothing else to tell. -/
def cpuReport (hostId reportId : String) (collectedAt : DateTime) (cpuUsagePercent : ℚ) :
    ReportWrite where
  report :=
    { schemaVersion := 1
      reportId
      collectedAt
      host := ⟨hostId, "linux", none, none, "x86_64", "0.1.0"⟩
      intervalSeconds := 10
      system := ⟨0, ⟨cpuUsagePercent, 1, none, []⟩, ⟨0, 0, 0, 0, 0⟩, [], [], [], []⟩
      capabilities := []
      client := ⟨0, 0⟩ }
  tokenHash := "token"
  metrics := ⟨some cpuUsagePercent, none, none, none, none, none, none, none, none⟩

end HostMonitoring.Store
