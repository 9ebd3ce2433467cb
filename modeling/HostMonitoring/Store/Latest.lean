import HostMonitoring.Store.Binding
import HostMonitoring.Store.History
import HostMonitoring.Store.OneTime
import Mathlib.Data.Prod.Lex
import Mathlib.Order.WithBot

namespace HostMonitoring.Store

open HostMonitoring.Framework
open HostMonitoring.Framework.Tx
open HostMonitoring.Protocol
open HostMonitoring.Retention

/-- Reports are ordered by their time and then by their identifier. -/
def MetricReport.stamp (r : MetricReport) : DateTime ×ₗ Uuid := toLex (r.collectedAt, r.reportId)

/-- A host without a report comes before every report. -/
def latestStamp (h : MonitoredHost) : WithBot (DateTime ×ₗ Uuid) :=
  match h.latestCollectedAt, h.latestReportId with
  | some t, some id => (toLex (t, id) : DateTime ×ₗ Uuid)
  | _, _ => ⊥

/-- The row holds what the report said. -/
structure WrittenFrom (r : MetricReport) (w : ReportWrite) : Prop where
  host : Uuid.parseStr w.report.host.id = some r.hostId
  report : Uuid.parseStr w.report.reportId = some r.reportId
  schema : r.schemaVersion = w.report.schemaVersion
  collected : r.collectedAt = w.report.collectedAt
  interval : r.intervalSeconds = w.report.intervalSeconds
  metrics : r.metrics = w.metrics

/-- The row that a host's latest columns point to, among all reports noted so far. -/
structure LatestRow (noted : List ReportWrite) (db : Db) (h : MonitoredHost) (r : MetricReport) :
    Prop where
  mem : r ∈ db.reports
  host : r.hostId = h.hostId
  pointer : h.latestReportId = some r.reportId
  unmarked : r.aggregatedAt = none
  collected : h.latestCollectedAt = some r.collectedAt
  interval : h.latestIntervalSeconds = some r.intervalSeconds
  payload : ∃ w ∈ noted, WrittenFrom r w ∧ r.payload = some w.report
  newest_row : ∀ r' ∈ db.reports, r'.hostId = h.hostId → r'.stamp ≤ r.stamp
  newest_ever : ∀ w ∈ noted, Uuid.parseStr w.report.host.id = some h.hostId →
    ∀ id, Uuid.parseStr w.report.reportId = some id → toLex (w.report.collectedAt, id) ≤ r.stamp
  others : ∀ r' ∈ db.reports, r'.hostId = h.hostId → r' ≠ r → r'.payload = none

/-- A host has never had a report and has no latest one, or its latest columns
point to the newest of all. -/
def LatestHolds (noted : List ReportWrite) (db : Db) (h : MonitoredHost) : Prop :=
  (h.latestReportId = none ∧ h.latestCollectedAt = none ∧
    (∀ r ∈ db.reports, r.hostId ≠ h.hostId) ∧
    ∀ w ∈ noted, Uuid.parseStr w.report.host.id ≠ some h.hostId) ∨
  ∃ r, LatestRow noted db h r

theorem becomesLatest_iff (t t' : DateTime) (id id' : Uuid) :
    becomesLatest t' id' (some id) (some t) = true ↔
      (toLex (t, id) : DateTime ×ₗ Uuid) < toLex (t', id') := by
  rw [Prod.Lex.toLex_lt_toLex]
  simp only [becomesLatest, Bool.or_eq_true, Bool.and_eq_true, decide_eq_true_eq]
  constructor
  · intro h
    exact h.imp_right fun ⟨he, hid⟩ => ⟨he.symm, hid⟩
  · intro h
    exact h.imp_right fun ⟨he, hid⟩ => ⟨he.symm, hid⟩

section
variable {noted : List ReportWrite} {db db' : Db} {write : ReportWrite} {receivedAt : DateTime}
  {hostId reportId : Uuid} {host : MonitoredHost} {inserted : Table MetricReport}

theorem LatestHolds.pointer_owned (h : LatestHolds noted db host) (id : Uuid)
    (hid : host.latestReportId = some id) (r : MetricReport) (hr : r ∈ db.reports)
    (hrid : r.reportId = id) : r.hostId = host.hostId := by
  obtain ⟨hnone, _⟩ | ⟨r₀, row⟩ := h
  · rw [hnone] at hid
    cases hid
  · have pointed : r₀.reportId = id := Option.some.inj (row.pointer.symm.trans hid)
    have same : r = r₀ := db.reports.eq_of_clash r r₀ hr row.mem (hrid.trans pointed.symm)
    rw [same]
    exact row.host

/-- The other hosts see nothing of an accepted report. -/
theorem LatestHolds.accept_other (auth : Authorized write hostId reportId host db)
    (acc : Accepted write receivedAt hostId reportId host inserted db db')
    (owner : LatestHolds noted db host) (h : MonitoredHost) (hne : h.hostId ≠ hostId)
    (hold : LatestHolds noted db h) : LatestHolds (noted ++ [write]) db' h := by
  have back : ∀ r ∈ db'.reports, r.hostId = h.hostId → r ∈ db.reports := by
    intro r hr hrh
    obtain rfl | ⟨r₀, hr₀, rfl | ⟨hpointer, rfl⟩⟩ := acc.row_origin r hr
    · exact absurd hrh.symm hne
    · exact hr₀
    · have own := owner.pointer_owned _ hpointer r₀ hr₀ rfl
      exact absurd (hrh.symm.trans (own.trans auth.is_host)) hne
  have stranger : Uuid.parseStr write.report.host.id ≠ some h.hostId := by
    rw [auth.host_id]
    exact fun he => hne (Option.some.inj he).symm
  obtain ⟨hid, hcol, hrows, hnoted⟩ | ⟨r, row⟩ := hold
  · refine Or.inl ⟨hid, hcol, ?_, ?_⟩
    · exact fun r hr hrh => hrows r (back r hr hrh) hrh
    · intro w hw
      obtain hw | hw := List.mem_append.mp hw
      · exact hnoted w hw
      · rw [List.mem_singleton.mp hw]
        exact stranger
  · have kept : r ∈ db'.reports := by
      refine acc.keeps_row r row.mem fun hpointer => ?_
      have own := owner.pointer_owned _ hpointer r row.mem rfl
      exact hne (row.host.symm.trans (own.trans auth.is_host))
    obtain ⟨w, hw, written, hpay⟩ := row.payload
    refine Or.inr ⟨r, kept, row.host, row.pointer, row.unmarked, row.collected, row.interval,
      ⟨w, List.mem_append_left _ hw, written, hpay⟩, ?_, ?_, ?_⟩
    · exact fun r' hr' hrh => row.newest_row r' (back r' hr' hrh) hrh
    · intro w hw hwh
      obtain hw | hw := List.mem_append.mp hw
      · exact row.newest_ever w hw hwh
      · rw [List.mem_singleton.mp hw] at hwh
        exact absurd hwh stranger
    · exact fun r' hr' hrh => row.others r' (back r' hr' hrh) hrh

/-- A report that is not the newest joins the rows without its payload. -/
theorem LatestHolds.accept_older (auth : Authorized write hostId reportId host db)
    (acc : Accepted write receivedAt hostId reportId host inserted db db')
    (older : becomesLatest write.report.collectedAt reportId host.latestReportId
      host.latestCollectedAt = false)
    (hold : LatestHolds noted db host) : LatestHolds (noted ++ [write]) db' host := by
  obtain ⟨_, hcol, _⟩ | ⟨r, row⟩ := hold
  · rw [hcol] at older
    cases older
  · have behind : (toLex (write.report.collectedAt, reportId) : DateTime ×ₗ Uuid) ≤ r.stamp := by
      rw [← not_lt]
      intro hlt
      have newer := (becomesLatest_iff _ _ _ _).mpr hlt
      rw [← row.pointer, ← row.collected, older] at newer
      cases newer
    have reports : db'.reports = inserted := by
      rw [acc.reports, older]
      rfl
    obtain ⟨w, hw, written, hpay⟩ := row.payload
    refine Or.inr ⟨r, ?_, row.host, row.pointer, row.unmarked, row.collected, row.interval,
      ⟨w, List.mem_append_left _ hw, written, hpay⟩, ?_, ?_, ?_⟩
    · rw [reports]
      exact (acc.mem_inserted r).mpr (Or.inl row.mem)
    · intro r' hr' hrh
      rw [reports] at hr'
      obtain hr' | rfl := (acc.mem_inserted r').mp hr'
      · exact row.newest_row r' hr' hrh
      · exact behind
    · intro w hw hwh id hid
      obtain hw | hw := List.mem_append.mp hw
      · exact row.newest_ever w hw hwh id hid
      · rw [List.mem_singleton.mp hw] at hid ⊢
        have same : id = reportId := Option.some.inj (hid.symm.trans auth.report_id)
        rw [same]
        exact behind
    · intro r' hr' hrh hne
      rw [reports] at hr'
      obtain hr' | rfl := (acc.mem_inserted r').mp hr'
      · exact row.others r' hr' hrh hne
      · simp [reportRow, older]

/-- The newest report becomes the host's latest and takes over the only payload. -/
theorem LatestHolds.accept_newest (auth : Authorized write hostId reportId host db)
    (acc : Accepted write receivedAt hostId reportId host inserted db db')
    (newest : becomesLatest write.report.collectedAt reportId host.latestReportId
      host.latestCollectedAt = true)
    (hold : LatestHolds noted db host) :
    LatestHolds (noted ++ [write]) db' (promote write.report reportId receivedAt host) := by
  have ahead : (∀ r ∈ db.reports, r.hostId = hostId →
      r.stamp ≤ toLex (write.report.collectedAt, reportId)) ∧
      (∀ w ∈ noted, Uuid.parseStr w.report.host.id = some hostId →
        ∀ id, Uuid.parseStr w.report.reportId = some id →
          (toLex (w.report.collectedAt, id) : DateTime ×ₗ Uuid) ≤
            toLex (write.report.collectedAt, reportId)) ∧
      ∀ r ∈ db.reports, r.hostId = hostId → r.payload = none ∨
        host.latestReportId = some r.reportId := by
    rw [← auth.is_host]
    obtain ⟨_, _, hrows, hnoted⟩ | ⟨r, row⟩ := hold
    · refine ⟨fun r hr hrh => absurd hrh (hrows r hr), fun w hw hwh => absurd hwh (hnoted w hw), ?_⟩
      exact fun r hr hrh => absurd hrh (hrows r hr)
    · have passed : r.stamp < toLex (write.report.collectedAt, reportId) := by
        rw [row.pointer, row.collected] at newest
        exact (becomesLatest_iff _ _ _ _).mp newest
      refine ⟨fun r' hr' hrh => (row.newest_row r' hr' hrh).trans passed.le,
        fun w hw hwh id hid => (row.newest_ever w hw hwh id hid).trans passed.le, ?_⟩
      intro r' hr' hrh
      by_cases he : r' = r
      · rw [he]
        exact Or.inr row.pointer
      · exact Or.inl (row.others r' hr' hrh he)
  obtain ⟨rows, ever, payloads⟩ := ahead
  have written : WrittenFrom (reportRow write reportId hostId receivedAt true) write :=
    ⟨auth.host_id, auth.report_id, rfl, rfl, rfl, rfl⟩
  have new := acc.new_row
  have origin := acc.row_origin
  rw [newest] at new origin
  refine Or.inr ⟨_, new, auth.is_host.symm, rfl, rfl, rfl, rfl,
    ⟨write, List.mem_append_right _ (List.mem_singleton.mpr rfl), written, rfl⟩, ?_, ?_, ?_⟩
  · intro r' hr' hrh
    have hrh : r'.hostId = hostId := hrh.trans auth.is_host
    obtain rfl | ⟨r₀, hr₀, rfl | ⟨_, rfl⟩⟩ := origin r' hr'
    · exact le_refl _
    · exact rows r' hr₀ hrh
    · exact rows r₀ hr₀ hrh
  · intro w hw hwh id hid
    have hwh : Uuid.parseStr w.report.host.id = some hostId := hwh.trans (congrArg some auth.is_host)
    obtain hw | hw := List.mem_append.mp hw
    · exact ever w hw hwh id hid
    · rw [List.mem_singleton.mp hw] at hid ⊢
      have same : id = reportId := Option.some.inj (hid.symm.trans auth.report_id)
      rw [same]
      exact le_refl _
  · intro r' hr' hrh hne
    have hrh : r'.hostId = hostId := hrh.trans auth.is_host
    obtain rfl | ⟨r₀, hr₀, rfl | ⟨_, rfl⟩⟩ := origin r' hr'
    · exact absurd rfl hne
    · obtain hpay | hpointer := payloads r' hr₀ hrh
      · exact hpay
      · exact acc.cleared newest r' hr' hpointer (acc.fresh_report r' hr₀)
    · rfl

end
end HostMonitoring.Store
