import HostMonitoring.Store.Changes

namespace HostMonitoring.Store

open HostMonitoring.Framework
open HostMonitoring.Framework.Tx
open HostMonitoring.Protocol

/-- A stored report without the payload, which only the newest one of a host carries. -/
def MetricReport.columns (r : MetricReport) : MetricReport := { r with payload := none }

/-- The store has the report, perhaps without its payload. -/
def Holds (columns : MetricReport) (db : Db) : Prop := ∃ r ∈ db.reports, r.columns = columns

theorem Accepted.keeps_columns {write : ReportWrite} {receivedAt : DateTime} {hostId reportId : Uuid}
    {host : MonitoredHost} {inserted : Table MetricReport} {db db' : Db}
    (acc : Accepted write receivedAt hostId reportId host inserted db db') {columns : MetricReport}
    (h : Holds columns db) : Holds columns db' := by
  obtain ⟨r, hr, rfl⟩ := h
  obtain ⟨r', hr', hid⟩ := acc.keeps_id r hr
  refine ⟨r', hr', ?_⟩
  rcases acc.row_origin r' hr' with new | ⟨r₀, hr₀, origin⟩
  · have fresh := acc.fresh_report r hr
    rw [← hid, new] at fresh
    exact absurd rfl fresh
  · have same : r₀ = r := by
      apply db.reports.eq_of_clash r₀ r hr₀ hr
      show r₀.reportId = r.reportId
      rcases origin with rfl | ⟨_, rfl⟩
      · exact hid
      · exact hid
    subst same
    rcases origin with rfl | ⟨_, rfl⟩
    · rfl
    · rfl

theorem storeSeparately_keeps_columns (item : BatchItem) (db : Db) {columns : MetricReport}
    (h : Holds columns db) : Holds columns (storeSeparately item db).2 := by
  rcases storeReport_cases _ _ _ _ _ _ Prod.mk.eta.symm with ⟨same, _⟩ |
    ⟨_, _, _, _, _, _, accepted⟩
  · show Holds columns (storeReport _ _ _ db).2
    rw [same]
    exact h
  · exact accepted.keeps_columns h

/-- The row that a positive answer to a report speaks of: its own if the report was accepted, else
the one that was already there. -/
structure Confirmed (write : ReportWrite) (accepted : Bool) (receivedAt : DateTime)
    (columns : MetricReport) : Prop where
  report_id : Uuid.parseStr write.report.reportId = some columns.reportId
  host_id : Uuid.parseStr write.report.host.id = some columns.hostId
  received_at : columns.receivedAt = receivedAt
  own : accepted = true → columns =
    (reportRow write columns.reportId columns.hostId receivedAt false).columns

theorem storeSeparately_confirmed (item : BatchItem) (db : Db) (accepted : Bool)
    (receivedAt : DateTime) (h : (storeSeparately item db).1 = .ok (accepted, receivedAt)) :
    ∃ columns, Confirmed item.write accepted receivedAt columns ∧
      Holds columns (storeSeparately item db).2 := by
  rcases storeReport_cases ⟨.quiet _, item.faults.statement, item.faults.ties⟩ item.write item.receivedAt db _ _
      Prod.mk.eta.symm with ⟨same, ⟨e, he⟩ | ⟨hostId, reportId, host, row, hrow, auth, hid, howner, hr⟩⟩ |
    ⟨hr, hostId, reportId, host, inserted, auth, accept⟩
  · rw [storeSeparately, he] at h
    cases h
  · rw [storeSeparately, hr] at h
    cases h
    refine ⟨row.columns, ⟨?_, ?_, rfl, fun taken => (by cases taken)⟩, ?_⟩
    · rw [auth.report_id, ← hid]
      rfl
    · rw [auth.host_id, ← howner]
      rfl
    · rw [storeSeparately, same]
      exact ⟨row, hrow, rfl⟩
  · rw [storeSeparately, hr] at h
    cases h
    exact ⟨_, ⟨auth.report_id, auth.host_id, rfl, fun _ => rfl⟩, _, accept.new_row, rfl⟩

/-- After its transaction the store holds every report a batch answered positively. -/
theorem storeReportBatch_confirmed (boundary : Boundary StoreError) (reports : List BatchItem)
    (db : Db) (results : List (Except StoreError (Bool × DateTime)))
    (h : (storeReportBatch boundary reports db).1 = .ok results) (k : Nat) (item : BatchItem)
    (accepted : Bool) (receivedAt : DateTime) (hi : reports[k]? = some item)
    (hr : results[k]? = some (.ok (accepted, receivedAt))) :
    ∃ columns, Confirmed item.write accepted receivedAt columns ∧
      Holds columns (storeReportBatch boundary reports db).2 := by
  rcases storeReportBatch_cases boundary reports db _ _ Prod.mk.eta.symm with ⟨⟨e, he⟩, _⟩ |
    ⟨results', hresults, _, separate⟩
  · rw [he] at h
    cases h
  · rw [hresults] at h
    cases h
    obtain ⟨answers, ended⟩ := Prod.mk.inj separate
    rw [← ended]
    apply oneByOne_reaches (fun db => ∃ columns, Confirmed item.write accepted receivedAt columns ∧
      Holds columns db) storeSeparately ?_ reports db k item (.ok (accepted, receivedAt)) hi ?_
    · intro db' answered
      exact storeSeparately_confirmed item db' accepted receivedAt answered
    · intro item' db' held
      obtain ⟨columns, confirmed, holds⟩ := held
      exact ⟨columns, confirmed, storeSeparately_keeps_columns item' db' holds⟩
    · rw [answers]
      exact hr

end HostMonitoring.Store
