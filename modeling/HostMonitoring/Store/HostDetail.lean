import HostMonitoring.Model.Metrics
import HostMonitoring.Store.LatestRuns
import HostMonitoring.Store.OneTime

namespace HostMonitoring.Store

open HostMonitoring.Framework
open HostMonitoring.Framework.Tx
open HostMonitoring.Protocol
open HostMonitoring.Model

/-- `fetch_one` found no row. -/
inductive ReadError where
  | rowNotFound
deriving DecidableEq

/-- `get_host` with the states its two statements read. -/
def getHostBetween (hostId : Uuid) (now : DateTime) (first second : Db) :
    Except ReadError (Option (HostSummary × Option ClientReport)) :=
  match getHostRow hostId first with
  | none => .ok none
  | some row =>
    match getHostPayload hostId second with
    | none => .error .rowNotFound
    | some payload => .ok (some (summarize now row, payload))

/-- On one state both statements find the host. -/
theorem getHostBetween_self (hostId : Uuid) (now : DateTime) (db : Db) :
    getHostBetween hostId now db db = .ok (getHost hostId now db) := by
  unfold getHostBetween getHost
  cases hr : getHostRow hostId db with
  | none => rfl
  | some row =>
    cases hp : getHostPayload hostId db with
    | some payload => rfl
    | none =>
      obtain ⟨h, hf, _⟩ := Option.map_eq_some_iff.mp hr
      have missing := (Table.find?_eq_none _ _).mp (Option.map_eq_none_iff.mp hp)
      obtain ⟨hm, hp⟩ := Table.mem_of_find? _ _ _ hf
      rw [Bool.and_eq_true] at hp
      rw [missing h hm] at hp
      cases hp.1

/-- The payload of a latest row is that of every accepted report with its stamp. -/
def Sourced (noted : List ReportWrite) (db : Db) : Prop :=
  ∀ h ∈ db.hosts, ∀ r ∈ db.reports, h.latestReportId = some r.reportId →
    ∀ w ∈ noted, Uuid.parseStr w.report.host.id = some h.hostId →
      ∀ id, Uuid.parseStr w.report.reportId = some id →
        toLex (w.report.collectedAt, id) = r.stamp → r.payload = some w.report

namespace Sourced

variable {past : List Op} {noted : List ReportWrite} {db db' : Db}

theorem accept (s : Sourced noted db) (t : Tracked past noted db) (write : ReportWrite)
    (receivedAt : DateTime) (hostId reportId : Uuid) (host : MonitoredHost)
    (inserted : Table MetricReport) (auth : Authorized write hostId reportId host db)
    (acc : Accepted write receivedAt hostId reportId host inserted db db') :
    Sourced (noted ++ [write]) db' := by
  have owner := t.latest host auth.mem
  have now := (t.accept write receivedAt hostId reportId host inserted auth acc).latest
  -- a latest row that was there before, with the pointer it had before
  have old : ∀ h ∈ db.hosts, ∀ r ∈ db.reports, h.latestReportId = some r.reportId →
      ∀ w ∈ noted ++ [write], Uuid.parseStr w.report.host.id = some h.hostId →
        ∀ id, Uuid.parseStr w.report.reportId = some id →
          toLex (w.report.collectedAt, id) = r.stamp → r.payload = some w.report := by
    intro h hm r hr hp w hw hwh id hid stamp
    obtain hw | hw := List.mem_append.mp hw
    · exact s h hm r hr hp w hw hwh id hid stamp
    · rw [List.mem_singleton.mp hw] at hid stamp
      have same : id = reportId := Option.some.inj (hid.symm.trans auth.report_id)
      have ids : id = r.reportId := congrArg (fun x => (ofLex x).2) stamp
      exact absurd (ids.symm.trans same) (acc.fresh_report r hr)
  intro h hm r hr hp
  have origin := acc.row_origin r hr
  have hosts := hm
  rw [acc.hosts] at hosts
  by_cases newest : becomesLatest write.report.collectedAt reportId host.latestReportId
      host.latestCollectedAt = true
  · rw [if_pos newest] at hosts
    obtain ⟨h₀, hm₀, hid, rfl⟩ | ⟨hm₀, hne⟩ := (mem_promoteHost _ _ _ _ _ _).mp hosts
    · have pointed : r.reportId = reportId := (Option.some.inj hp).symm
      have new := acc.new_row
      rw [newest] at new
      have row : r = reportRow write reportId hostId receivedAt true :=
        db'.reports.eq_of_clash _ _ hr new pointed
      intro w hw hwh id hwid stamp
      obtain hw | hw := List.mem_append.mp hw
      · exfalso
        have isHost : h₀ = host := db.hosts.eq_of_clash h₀ host hm₀ auth.mem
          (hid.trans auth.is_host.symm)
        rw [row] at stamp
        obtain ⟨_, _, _, hnoted⟩ | ⟨r₀, row₀⟩ := owner
        · exact hnoted w hw (isHost ▸ hwh)
        · have behind := row₀.newest_ever w hw (isHost ▸ hwh) id hwid
          rw [row₀.pointer, row₀.collected] at newest
          have ahead := (becomesLatest_iff _ _ _ _).mp newest
          rw [stamp] at behind
          exact absurd ahead (not_lt.mpr behind)
      · rw [List.mem_singleton.mp hw, row]
        rfl
    · have own := (now h hm).pointer_owned _ hp r hr rfl
      obtain rfl | ⟨r₀, hr₀, rfl | ⟨hpointer, rfl⟩⟩ := origin
      · exact absurd own.symm hne
      · exact old h hm₀ r hr₀ hp
      · have stolen := owner.pointer_owned _ hpointer r₀ hr₀ rfl
        exact absurd (own.symm.trans (stolen.trans auth.is_host)) hne
  · rw [if_neg newest] at hosts
    have kept : r ∈ inserted := by
      rw [acc.reports, if_neg newest] at hr
      exact hr
    obtain hr₀ | rfl := (acc.mem_inserted r).mp kept
    · exact old h hosts r hr₀ hp
    · exfalso
      obtain ⟨hnone, _⟩ | ⟨r₀, row₀⟩ := t.latest h hosts
      · rw [hnone] at hp
        cases hp
      · rw [row₀.pointer] at hp
        exact acc.fresh_report r₀ row₀.mem (Option.some.inj hp)

theorem keeps (s : Sourced noted db) (k : KeepsLatest db db') : Sourced noted db' := by
  intro h' hm' r' hr' hp w hw hwh id hid stamp
  obtain ⟨h, hm, hostId, pointer, _⟩ := k.hosts h' hm'
  obtain ⟨r, hr, he⟩ := k.reports r' hr'
  have sameId : r'.reportId = r.reportId := by rw [he]
  have samePayload : r'.payload = r.payload := by rw [he]
  have sameStamp : r'.stamp = r.stamp := by
    rw [he]
    rfl
  rw [samePayload]
  refine s h hm r hr ?_ w hw (hwh.trans (congrArg some hostId)) id hid (stamp.trans sameStamp)
  rw [← pointer, hp, sameId]

theorem step (s : Sourced noted db) (t : Tracked past noted db) (op : Op) :
    Sourced (noted ++ op.accepts db) (op.exec db).2 := by
  by_cases hs : op.Stores
  · have kept := stores_keeps op hs (fun noted db => Tracked past noted db ∧ Sourced noted db)
      (fun noted db db' write receivedAt hostId reportId host inserted _ h auth acc =>
        ⟨h.1.accept write receivedAt hostId reportId host inserted auth acc,
          h.2.accept h.1 write receivedAt hostId reportId host inserted auth acc⟩)
      noted db ⟨t, s⟩
    exact kept.2
  · rw [accepts_nil op db hs, List.append_nil]
    obtain k | ⟨_, _, _, _, _, _, _, _, act⟩ := exec_keepsLatest op db hs
    · exact s.keeps k
    · intro h hm r hr hp
      rw [act.reports] at hr
      obtain hm | rfl := (Table.mem_insert? _ _ _ _ act.hosts).mp hm
      · exact s h hm r hr hp
      · cases hp

end Sourced

section
variable {noted : List ReportWrite} {db : Db} {h : MonitoredHost} {now : DateTime}

end

section
variable {past mid : List Op} {h h' : MonitoredHost} {now : DateTime}
  (hid : h'.hostId = h.hostId)
  (summarized : ∀ w ∈ accepted (past ++ mid), w.metrics = metricSummary w.report)
include hid

include summarized

end

end HostMonitoring.Store
