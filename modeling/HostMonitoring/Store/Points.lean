import HostMonitoring.Data.TimeOrder
import HostMonitoring.Model.Validation
import HostMonitoring.Store.LatestRuns

namespace HostMonitoring.Store

open HostMonitoring.Framework
open HostMonitoring.Framework.Tx
open HostMonitoring.Protocol
open HostMonitoring.Retention
open DateTime (YearsSort TextAgrees SqlAgrees)

structure HistoryPoint where
  reportId : String
  collectedAt : DateTime
  receivedAt : DateTime
  metrics : MetricSummary

def historyPoint (row : MetricReport) : HistoryPoint :=
  ⟨row.reportId.toText, row.collectedAt, row.receivedAt, row.metrics⟩

def inWindow (fromTime toTime : Option DateTime) (row : MetricReport) : Bool :=
  (fromTime.all fun t => DateTime.sqlLe t row.collectedAt) &&
    toTime.all fun t => DateTime.sqlLe row.collectedAt t

/-- A negative `LIMIT` is none. -/
def limited {α : Type} (limit : Int) (rows : List α) : List α :=
  if limit < 0 then rows else rows.take limit.toNat

/-- `ORDER BY collected_at DESC,report_id DESC`. -/
def historyRows (hostId : Uuid) (fromTime toTime : Option DateTime) (db : Db) : List MetricReport :=
  (db.reports.rows.filter fun r => decide (r.hostId = hostId) &&
    inWindow fromTime toTime r).mergeSort fun r r' => collectedBefore r' r

def history (hostId : Uuid) (fromTime toTime : Option DateTime) (limit : Int) (db : Db) :
    Option (List HistoryPoint) :=
  if db.hosts.any fun h => decide (h.hostId = hostId) && decide (h.lifecycleStatus = .active) then
    some ((limited limit (historyRows hostId fromTime toTime db)).map historyPoint).reverse
  else none

/-- What a history is for: the newest reports of a host within a window, oldest first. -/
def timeline (hostId : Uuid) (fromTime toTime : Option DateTime) (limit : Int) (db : Db) :
    List MetricReport :=
  (limited limit ((db.reports.rows.filter fun r => decide (r.hostId = hostId) &&
    ((fromTime.all fun t => decide (t ≤ r.collectedAt)) &&
      toTime.all fun t => decide (r.collectedAt ≤ t))).mergeSort
        fun r r' => decide (r'.stamp ≤ r.stamp))).reverse

/-- The reports a retention pass is for: those collected before the cutoff, oldest first. -/
def dueReports (cutoff : DateTime) (batchSize : Nat) (db : Db) : List MetricReport :=
  db.reports.select (fun r => r.aggregatedAt.isNone && decide (r.collectedAt < cutoff) &&
    !isLatest db r) (fun r r' => decide (r.stamp ≤ r'.stamp)) batchSize

theorem collectedBefore_iff (r r' : MetricReport) : collectedBefore r r' = true ↔
    r.collectedAt.toText < r'.collectedAt.toText ∨
      (r.collectedAt = r'.collectedAt ∧ r.reportId ≤ r'.reportId) := by
  simp only [collectedBefore, DateTime.sqlLe, DateTime.sqlLt, Bool.or_eq_true, Bool.and_eq_true,
    Bool.not_eq_true', decide_eq_true_eq, decide_eq_false_iff_not]
  constructor
  · rintro (hlt | ⟨hle, hid⟩)
    · exact Or.inl hlt
    · by_cases hlt : r.collectedAt.toText < r'.collectedAt.toText
      · exact Or.inl hlt
      · exact Or.inr ⟨DateTime.toText_injective (List.le_antisymm hle hlt), hid⟩
  · rintro (hlt | ⟨heq, hid⟩)
    · exact Or.inl hlt
    · rw [heq]
      exact Or.inr ⟨List.lt_irrefl _, hid⟩

theorem collectedBefore_total (r r' : MetricReport) :
    (collectedBefore r r' || collectedBefore r' r) = true := by
  rw [Bool.or_eq_true, collectedBefore_iff, collectedBefore_iff]
  by_cases hlt : r.collectedAt.toText < r'.collectedAt.toText
  · exact Or.inl (Or.inl hlt)
  · by_cases hgt : r'.collectedAt.toText < r.collectedAt.toText
    · exact Or.inr (Or.inl hgt)
    · have same := DateTime.toText_injective (List.le_antisymm hgt hlt)
      obtain hid | hid := le_total r.reportId r'.reportId
      · exact Or.inl (Or.inr ⟨same, hid⟩)
      · exact Or.inr (Or.inr ⟨same.symm, hid⟩)

theorem collectedBefore_trans (r₁ r₂ r₃ : MetricReport) (h : collectedBefore r₁ r₂ = true)
    (h' : collectedBefore r₂ r₃ = true) : collectedBefore r₁ r₃ = true := by
  rw [collectedBefore_iff] at h h' ⊢
  obtain hlt | ⟨heq, hid⟩ := h
  · obtain hlt' | ⟨heq', _⟩ := h'
    · exact Or.inl (List.lt_trans hlt hlt')
    · exact Or.inl (heq' ▸ hlt)
  · obtain hlt' | ⟨heq', hid'⟩ := h'
    · exact Or.inl (heq ▸ hlt')
    · exact Or.inr ⟨heq.trans heq', hid.trans hid'⟩

theorem collectedBefore_antisymm (r r' : MetricReport) (h : collectedBefore r r' = true)
    (h' : collectedBefore r' r = true) : r.reportId = r'.reportId := by
  rw [collectedBefore_iff] at h h'
  obtain hlt | ⟨heq, hid⟩ := h
  · obtain hlt' | ⟨heq', _⟩ := h'
    · exact absurd hlt' (List.lt_asymm hlt)
    · rw [heq'] at hlt
      exact absurd hlt (List.lt_irrefl _)
  · obtain hlt' | ⟨_, hid'⟩ := h'
    · rw [heq] at hlt'
      exact absurd hlt' (List.lt_irrefl _)
    · exact le_antisymm hid hid'

/-- Where the years sort, SQL orders the rows as their stamps. -/
theorem collectedBefore_sorts (r r' : MetricReport)
    (sorts : YearsSort r.collectedAt.year r'.collectedAt.year) :
    collectedBefore r r' = decide (r.stamp ≤ r'.stamp) := by
  have agrees := (DateTime.textAgrees_iff r.collectedAt r'.collectedAt).mpr sorts
  rw [Bool.eq_iff_iff, collectedBefore_iff, decide_eq_true_iff, ← agrees.1, MetricReport.stamp,
    MetricReport.stamp, Prod.Lex.toLex_le_toLex]

/-- The first of the rows is the one that SQL puts after all others of its host. -/
theorem head_historyRows (hostId : Uuid) (db : Db) (r : MetricReport) :
    (historyRows hostId none none db).head? = some r ↔ r ∈ db.reports ∧ r.hostId = hostId ∧
      ∀ r' ∈ db.reports, r'.hostId = hostId → collectedBefore r' r = true := by
  have member : ∀ r, r ∈ historyRows hostId none none db ↔ r ∈ db.reports ∧ r.hostId = hostId := by
    intro r
    simp [historyRows, inWindow, Table.mem_def]
  have sorted : (historyRows hostId none none db).Pairwise fun r r' => collectedBefore r' r = true :=
    List.pairwise_mergeSort (fun a b c h h' => collectedBefore_trans c b a h' h)
      (fun a b => collectedBefore_total b a) _
  have first : ∀ r, (historyRows hostId none none db).head? = some r →
      r ∈ db.reports ∧ r.hostId = hostId ∧
        ∀ r' ∈ db.reports, r'.hostId = hostId → collectedBefore r' r = true := by
    intro r hr
    obtain ⟨rest, he⟩ := List.head?_eq_some_iff.mp hr
    rw [he, List.pairwise_cons] at sorted
    have here := (member r).mp (he ▸ List.mem_cons_self)
    refine ⟨here.1, here.2, fun r' hr' hid => ?_⟩
    have listed := (member r').mpr ⟨hr', hid⟩
    rw [he] at listed
    obtain rfl | hrest := List.mem_cons.mp listed
    · exact (collectedBefore_iff _ _).mpr (Or.inr ⟨rfl, le_refl _⟩)
    · exact sorted.1 r' hrest
  refine ⟨first r, fun ⟨hr, hid, last⟩ => ?_⟩
  cases he : (historyRows hostId none none db).head? with
  | none =>
    rw [List.head?_eq_none_iff] at he
    have listed := (member r).mpr ⟨hr, hid⟩
    rw [he] at listed
    exact absurd listed List.not_mem_nil
  | some r₀ =>
    obtain ⟨hr₀, hid₀, last₀⟩ := first r₀ he
    have same := collectedBefore_antisymm r r₀ (last₀ r hr hid) (last r₀ hr₀ hid₀)
    rw [db.reports.eq_of_clash r r₀ hr hr₀ same]

theorem last_of_history (h : MonitoredHost) (db : Db) (hm : h ∈ db.hosts)
    (active : h.lifecycleStatus = .active) (limit : Int) (hl : 1 ≤ limit) :
    (history h.hostId none none limit db).map (fun points =>
      points.getLast?.map HistoryPoint.reportId) =
      some ((historyRows h.hostId none none db).head?.map fun r => r.reportId.toText) := by
  have found : (db.hosts.any fun h' => decide (h'.hostId = h.hostId) &&
      decide (h'.lifecycleStatus = .active)) = true := by
    refine (Table.any_eq_true _ _).mpr ⟨h, hm, ?_⟩
    simp [active]
  have taken : (limited limit (historyRows h.hostId none none db)).head? =
      (historyRows h.hostId none none db).head? := by
    rw [limited, if_neg (by omega), List.head?_take, if_neg (by omega)]
  rw [history, if_pos found, Option.map_some, List.getLast?_reverse, List.head?_map, taken,
    Option.map_map]
  rfl

theorem stamp_trans (r₁ r₂ r₃ : MetricReport) (h : decide (r₁.stamp ≤ r₂.stamp) = true)
    (h' : decide (r₂.stamp ≤ r₃.stamp) = true) : decide (r₁.stamp ≤ r₃.stamp) = true :=
  decide_eq_true ((of_decide_eq_true h).trans (of_decide_eq_true h'))

theorem stamp_total (r r' : MetricReport) :
    (decide (r.stamp ≤ r'.stamp) || decide (r'.stamp ≤ r.stamp)) = true := by
  simpa using le_total r.stamp r'.stamp

section
variable (db : Db) (hostId : Uuid) (fromTime toTime : Option DateTime)

/-- A history is the timeline when the years in it and around it sort. -/
theorem historyRows_eq
    (rows : ∀ r ∈ db.reports, r.hostId = hostId → ∀ r' ∈ db.reports, r'.hostId = hostId →
      YearsSort r.collectedAt.year r'.collectedAt.year)
    (bounds : ∀ r ∈ db.reports, r.hostId = hostId → ∀ t, fromTime = some t ∨ toTime = some t →
      YearsSort r.collectedAt.year t.year) (limit : Int) :
    (limited limit (historyRows hostId fromTime toTime db)).reverse =
      timeline hostId fromTime toTime limit db := by
  have windows : ∀ r ∈ db.reports.rows, (decide (r.hostId = hostId) && inWindow fromTime toTime r) =
      (decide (r.hostId = hostId) && ((fromTime.all fun t => decide (t ≤ r.collectedAt)) &&
        toTime.all fun t => decide (r.collectedAt ≤ t))) := by
    intro r hr
    by_cases hid : r.hostId = hostId
    · have left : (fromTime.all fun t => DateTime.sqlLe t r.collectedAt) =
          fromTime.all fun t => decide (t ≤ r.collectedAt) := by
        cases fromTime with
        | none => rfl
        | some t =>
          have agrees := DateTime.sqlAgrees_of_sorts t r.collectedAt
            (bounds r hr hid t (Or.inl rfl)).symm
          rw [Option.all_some, Option.all_some, Bool.eq_iff_iff, agrees.le, decide_eq_true_iff]
      have right : (toTime.all fun t => DateTime.sqlLe r.collectedAt t) =
          toTime.all fun t => decide (r.collectedAt ≤ t) := by
        cases toTime with
        | none => rfl
        | some t =>
          have agrees := DateTime.sqlAgrees_of_sorts r.collectedAt t
            (bounds r hr hid t (Or.inr rfl))
          rw [Option.all_some, Option.all_some, Bool.eq_iff_iff, agrees.le, decide_eq_true_iff]
      rw [inWindow, left, right]
    · rw [decide_eq_false hid, Bool.false_and, Bool.false_and]
  rw [historyRows, timeline, List.filter_congr windows]
  have member : ∀ r ∈ db.reports.rows.filter fun r => decide (r.hostId = hostId) &&
      ((fromTime.all fun t => decide (t ≤ r.collectedAt)) &&
        toTime.all fun t => decide (r.collectedAt ≤ t)), r ∈ db.reports ∧ r.hostId = hostId := by
    intro r hr
    obtain ⟨hm, hp⟩ := List.mem_filter.mp hr
    rw [Bool.and_eq_true, decide_eq_true_iff] at hp
    exact ⟨hm, hp.1⟩
  rw [mergeSort_agrees _ _ _ (fun a b c h h' => collectedBefore_trans c b a h' h)
    (fun a b => collectedBefore_total b a) (fun a b c h h' => stamp_trans c b a h' h)
    (fun a b => stamp_total b a) ?_ ?_]
  · intro r hr r' hr' h h'
    exact db.reports.eq_of_clash r r' (member r hr).1 (member r' hr').1
      (collectedBefore_antisymm r r' h' h)
  · intro r hr r' hr'
    obtain ⟨hm, hid⟩ := member r hr
    obtain ⟨hm', hid'⟩ := member r' hr'
    exact collectedBefore_sorts r' r (rows r' hm' hid' r hm hid)

/-- A retention pass takes the reports that are due when their years and the cutoff's sort. -/
theorem pendingReports_eq (cutoff : DateTime) (batchSize : Nat)
    (rows : ∀ r ∈ db.reports, ∀ r' ∈ db.reports, YearsSort r.collectedAt.year r'.collectedAt.year)
    (bound : ∀ r ∈ db.reports, YearsSort r.collectedAt.year cutoff.year) :
    pendingReports cutoff batchSize db = dueReports cutoff batchSize db := by
  have conditions : ∀ r ∈ db.reports.rows, (r.aggregatedAt.isNone &&
      DateTime.sqlLt r.collectedAt cutoff && !isLatest db r) = (r.aggregatedAt.isNone &&
        decide (r.collectedAt < cutoff) && !isLatest db r) := by
    intro r hr
    have agrees := (DateTime.sqlAgrees_of_sorts r.collectedAt cutoff (bound r hr)).lt
    rw [Bool.eq_iff_iff.mpr (agrees.trans decide_eq_true_iff.symm)]
  rw [pendingReports, dueReports, Table.select, Table.select, List.filter_congr conditions,
    mergeSort_agrees _ _ _ collectedBefore_trans collectedBefore_total stamp_trans stamp_total ?_ ?_]
  · intro r hr r' hr' h h'
    exact db.reports.eq_of_clash r r' (List.mem_of_mem_filter hr) (List.mem_of_mem_filter hr')
      (collectedBefore_antisymm r r' h h')
  · intro r hr r' hr'
    exact collectedBefore_sorts r r' (rows r (List.mem_of_mem_filter hr) r'
      (List.mem_of_mem_filter hr'))

end

/-- The last point of a history is the latest report just when the years of the
host's reports sort with the latest one's. -/
theorem last_is_latest_iff {noted : List ReportWrite} (h : MonitoredHost) (db : Db)
    (hm : h ∈ db.hosts) (active : h.lifecycleStatus = .active) (holds : LatestHolds noted db h)
    (limit : Int) (hl : 1 ≤ limit) :
    (history h.hostId none none limit db).map (fun points =>
      points.getLast?.map HistoryPoint.reportId) = some (h.latestReportId.map Uuid.toText) ↔
    ∀ r ∈ db.reports, r.hostId = h.hostId → ∀ t, h.latestCollectedAt = some t →
      YearsSort r.collectedAt.year t.year := by
  rw [last_of_history h db hm active limit hl, Option.some.injEq]
  obtain ⟨hnone, hcol, hrows, _⟩ | ⟨latest, row⟩ := holds
  · have empty : (historyRows h.hostId none none db).head? = none := by
      cases he : (historyRows h.hostId none none db).head? with
      | none => rfl
      | some r =>
        obtain ⟨hr, hid, _⟩ := (head_historyRows h.hostId db r).mp he
        exact absurd hid (hrows r hr)
    rw [empty, hnone, hcol]
    simp
  · have head : ((historyRows h.hostId none none db).head?.map fun r => r.reportId.toText) =
        h.latestReportId.map Uuid.toText ↔
        (historyRows h.hostId none none db).head? = some latest := by
      rw [row.pointer, Option.map_some]
      constructor
      · intro he
        obtain ⟨r, hr, hid⟩ := Option.map_eq_some_iff.mp he
        rw [hr, db.reports.eq_of_clash r latest ((head_historyRows h.hostId db r).mp hr).1 row.mem
          (Uuid.toText_injective hid)]
      · intro he
        rw [he, Option.map_some]
    rw [head, head_historyRows]
    constructor
    · rintro ⟨_, _, last⟩ r hr hid t ht
      have same : latest.collectedAt = t := Option.some.inj (row.collected.symm.trans ht)
      rw [← same]
      have behind := row.newest_row r hr hid
      obtain order | ⟨order, _⟩ := (collectedBefore_iff r latest).mp (last r hr hid)
      · obtain hlt | ⟨heq, _⟩ := (Prod.Lex.toLex_le_toLex).mp behind
        · exact DateTime.sorts_of_lt _ _ hlt order
        · exact Or.inl (congrArg DateTime.year heq)
      · exact Or.inl (congrArg DateTime.year order)
    · intro sorts
      refine ⟨row.mem, row.host, fun r hr hid => ?_⟩
      rw [collectedBefore_sorts r latest (sorts r hr hid _ row.collected), decide_eq_true_iff]
      exact row.newest_row r hr hid

/-- Stored times sort as texts just when their years do. Then SQL decides on a
cutoff, a window, an order and an extreme as the program does, and a history ends
with the latest report. -/
theorem text_order_iff (ops : List Op) (fresh : Fresh ops) :
    (∀ a b : DateTime, (TextAgrees a b ∧ SqlAgrees a b) ↔ YearsSort a.year b.year) ∧
    (∀ h ∈ (store.after ops).hosts, ∀ limit, 1 ≤ limit →
      ((history h.hostId none none limit (store.after ops)).map (fun points =>
        points.getLast?.map HistoryPoint.reportId) = some (h.latestReportId.map Uuid.toText) ↔
      ∀ r ∈ (store.after ops).reports, r.hostId = h.hostId → ∀ t, h.latestCollectedAt = some t →
        YearsSort r.collectedAt.year t.year)) ∧
    (∀ h ∈ (store.after ops).hosts, ∀ fromTime toTime limit,
      (∀ r ∈ (store.after ops).reports, r.hostId = h.hostId →
        ∀ r' ∈ (store.after ops).reports, r'.hostId = h.hostId →
          YearsSort r.collectedAt.year r'.collectedAt.year) →
      (∀ r ∈ (store.after ops).reports, r.hostId = h.hostId →
        ∀ t, fromTime = some t ∨ toTime = some t → YearsSort r.collectedAt.year t.year) →
      history h.hostId fromTime toTime limit (store.after ops) =
        some ((timeline h.hostId fromTime toTime limit (store.after ops)).map historyPoint)) ∧
    ∀ cutoff batchSize,
      (∀ r ∈ (store.after ops).reports, ∀ r' ∈ (store.after ops).reports,
        YearsSort r.collectedAt.year r'.collectedAt.year) →
      (∀ r ∈ (store.after ops).reports, YearsSort r.collectedAt.year cutoff.year) →
      pendingReports cutoff batchSize (store.after ops) =
        dueReports cutoff batchSize (store.after ops) := by
  have active : ∀ h ∈ (store.after ops).hosts, h.lifecycleStatus = .active :=
    fun h hm => ((bound_after ops fresh).host_active h hm).1
  refine ⟨fun a b => ⟨fun h => ?_, fun sorts => ?_⟩, fun h hm limit hl => ?_,
    fun h hm fromTime toTime limit rows bounds => ?_, fun cutoff batchSize rows bound => ?_⟩
  · exact (DateTime.textAgrees_iff a b).mp h.1
  · exact ⟨(DateTime.textAgrees_iff a b).mpr sorts, DateTime.sqlAgrees_of_sorts a b sorts⟩
  · exact last_is_latest_iff h _ hm (active h hm) ((tracked_after ops fresh).latest h hm) limit hl
  · have found : ((store.after ops).hosts.any fun h' => decide (h'.hostId = h.hostId) &&
        decide (h'.lifecycleStatus = .active)) = true := by
      refine (Table.any_eq_true _ _).mpr ⟨h, hm, ?_⟩
      simp [active h hm]
    rw [history, if_pos found, ← historyRows_eq _ _ _ _ rows bounds, List.map_reverse]
  · exact pendingReports_eq _ cutoff batchSize rows bound

theorem text_order_iff_laptop :
    ∃ h ∈ (store.after laptopReported).hosts.rows, h.latestReportId = some ⟨6⟩ ∧
      (history h.hostId none none 1 (store.after laptopReported)).map (fun points =>
        points.getLast?.map HistoryPoint.reportId) = some (some (Uuid.toText ⟨6⟩)) := by
  obtain ⟨h, hm, hpointer⟩ : ∃ h ∈ (store.after laptopReported).hosts.rows,
      h.latestReportId = some ⟨6⟩ := by decide +kernel
  refine ⟨h, hm, hpointer, ?_⟩
  have last := ((text_order_iff laptopReported fresh_laptopReported).2.1 h hm 1 (le_refl 1)).mpr
  rw [hpointer] at last
  refine last fun r hr _ t ht => ?_
  have years : ∀ r ∈ (store.after laptopReported).reports.rows, r.collectedAt.year = 2023 := by
    decide +kernel
  have latest : ∀ h ∈ (store.after laptopReported).hosts.rows, ∀ t ∈ h.latestCollectedAt,
      t.year = 2023 := by decide +kernel
  rw [years r hr, latest h hm t ht]
  exact Or.inl rfl

/-- The first instant of a year. -/
def newYear (y : Int) : DateTime := .ofSecs ((DateTime.daysBeforeYear y - 719162) * 86400)

/-- A report that passes every check, whatever its past time. -/
def datedReport (collectedAt : DateTime) : ClientReport where
  schemaVersion := 1
  reportId := "00000000-0000-0000-0000-000000000005"
  collectedAt
  host := ⟨"00000000-0000-0000-0000-000000000002", "linux", none, none, "x86_64", "0.9.10"⟩
  intervalSeconds := 10
  system := ⟨0, ⟨50, 1, none, [50]⟩, ⟨0, 0, 0, 0, 0⟩, [], [], [], []⟩
  capabilities := []
  client := ⟨0, 0⟩

/-- A report of the year -2 and one of the year -1. -/
theorem text_order_fails :
    ¬∀ now report m now' report' m', Model.validateReport now report = .ok m →
      Model.validateReport now' report' = .ok m' →
      TextAgrees report.collectedAt report'.collectedAt := by
  intro claim
  have admitted : Model.validateReport noon (datedReport (newYear (-2))) =
      .ok (Model.metricSummary (datedReport (newYear (-2)))) := by decide +kernel
  have admitted' : Model.validateReport noon (datedReport (newYear (-1))) =
      .ok (Model.metricSummary (datedReport (newYear (-1)))) := by decide +kernel
  have order := (claim _ _ _ _ _ _ admitted admitted').1.mp (by decide +kernel)
  exact absurd order (by decide +kernel)

end HostMonitoring.Store
