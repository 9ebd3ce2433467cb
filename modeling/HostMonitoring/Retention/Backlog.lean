import HostMonitoring.Framework.TableCounts
import HostMonitoring.Retention.Ledger

namespace HostMonitoring.Retention

open HostMonitoring.Framework
open HostMonitoring.Framework.Tx
open HostMonitoring.Store

/-- Not merged yet, before the cutoff and no host's latest report. -/
def isPending (cutoff : DateTime) (db : Db) (r : MetricReport) : Bool :=
  r.aggregatedAt.isNone && DateTime.sqlLt r.collectedAt cutoff && !isLatest db r

/-- Merged and no host's latest report. -/
def isDeletable (db : Db) (r : MetricReport) : Bool := r.aggregatedAt.isSome && !isLatest db r

def isExpired (cutoff : DateTime) (r : HourlyRow) : Bool := DateTime.sqlLt r.intervalEnd cutoff

/-- The raw rows that wait to be merged. -/
def pendingCount (cutoff : DateTime) (db : Db) : Nat := db.reports.count (isPending cutoff db)

/-- The merged raw rows that wait to be deleted. -/
def deletableCount (db : Db) : Nat := db.reports.count (isDeletable db)

def expiredCount (cutoff : DateTime) (db : Db) : Nat := db.hourly.count (isExpired cutoff)

theorem isLatest_congr (db db' : Db) (hosts : db'.hosts = db.hosts) (r : MetricReport) :
    isLatest db' r = isLatest db r := by
  rw [isLatest, isLatest, hosts]

/-- What waits depends on the hosts and the raw rows alone. -/
theorem counts_congr (cutoff : DateTime) (db db' : Db) (hosts : db'.hosts = db.hosts)
    (reports : db'.reports = db.reports) :
    pendingCount cutoff db' = pendingCount cutoff db ∧ deletableCount db' = deletableCount db := by
  have latest (r : MetricReport) : isLatest db' r = isLatest db r := isLatest_congr db db' hosts r
  constructor
  · rw [pendingCount, reports]
    exact Table.count_congr _ _ _ fun r _ => by rw [isPending, isPending, latest]
  · rw [deletableCount, reports]
    exact Table.count_congr _ _ _ fun r _ => by rw [isDeletable, isDeletable, latest]

theorem isPending_iff (cutoff : DateTime) (db : Db) (r : MetricReport) :
    isPending cutoff db r = true ↔ r.aggregatedAt = none ∧
      DateTime.sqlLt r.collectedAt cutoff = true ∧ isLatest db r = false := by
  simp [isPending, and_assoc]

theorem length_pendingReports (cutoff : DateTime) (batchSize : Nat) (db : Db) :
    (pendingReports cutoff batchSize db).length = min batchSize (pendingCount cutoff db) :=
  db.reports.length_select _ _ _

theorem toMark_pending (cutoff : DateTime) (batchSize : Nat) (db : Db) (r : MetricReport)
    (hr : r ∈ db.reports)
    (h : toMark ((pendingReports cutoff batchSize db).map MetricReport.reportId) r = true) :
    isPending cutoff db r = true := by
  simp only [toMark, Bool.and_eq_true, decide_eq_true_eq] at h
  exact db.reports.selected_iff MetricReport.reportId _ _ _ (fun _ _ same => same) r hr h.2

/-- The marker matches just the rows that were read. -/
theorem count_toMark (cutoff : DateTime) (batchSize : Nat) (db : Db) :
    db.reports.count (toMark ((pendingReports cutoff batchSize db).map MetricReport.reportId)) =
      min batchSize (pendingCount cutoff db) := by
  have selected := db.reports.count_selected MetricReport.reportId (isPending cutoff db)
    collectedBefore batchSize fun _ _ => Iff.rfl
  refine (Table.count_congr _ _ _ fun r hr => ?_).trans selected
  rw [toMark]
  cases hid : decide (r.reportId ∈ (pendingReports cutoff batchSize db).map
      MetricReport.reportId) with
  | false => exact (Bool.and_false _).trans hid.symm
  | true =>
    have pending := db.reports.selected_iff MetricReport.reportId (isPending cutoff db) collectedBefore
      batchSize (fun _ _ same => same) r hr (of_decide_eq_true hid)
    rw [isPending_iff] at pending
    rw [pending.1]
    exact hid.symm

/-- What an answered batch of merges did. -/
structure Rolled (cutoff now : DateTime) (batchSize n : Nat) (db db' : Db) : Prop where
  answer : n = min batchSize (pendingCount cutoff db)
  upserts : ∃ fault i u db₁, (upsertAll fault now
    (bucketValues (bucketsOf (pendingReports cutoff batchSize db))) i).run db = (.ok u, db₁) ∧
      db'.hourly = db₁.hourly
  frame : db' = { db with
    hourly := db'.hourly
    reports := markAggregated now
      ((pendingReports cutoff batchSize db).map MetricReport.reportId) db.reports }

theorem bucketValues_nil : bucketValues (bucketsOf []) = [] := by
  simp [bucketValues, bucketsOf, AssocMap.empty]

theorem markAggregated_nil (now : DateTime) (reports : Table MetricReport) :
    markAggregated now [] reports = reports := by
  have same : (markAggregated now [] reports).rows = reports.rows := by
    simp [markAggregated, Table.modify, Table.updated, toMark]
  cases reports
  simp only [markAggregated, Table.modify] at same ⊢
  congr

theorem aggregateRawBatch_ok (f : Faults) (cutoff now : DateTime) (batchSize n : Nat) (db db' : Db)
    (h : aggregateRawBatch f cutoff now batchSize db = (.ok n, db')) :
    Rolled cutoff now batchSize n db db' := by
  have idle (nothing : pendingReports cutoff batchSize db = []) :
      Rolled cutoff now batchSize 0 db db := by
    have none := length_pendingReports cutoff batchSize db
    rw [nothing] at none
    refine ⟨none, ⟨f.statement, 1, (), db, ?_, rfl⟩, ?_⟩
    · rw [nothing, bucketValues_nil]
      rfl
    · rw [nothing, List.map_nil, markAggregated_nil]
  obtain ⟨⟨e, he⟩, _⟩ | ⟨⟨w, hb⟩, rfl⟩ | ⟨a, ha, hb⟩ := transact_cases _ _ _ _ _ h
  · cases he
  · simp only [bind_ok, query_ok] at hb
    obtain ⟨reports, _, ⟨_, hr, rfl⟩, hb⟩ := hb
    split_ifs at hb with he
    · rw [pure_ok] at hb
      cases hb.1
      exact idle (hr.symm.trans he)
    · simp only [bind_ok] at hb
      obtain ⟨_, _, _, marked, _, _, hb⟩ := hb
      split_ifs at hb with hm
      · exact absurd hb (fail_ok _ _ _ _)
      · rw [pure_ok] at hb
        cases hb.1
  · cases ha
    simp only [bind_ok, query_ok] at hb
    obtain ⟨reports, _, ⟨_, hr, rfl⟩, hb⟩ := hb
    split_ifs at hb with he
    · rw [pure_ok] at hb
      cases hb.1
    · simp only [bind_ok, execute_ok, Except.ok.injEq, Prod.mk.injEq] at hb
      obtain ⟨u, db₁, hu, marked, _, ⟨_, _, rfl⟩, hb⟩ := hb
      split_ifs at hb with hm
      · exact absurd hb (fail_ok _ _ _ _)
      · rw [pure_ok] at hb
        obtain ⟨ha, rfl⟩ := hb
        cases ha
        subst hr
        have same := upsertAll_hourly _ _ _ _ _ _ _ hu
        refine ⟨?_, ⟨f.statement, 1, u, db₁, hu, rfl⟩, ?_⟩
        · rw [not_not.mp hm]
          exact length_pendingReports _ _ _
        · rw [same]

/-- A statement that is rolled back where it changed no row. -/
def deletion (f : Faults) (write : Db → Except StoreError (Nat × Db)) :
    Db → Except StoreError Nat × Db :=
  transact f.boundary do
    let deleted ← execute (f.statement 0) write
    if deleted = 0 then return .rollback (.ok deleted) else return .commit deleted

theorem deletion_ok (f : Faults) (write : Db → Except StoreError (Nat × Db)) (db db' : Db) (n : Nat)
    (h : deletion f write db = (.ok n, db')) :
    ∃ db₁, write db = .ok (n, db₁) ∧ db' = if n = 0 then db else db₁ := by
  obtain ⟨⟨e, he⟩, _⟩ | ⟨⟨w, hb⟩, rfl⟩ | ⟨a, ha, hb⟩ := transact_cases _ _ _ _ _ h
  · cases he
  · simp only [bind_ok, execute_ok] at hb
    obtain ⟨deleted, db₁, ⟨_, hw⟩, hb⟩ := hb
    split_ifs at hb with h0
    · rw [pure_ok] at hb
      cases hb.1
      exact ⟨db₁, hw, (if_pos h0).symm⟩
    · rw [pure_ok] at hb
      cases hb.1
  · cases ha
    simp only [bind_ok, execute_ok] at hb
    obtain ⟨deleted, db₁, ⟨_, hw⟩, hb⟩ := hb
    split_ifs at hb with h0
    · rw [pure_ok] at hb
      cases hb.1
    · rw [pure_ok] at hb
      obtain ⟨ha, rfl⟩ := hb
      cases ha
      exact ⟨_, hw, (if_neg h0).symm⟩

theorem delete_nothing {α : Type} [Keyed α] (t : Table α) (p : α → Bool) (h : t.count p = 0) :
    t.delete p = t := by
  rw [Table.count_eq_zero] at h
  have same : (t.delete p).rows = t.rows := by
    apply List.filter_eq_self.mpr
    intro r hr
    rw [h r hr]
    rfl
  cases t
  simp only [Table.delete] at same ⊢
  congr

theorem deleteAggregatedRawBatch_ok (f : Faults) (batchSize n : Nat) (db db' : Db)
    (h : deleteAggregatedRawBatch f batchSize db = (.ok n, db')) :
    n = db.reports.count (rawVictim batchSize db) ∧
      db' = { db with reports := db.reports.delete (rawVictim batchSize db) } := by
  obtain ⟨db₁, hw, he⟩ := deletion_ok f _ db db' n h
  cases hw
  refine ⟨rfl, ?_⟩
  rw [he]
  split_ifs with h0
  · rw [delete_nothing _ _ h0]
  · rfl

theorem deleteExpiredAggregateBatch_ok (f : Faults) (cutoff : DateTime) (batchSize n : Nat)
    (db db' : Db) (h : deleteExpiredAggregateBatch f cutoff batchSize db = (.ok n, db')) :
    n = db.hourly.count (hourlyVictim cutoff batchSize db) ∧
      db' = { db with hourly := db.hourly.delete (hourlyVictim cutoff batchSize db) } := by
  obtain ⟨db₁, hw, he⟩ := deletion_ok f _ db db' n h
  cases hw
  refine ⟨rfl, ?_⟩
  rw [he]
  split_ifs with h0
  · rw [delete_nothing _ _ h0]
  · rfl

/-- A batch of merges moves rows from the one queue to the other. -/
theorem Rolled.counts {cutoff now : DateTime} {batchSize n : Nat} {db db' : Db}
    (rolled : Rolled cutoff now batchSize n db db') :
    pendingCount cutoff db' + n = pendingCount cutoff db ∧
      deletableCount db' = deletableCount db + n := by
  have hosts : db'.hosts = db.hosts := by rw [rolled.frame]
  have reports : db'.reports = markAggregated now
      ((pendingReports cutoff batchSize db).map MetricReport.reportId) db.reports := by
    rw [rolled.frame]
  have marked := count_toMark cutoff batchSize db
  rw [← rolled.answer] at marked
  have latest (r : MetricReport) : isLatest db' r = isLatest db r := isLatest_congr db db' hosts r
  constructor
  · rw [pendingCount, reports, markAggregated, Table.count_modify, pendingCount,
      db.reports.count_split (isPending cutoff db)
        (toMark ((pendingReports cutoff batchSize db).map MetricReport.reportId)), Nat.add_comm,
      ← marked]
    congr 1
    · apply Table.count_congr
      intro r hr
      cases hm : toMark ((pendingReports cutoff batchSize db).map MetricReport.reportId) r with
      | false => simp
      | true => simp [toMark_pending cutoff batchSize db r hr hm]
    · apply Table.count_congr
      intro r _
      cases hm : toMark ((pendingReports cutoff batchSize db).map MetricReport.reportId) r with
      | false => simp [isPending, latest]
      | true => simp [isPending]
  · rw [deletableCount, reports, markAggregated, Table.count_modify,
      Table.count_split _ _
        (toMark ((pendingReports cutoff batchSize db).map MetricReport.reportId)), Nat.add_comm,
      deletableCount, ← marked]
    congr 1
    · apply Table.count_congr
      intro r hr
      cases hm : toMark ((pendingReports cutoff batchSize db).map MetricReport.reportId) r with
      | false => simp [isDeletable, latest]
      | true =>
        have pending := (isPending_iff _ _ _).mp (toMark_pending cutoff batchSize db r hr hm)
        simp [isDeletable, pending.1]
    · apply Table.count_congr
      intro r hr
      cases hm : toMark ((pendingReports cutoff batchSize db).map MetricReport.reportId) r with
      | false => simp
      | true =>
        have pending := (isPending_iff _ _ _).mp (toMark_pending cutoff batchSize db r hr hm)
        have kept : isLatest db' { r with aggregatedAt := some now } = false :=
          (latest _).trans pending.2.2
        simp [isDeletable, kept]

theorem rawVictim_iff (batchSize : Nat) (db : Db) (r : MetricReport) (hr : r ∈ db.reports) :
    rawVictim batchSize db r =
      decide (r.reportId ∈ (deletableReports batchSize db).map MetricReport.reportId) := by
  have chosen : ((deletableReports batchSize db).any fun v => decide (v.reportId = r.reportId)) =
      decide (r.reportId ∈ (deletableReports batchSize db).map MetricReport.reportId) := by
    rw [Bool.eq_iff_iff]
    simp
  rw [rawVictim, chosen]
  cases hid : decide (r.reportId ∈ (deletableReports batchSize db).map MetricReport.reportId) with
  | false => rfl
  | true =>
    have deletable := db.reports.selected_iff MetricReport.reportId (isDeletable db)
      aggregatedBefore batchSize (fun _ _ same => same) r hr (of_decide_eq_true hid)
    simp only [isDeletable, Bool.and_eq_true] at deletable
    exact deletable.2

theorem count_rawVictim (batchSize : Nat) (db : Db) :
    db.reports.count (rawVictim batchSize db) = min batchSize (deletableCount db) :=
  (Table.count_congr _ _ _ fun r hr => rawVictim_iff batchSize db r hr).trans
    (db.reports.count_selected MetricReport.reportId (isDeletable db) aggregatedBefore batchSize
      fun _ _ => Iff.rfl)

theorem count_hourlyVictim (cutoff : DateTime) (batchSize : Nat) (db : Db) :
    db.hourly.count (hourlyVictim cutoff batchSize db) = min batchSize (expiredCount cutoff db) := by
  refine (Table.count_congr _ _ _ fun r _ => ?_).trans
    (db.hourly.count_selected (fun r => r.key) (isExpired cutoff) endedBefore batchSize
      fun _ _ => Iff.rfl)
  rw [hourlyVictim, Bool.eq_iff_iff]
  simp only [expiredAggregates, List.any_eq_true, List.mem_map, decide_eq_true_eq]
  rfl

/-- Victims leave the queue they were taken from. -/
theorem count_rest {α : Type} [Keyed α] (t : Table α) (p victim : α → Bool)
    (taken : ∀ r ∈ t, victim r = true → p r = true) :
    (t.delete victim).count p + t.count victim = t.count p := by
  rw [Table.count_delete, t.count_split p victim, Nat.add_comm]
  congr 1
  apply Table.count_congr
  intro r hr
  cases hv : victim r with
  | false => simp
  | true => simp [taken r hr hv]

theorem deletable_of_rawVictim (batchSize : Nat) (db : Db) (r : MetricReport) (hr : r ∈ db.reports)
    (h : rawVictim batchSize db r = true) : isDeletable db r = true := by
  rw [rawVictim_iff batchSize db r hr, decide_eq_true_eq] at h
  exact db.reports.selected_iff MetricReport.reportId _ _ _ (fun _ _ same => same) r hr h

theorem expired_of_hourlyVictim (cutoff : DateTime) (batchSize : Nat) (db : Db) (r : HourlyRow)
    (hr : r ∈ db.hourly) (h : hourlyVictim cutoff batchSize db r = true) :
    isExpired cutoff r = true := by
  simp only [hourlyVictim, List.any_eq_true, decide_eq_true_eq] at h
  obtain ⟨v, hv, same⟩ := h
  obtain ⟨mem, expired⟩ := Table.mem_of_mem_select _ _ _ _ _ hv
  rw [← db.hourly.eq_of_clash v r mem hr same]
  exact expired

theorem deleteAggregatedRawBatch_counts (f : Faults) (cutoff : DateTime) (batchSize n : Nat)
    (db db' : Db) (h : deleteAggregatedRawBatch f batchSize db = (.ok n, db')) :
    n = min batchSize (deletableCount db) ∧ deletableCount db' + n = deletableCount db ∧
      pendingCount cutoff db' = pendingCount cutoff db := by
  obtain ⟨answer, rfl⟩ := deleteAggregatedRawBatch_ok f batchSize n db db' h
  have rest := count_rest db.reports (isDeletable db) (rawVictim batchSize db)
    (deletable_of_rawVictim batchSize db)
  refine ⟨answer.trans (count_rawVictim batchSize db), ?_, ?_⟩
  · rw [answer]
    exact rest
  · change (db.reports.delete (rawVictim batchSize db)).count (isPending cutoff db) = _
    rw [Table.count_delete]
    apply Table.count_congr
    intro r hr
    cases hv : rawVictim batchSize db r with
    | false => simp
    | true =>
      have deletable := deletable_of_rawVictim batchSize db r hr hv
      simp only [isDeletable, Bool.and_eq_true, Option.isSome_iff_ne_none] at deletable
      simp [isPending, deletable.1]

theorem deleteExpiredAggregateBatch_counts (f : Faults) (cutoff : DateTime) (batchSize n : Nat)
    (db db' : Db) (h : deleteExpiredAggregateBatch f cutoff batchSize db = (.ok n, db')) :
    n = min batchSize (expiredCount cutoff db) ∧ expiredCount cutoff db' + n = expiredCount cutoff db ∧
      db'.hosts = db.hosts ∧ db'.reports = db.reports := by
  obtain ⟨answer, rfl⟩ := deleteExpiredAggregateBatch_ok f cutoff batchSize n db db' h
  have rest := count_rest db.hourly (isExpired cutoff) (hourlyVictim cutoff batchSize db)
    (expired_of_hourlyVictim cutoff batchSize db)
  refine ⟨answer.trans (count_hourlyVictim cutoff batchSize db), ?_, rfl, rfl⟩
  rw [answer]
  exact rest

end HostMonitoring.Retention
