import HostMonitoring.Retention.Exactness
import HostMonitoring.Store.History

namespace HostMonitoring.Retention

open HostMonitoring.Framework
open HostMonitoring.Framework.Tx
open HostMonitoring.Store

/-- What happens to raw rows and hourly rows in the course of a run. -/
inductive Event where
  | inserted (reportId : Uuid)
  | opened (key : Uuid × DateTime)
  | merged (row : MetricReport)
  | deleted (key : Uuid × DateTime)

def knownReport (db : Db) (reportId : Uuid) : Bool :=
  db.reports.any fun r => decide (r.reportId = reportId)

/-- The raw rows that are there only afterwards. -/
def newReports (db db' : Db) : List Uuid :=
  (db'.reports.rows.map MetricReport.reportId).filter fun id => !knownReport db id

/-- The hourly rows that are there only afterwards. -/
def newKeys (db db' : Db) : List (Uuid × DateTime) :=
  (db'.hourly.rows.map fun row => row.key).filter fun key => (hourlyAt key db.hourly).isNone

/-- The rows that a committed call read and merged. -/
def merges (op : Op) (db : Db) : List MetricReport :=
  match op with
  | .aggregateRawBatch f cutoff now batchSize =>
    match (aggregateRawBatch f cutoff now batchSize db).1 with
    | .ok (_ + 1) => pendingReports cutoff batchSize db
    | _ => []
  | _ => []

/-- The hourly rows that the two deleting calls took away; no other call may lose one. -/
def deletedKeys (op : Op) (db : Db) : List (Uuid × DateTime) :=
  match op with
  | .deleteExpiredAggregateBatch _ _ _ | .deleteHost _ _ _ _ => newKeys (op.exec db).2 db
  | _ => []

def events (op : Op) (db : Db) : List Event :=
  (newReports db (op.exec db).2).map .inserted ++ (newKeys db (op.exec db).2).map .opened ++
    (merges op db).map .merged ++ (deletedKeys op db).map .deleted

/-- The history of a run. -/
def ledger (ops : List Op) : List Event := store.observed events ops

def countMerge (reportId : Uuid) (n : Nat) : Event → Nat
  | .inserted id => if id = reportId then 0 else n
  | .opened _ => n
  | .merged row => if row.reportId = reportId then n + 1 else n
  | .deleted _ => n

/-- How often a raw row was merged since it was inserted. -/
def mergesOf (reportId : Uuid) (history : List Event) : Nat :=
  history.foldl (countMerge reportId) 0

def collectMerge (key : Uuid × DateTime) (rows : List MetricReport) : Event → List MetricReport
  | .inserted _ => rows
  | .opened key' => if key' = key then [] else rows
  | .merged row => if hourKey row = key then rows ++ [row] else rows
  | .deleted key' => if key' = key then [] else rows

/-- The raw rows merged into an hourly row since it was created, or last deleted. -/
def mergedInto (key : Uuid × DateTime) (history : List Event) : List MetricReport :=
  history.foldl (collectMerge key) []

theorem count_inserted (reportId : Uuid) (ids : List Uuid) (n : Nat) :
    (ids.map Event.inserted).foldl (countMerge reportId) n = if reportId ∈ ids then 0 else n := by
  induction ids generalizing n with
  | nil => simp
  | cons id ids ih =>
    rw [List.map_cons, List.foldl_cons, ih]
    by_cases hid : id = reportId
    · simp [countMerge, hid]
    · have other : ¬reportId = id := fun he => hid he.symm
      simp [countMerge, hid, other]

theorem count_opened (reportId : Uuid) (keys : List (Uuid × DateTime)) (n : Nat) :
    (keys.map Event.opened).foldl (countMerge reportId) n = n := by
  induction keys with
  | nil => rfl
  | cons key keys ih => exact ih

theorem count_merged (reportId : Uuid) (rows : List MetricReport) (n : Nat) :
    (rows.map Event.merged).foldl (countMerge reportId) n =
      n + rows.countP fun r => decide (r.reportId = reportId) := by
  induction rows generalizing n with
  | nil => rfl
  | cons row rows ih =>
    rw [List.map_cons, List.foldl_cons, ih, List.countP_cons]
    by_cases hid : row.reportId = reportId
    · simp only [countMerge, hid, decide_true, if_true]
      omega
    · simp [countMerge, hid]

theorem count_deletions (reportId : Uuid) (keys : List (Uuid × DateTime)) (n : Nat) :
    (keys.map Event.deleted).foldl (countMerge reportId) n = n := by
  induction keys with
  | nil => rfl
  | cons key keys ih => exact ih

theorem collect_inserted (key : Uuid × DateTime) (ids : List Uuid) (rows : List MetricReport) :
    (ids.map Event.inserted).foldl (collectMerge key) rows = rows := by
  induction ids with
  | nil => rfl
  | cons id ids ih => exact ih

theorem collect_opened (key : Uuid × DateTime) (keys : List (Uuid × DateTime))
    (rows : List MetricReport) :
    (keys.map Event.opened).foldl (collectMerge key) rows = if key ∈ keys then [] else rows := by
  induction keys generalizing rows with
  | nil => simp
  | cons key' keys ih =>
    rw [List.map_cons, List.foldl_cons, ih]
    by_cases hk : key' = key
    · simp [collectMerge, hk]
    · have other : ¬key = key' := fun he => hk he.symm
      simp [collectMerge, hk, other]

theorem collect_merged (key : Uuid × DateTime) (new rows : List MetricReport) :
    (new.map Event.merged).foldl (collectMerge key) rows = rows ++ rowsOf key new := by
  induction new generalizing rows with
  | nil => simp [rowsOf]
  | cons row new ih =>
    rw [List.map_cons, List.foldl_cons, ih]
    by_cases hk : hourKey row = key
    · simp [collectMerge, rowsOf, hk]
    · simp [collectMerge, rowsOf, hk]

theorem collect_deletions (key : Uuid × DateTime) (keys : List (Uuid × DateTime))
    (rows : List MetricReport) :
    (keys.map Event.deleted).foldl (collectMerge key) rows = if key ∈ keys then [] else rows := by
  induction keys generalizing rows with
  | nil => simp
  | cons key' keys ih =>
    rw [List.map_cons, List.foldl_cons, ih]
    by_cases hk : key' = key
    · simp [collectMerge, hk]
    · have other : ¬key = key' := fun he => hk he.symm
      simp [collectMerge, hk, other]

theorem mergesOf_events (reportId : Uuid) (history : List Event) (op : Op) (db : Db) :
    mergesOf reportId (history ++ events op db) =
      (if reportId ∈ newReports db (op.exec db).2 then 0 else mergesOf reportId history) +
        (merges op db).countP fun r => decide (r.reportId = reportId) := by
  unfold mergesOf events
  rw [List.foldl_append, List.foldl_append, List.foldl_append, List.foldl_append, count_inserted,
    count_opened, count_merged, count_deletions]

theorem mergedInto_events (key : Uuid × DateTime) (history : List Event) (op : Op) (db : Db) :
    mergedInto key (history ++ events op db) =
      if key ∈ deletedKeys op db then []
      else (if key ∈ newKeys db (op.exec db).2 then [] else mergedInto key history) ++
        rowsOf key (merges op db) := by
  unfold mergedInto events
  rw [List.foldl_append, List.foldl_append, List.foldl_append, List.foldl_append, collect_inserted,
    collect_opened, collect_merged, collect_deletions]

theorem mem_newReports (db db' : Db) (r : MetricReport) (hr : r ∈ db'.reports) :
    r.reportId ∈ newReports db db' ↔ ∀ r₀ ∈ db.reports, r₀.reportId ≠ r.reportId := by
  have listed : r.reportId ∈ db'.reports.rows.map MetricReport.reportId :=
    List.mem_map.mpr ⟨r, hr, rfl⟩
  simp [newReports, List.mem_filter, listed, knownReport, Table.any_eq_false]

theorem mem_newKeys (db db' : Db) (row : HourlyRow) (hr : row ∈ db'.hourly) :
    row.key ∈ newKeys db db' ↔ hourlyAt row.key db.hourly = none := by
  have listed : row.key ∈ db'.hourly.rows.map fun row => row.key := List.mem_map.mpr ⟨row, hr, rfl⟩
  simp only [newKeys, List.mem_filter, listed, true_and, Option.isNone_iff_eq_none]

theorem mem_newKeys_key (db db' : Db) (key : Uuid × DateTime) :
    key ∈ newKeys db db' ↔
      (hourlyAt key db'.hourly).isSome = true ∧ hourlyAt key db.hourly = none := by
  have listed : key ∈ db'.hourly.rows.map (fun row => row.key) ↔
      (hourlyAt key db'.hourly).isSome = true := by
    rw [List.mem_map, Option.isSome_iff_exists]
    simp only [hourlyAt_eq_some, Table.mem_def]
  rw [newKeys, List.mem_filter, listed, Option.isNone_iff_eq_none]

theorem deletedKeys_gone (op : Op) (db : Db) (key : Uuid × DateTime) (h : key ∈ deletedKeys op db) :
    hourlyAt key (op.exec db).2.hourly = none := by
  cases op with
  | deleteExpiredAggregateBatch f cutoff batchSize => exact ((mem_newKeys_key _ _ key).mp h).2
  | deleteHost f hostId actor auditedAt => exact ((mem_newKeys_key _ _ key).mp h).2
  | _ => exact absurd h List.not_mem_nil

/-- A raw row is marked once it was merged, every host and hour with merged rows
has its hourly row, and an hourly row describes exactly the raw rows merged into it. -/
structure Balanced (history : List Event) (db : Db) : Prop where
  marks : ∀ r ∈ db.reports, mergesOf r.reportId history = if r.aggregatedAt.isSome then 1 else 0
  present : ∀ key, mergedInto key history ≠ [] → (hourlyAt key db.hourly).isSome = true
  hourly : ∀ row ∈ db.hourly, Exact row.toHourlyAggregate (mergedInto row.key history)

/-- A change that merges nothing: no mark and no hourly row appears. -/
structure NoMerge (db db' : Db) : Prop where
  reports : ∀ r' ∈ db'.reports, (∃ r ∈ db.reports, r.reportId = r'.reportId ∧
    r.aggregatedAt = r'.aggregatedAt) ∨
    ((∀ r ∈ db.reports, r.reportId ≠ r'.reportId) ∧ r'.aggregatedAt = none)
  hourly : ∀ row ∈ db'.hourly, row ∈ db.hourly

theorem NoMerge.of_subset {db db' : Db} (reports : ∀ r ∈ db'.reports, r ∈ db.reports)
    (hourly : ∀ row ∈ db'.hourly, row ∈ db.hourly) : NoMerge db db' where
  reports r' hr := Or.inl ⟨r', reports r' hr, rfl, rfl⟩
  hourly := hourly

theorem NoMerge.refl (db : Db) : NoMerge db db := .of_subset (fun _ => id) fun _ => id

theorem pending_unmarked (cutoff : DateTime) (batchSize : Nat) (db : Db) (r : MetricReport)
    (hr : r ∈ pendingReports cutoff batchSize db) : r ∈ db.reports ∧ r.aggregatedAt = none := by
  obtain ⟨hm, hp⟩ := Table.mem_of_mem_select _ _ _ _ _ hr
  simp only [Bool.and_eq_true, Option.isNone_iff_eq_none] at hp
  exact ⟨hm, hp.1.1⟩

/-- A stored row is among the rows a batch reads once if the batch marks it, and never otherwise. -/
theorem pending_once (cutoff : DateTime) (batchSize : Nat) (db : Db) (r : MetricReport)
    (hr : r ∈ db.reports) :
    ((pendingReports cutoff batchSize db).countP fun x => decide (x.reportId = r.reportId)) =
      if toMark ((pendingReports cutoff batchSize db).map MetricReport.reportId) r then 1 else 0 := by
  have distinct : ((pendingReports cutoff batchSize db).map MetricReport.reportId).Nodup := by
    rw [List.nodup_iff_pairwise_ne, List.pairwise_map]
    exact Table.select_distinct _ _ _ _
  have count : ((pendingReports cutoff batchSize db).countP
      fun x => decide (x.reportId = r.reportId)) =
      ((pendingReports cutoff batchSize db).map MetricReport.reportId).count r.reportId := by
    rw [List.count, List.countP_map]
    rfl
  rw [count]
  by_cases hid : r.reportId ∈ (pendingReports cutoff batchSize db).map MetricReport.reportId
  · obtain ⟨x, hx, hxid⟩ := List.mem_map.mp hid
    obtain ⟨hxm, hxa⟩ := pending_unmarked cutoff batchSize db x hx
    rw [db.reports.eq_of_clash x r hxm hr hxid] at hxa
    have mark : toMark ((pendingReports cutoff batchSize db).map MetricReport.reportId) r = true := by
      simp only [toMark, hxa, Option.isNone_none, Bool.true_and, decide_eq_true_eq]
      exact hid
    rw [List.count_eq_one_of_mem distinct hid, if_pos mark]
  · have mark : toMark ((pendingReports cutoff batchSize db).map MetricReport.reportId) r =
        false := by
      unfold toMark
      rw [decide_eq_false hid, Bool.and_false]
    rw [List.count_eq_zero_of_not_mem hid, mark]
    rfl

/-- A batch changes and merges nothing, or merges and marks the rows it read. -/
theorem aggregate_merges (f : Faults) (cutoff now : DateTime) (batchSize : Nat) (db : Db) :
    ((aggregateRawBatch f cutoff now batchSize db).2 = db ∧
      merges (.aggregateRawBatch f cutoff now batchSize) db = []) ∨
    (merges (.aggregateRawBatch f cutoff now batchSize) db = pendingReports cutoff batchSize db ∧
      ∃ i u db₁, (upsertAll f.statement now
        (bucketValues (bucketsOf (pendingReports cutoff batchSize db))) i).run db = (.ok u, db₁) ∧
        (aggregateRawBatch f cutoff now batchSize db).2 = { db with
          hourly := db₁.hourly
          reports := markAggregated now
            ((pendingReports cutoff batchSize db).map MetricReport.reportId) db.reports }) := by
  obtain ⟨same, zero⟩ | ⟨rows, hourly, rfl, hne, hr, ⟨i, u, db₁, hu, rfl⟩, he⟩ :=
    aggregateRawBatch_cases f cutoff now batchSize db _ _ Prod.mk.eta.symm
  · refine Or.inl ⟨same, ?_⟩
    cases hr : (aggregateRawBatch f cutoff now batchSize db).1 with
    | error e => simp only [merges, hr]
    | ok n =>
      rw [zero n hr] at hr
      simp only [merges, hr]
  · refine Or.inr ⟨?_, i, u, db₁, hu, he⟩
    cases hl : (pendingReports cutoff batchSize db).length with
    | zero => exact absurd (List.length_eq_zero_iff.mp hl) hne
    | succ n =>
      rw [hl] at hr
      simp only [merges, hr]

namespace Balanced

variable {history : List Event} {db : Db} {op : Op}

theorem idle (b : Balanced history db) (nothing : merges op db = [])
    (h : NoMerge db (op.exec db).2)
    (kept : ∀ key, (hourlyAt key db.hourly).isSome = true →
      (hourlyAt key (op.exec db).2.hourly).isSome = true ∨ key ∈ deletedKeys op db) :
    Balanced (history ++ events op db) (op.exec db).2 where
  marks r hr := by
    rw [mergesOf_events, nothing]
    have new := mem_newReports db (op.exec db).2 r hr
    obtain ⟨r₀, hr₀, hid, hmark⟩ | ⟨hnew, hmark⟩ := h.reports r hr
    · have old : r.reportId ∉ newReports db (op.exec db).2 := fun hm => new.mp hm r₀ hr₀ hid
      rw [if_neg old, ← hid, ← hmark]
      exact b.marks r₀ hr₀
    · rw [if_pos (new.mpr hnew), hmark]
      rfl
  present key := by
    intro merged
    by_cases deleted : key ∈ deletedKeys op db
    · rw [mergedInto_events, if_pos deleted] at merged
      exact absurd rfl merged
    · by_cases new : key ∈ newKeys db (op.exec db).2
      · exact ((mem_newKeys_key _ _ key).mp new).1
      · rw [mergedInto_events, if_neg deleted, if_neg new, nothing] at merged
        have before : mergedInto key history ≠ [] := by simpa [rowsOf] using merged
        exact (kept key (b.present key before)).resolve_right deleted
  hourly row hr := by
    have old := h.hourly row hr
    have here : hourlyAt row.key (op.exec db).2.hourly = some row :=
      (hourlyAt_eq_some _ _ _).mpr ⟨hr, rfl⟩
    have stays : row.key ∉ deletedKeys op db := fun gone =>
      absurd (here.symm.trans (deletedKeys_gone op db row.key gone)) (Option.some_ne_none row)
    have found : hourlyAt row.key db.hourly = some row := (hourlyAt_eq_some _ _ _).mpr ⟨old, rfl⟩
    have notNew : row.key ∉ newKeys db (op.exec db).2 := by
      rw [mem_newKeys db _ row hr, found]
      exact Option.some_ne_none row
    rw [mergedInto_events, if_neg stays, if_neg notNew, nothing]
    simpa [rowsOf] using b.hourly row old

/-- A batch merges each row it read once and marks just these. -/
theorem aggregated (b : Balanced history db) (f : Faults) (cutoff now : DateTime)
    (batchSize : Nat) : Balanced (history ++ events (.aggregateRawBatch f cutoff now batchSize) db)
      (aggregateRawBatch f cutoff now batchSize db).2 := by
  obtain ⟨same, nothing⟩ | ⟨merged, i, u, db₁, hu, he⟩ :=
    aggregate_merges f cutoff now batchSize db
  · have unchanged : (Op.exec (.aggregateRawBatch f cutoff now batchSize) db).2 = db := same
    refine b.idle nothing ?_ fun key there => Or.inl ?_
    · rw [unchanged]
      exact .refl db
    · rw [unchanged]
      exact there
  · refine ⟨fun r hr => ?_, fun key some => ?_, fun row hr => ?_⟩
    · rw [mergesOf_events, merged]
      have new := mem_newReports db (aggregateRawBatch f cutoff now batchSize db).2 r hr
      have old : ∃ r₀ ∈ db.reports, r₀.reportId = r.reportId ∧ r.aggregatedAt.isSome =
          (r₀.aggregatedAt.isSome ||
            toMark ((pendingReports cutoff batchSize db).map MetricReport.reportId) r₀) := by
        rw [he] at hr
        obtain ⟨r₀, hr₀, hmark, rfl⟩ | ⟨hr, hmark⟩ := (mem_markAggregated _ _ _ _).mp hr
        · exact ⟨r₀, hr₀, rfl, by simp [hmark]⟩
        · exact ⟨r, hr, rfl, by simp [hmark]⟩
      obtain ⟨r₀, hr₀, hid, hsome⟩ := old
      have notNew : r.reportId ∉ newReports db (aggregateRawBatch f cutoff now batchSize db).2 :=
        fun hm => new.mp hm r₀ hr₀ hid
      have before := b.marks r₀ hr₀
      have once := pending_once cutoff batchSize db r₀ hr₀
      change (if r.reportId ∈ newReports db (aggregateRawBatch f cutoff now batchSize db).2 then 0
        else _) + _ = _
      rw [if_neg notNew, ← hid, before, once, hsome]
      cases hm : toMark ((pendingReports cutoff batchSize db).map MetricReport.reportId) r₀ with
      | false => simp
      | true =>
        have unmarked : r₀.aggregatedAt.isSome = false := by
          simp only [toMark, Bool.and_eq_true, Option.isNone_iff_eq_none] at hm
          simp [hm.1]
        simp [unmarked]
    · rw [mergedInto_events, merged] at some
      have after := upsertAll_present f.statement now _ i u db db₁ hu key
      show (hourlyAt key (aggregateRawBatch f cutoff now batchSize db).2.hourly).isSome = true
      rw [he]
      refine after ?_
      by_contra none
      push Not at none
      obtain ⟨absent, unread⟩ := none
      have empty : mergedInto key history = [] := by
        by_contra before
        exact absent (b.present key before)
      rw [empty, unread] at some
      simp [deletedKeys] at some
    · rw [mergedInto_events, merged]
      have hr' : row ∈ db₁.hourly := by
        rw [he] at hr
        exact hr
      have exact := upsertAll_exact f.statement now _ i u db db₁ (fun key => mergedInto key history)
        b.hourly hu row hr'
      have new := mem_newKeys db (aggregateRawBatch f cutoff now batchSize db).2 row hr
      change Exact _ (if row.key ∈ [] then [] else (if row.key ∈ newKeys db (aggregateRawBatch f cutoff now batchSize db).2 then []
        else _) ++ _)
      rw [if_neg List.not_mem_nil]
      cases ho : hourlyAt row.key db.hourly with
      | none =>
        rw [if_pos (new.mpr ho)]
        simpa [ho] using exact
      | some old =>
        have notNew : row.key ∉ newKeys db (aggregateRawBatch f cutoff now batchSize db).2 := by
          rw [new, ho]
          exact Option.some_ne_none old
        rw [if_neg notNew]
        simpa [ho] using exact

end Balanced
end HostMonitoring.Retention
