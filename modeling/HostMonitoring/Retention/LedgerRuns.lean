import HostMonitoring.Retention.Ledger
import HostMonitoring.Store.Changes

namespace HostMonitoring.Retention

open HostMonitoring.Framework
open HostMonitoring.Framework.Tx
open HostMonitoring.Store

/-- What storing reports can do to the rows: new unmarked raw ones, and no loss. -/
structure Grown (db db' : Db) : Prop where
  noMerge : NoMerge db db'
  kept : ∀ r ∈ db.reports, ∃ r' ∈ db'.reports, r'.reportId = r.reportId
  hourly : db'.hourly = db.hourly

theorem stores_grown (op : Op) (h : op.Stores) (db : Db) : Grown db (op.exec db).2 := by
  have start : Grown db db := ⟨.refl db, fun r hr => ⟨r, hr, rfl⟩, rfl⟩
  refine stores_keeps op h (fun _ => Grown db) ?_ [] db start
  intro _ mid db' write receivedAt hostId reportId host inserted _ grown _ acc
  refine ⟨⟨fun r' hr' => ?_, fun row hr => ?_⟩, fun r hr => ?_, acc.hourly.trans grown.hourly⟩
  · obtain rfl | ⟨r₀, hr₀, rfl | ⟨_, rfl⟩⟩ := acc.row_origin r' hr'
    · refine Or.inr ⟨fun r hr he => ?_, rfl⟩
      obtain ⟨r₁, hr₁, hid⟩ := grown.kept r hr
      exact acc.fresh_report r₁ hr₁ (hid.trans he)
    · exact grown.noMerge.reports r' hr₀
    · exact grown.noMerge.reports r₀ hr₀
  · rw [acc.hourly] at hr
    exact grown.noMerge.hourly row hr
  · obtain ⟨r₁, hr₁, hid⟩ := grown.kept r hr
    obtain ⟨r₂, hr₂, hid'⟩ := acc.keeps_id r₁ hr₁
    exact ⟨r₂, hr₂, hid'.trans hid⟩

/-- The calls about invites, pairings and names leave reports and hourly rows alone. -/
def Administers : Op → Prop
  | .createInvite _ _ _ _ _ _ _ _ _ => True
  | .cancelInvite _ _ _ _ _ => True
  | .createPairing _ _ _ _ _ => True
  | .activate _ _ _ _ _ _ _ => True
  | .updateRemark _ _ _ _ _ => True
  | _ => False

theorem administers_samples (op : Op) (h : Administers op) (db : Db) :
    (op.exec db).2.reports = db.reports ∧ (op.exec db).2.hourly = db.hourly := by
  by_cases he : op.Enrolls
  · exact (enrolls_frame op he db).2
  cases op with
  | activate f requestId activationHash actor credentialId now auditedAt =>
    obtain ⟨he, _⟩ | ⟨_, _, _, act⟩ := activate_cases f requestId activationHash actor
      credentialId now auditedAt db _ _ Prod.mk.eta.symm
    · exact ⟨(congrArg Db.reports he :), (congrArg Db.hourly he :)⟩
    · exact ⟨act.reports, act.hourly⟩
  | updateRemark f hostId remark actor auditedAt =>
    obtain ⟨he, _⟩ | ⟨_, _, he⟩ := updateRemark_cases f hostId remark actor auditedAt db _ _
      Prod.mk.eta.symm
    · exact ⟨(congrArg Db.reports he :), (congrArg Db.hourly he :)⟩
    · exact ⟨(congrArg Db.reports he :), (congrArg Db.hourly he :)⟩
  | createInvite => exact absurd trivial he
  | cancelInvite => exact absurd trivial he
  | createPairing => exact absurd trivial he
  | _ => exact absurd h id

theorem mem_of_deleteAggregatedRawBatch (f : Faults) (batchSize : Nat) (db : Db) :
    (∀ r ∈ (deleteAggregatedRawBatch f batchSize db).2.reports, r ∈ db.reports) ∧
    (deleteAggregatedRawBatch f batchSize db).2.hourly = db.hourly ∧
    ∀ r ∈ db.reports, r ∉ (deleteAggregatedRawBatch f batchSize db).2.reports →
      r.aggregatedAt.isSome = true := by
  obtain he | he := deleteAggregatedRawBatch_cases f batchSize db _ _ Prod.mk.eta.symm
  · rw [he]
    exact ⟨fun _ => id, rfl, fun r hr hn => absurd hr hn⟩
  · rw [he]
    refine ⟨fun r hr => ((Table.mem_delete _ _ _).mp hr).1, rfl, fun r hr hn => ?_⟩
    have victim : rawVictim batchSize db r = true := by
      by_contra hv
      exact hn ((Table.mem_delete _ _ _).mpr ⟨hr, Bool.eq_false_iff.mpr hv⟩)
    simp only [rawVictim, Bool.and_eq_true, List.any_eq_true, decide_eq_true_eq] at victim
    obtain ⟨⟨v, hv, hid⟩, _⟩ := victim
    obtain ⟨hm, hp⟩ := Table.mem_of_mem_select _ _ _ _ _ hv
    rw [db.reports.eq_of_clash v r hm hr hid] at hp
    simp only [Bool.and_eq_true] at hp
    exact hp.1

theorem mem_of_deleteExpiredAggregateBatch (f : Faults) (cutoff : DateTime) (batchSize : Nat)
    (db : Db) : (deleteExpiredAggregateBatch f cutoff batchSize db).2.reports = db.reports ∧
      ∀ row ∈ (deleteExpiredAggregateBatch f cutoff batchSize db).2.hourly, row ∈ db.hourly := by
  obtain he | he := deleteExpiredAggregateBatch_cases f cutoff batchSize db _ _ Prod.mk.eta.symm
  · rw [he]
    exact ⟨rfl, fun _ => id⟩
  · rw [he]
    exact ⟨rfl, fun row hr => ((Table.mem_delete _ _ _).mp hr).1⟩

theorem mem_of_deleteHost (f : Faults) (hostId : Uuid) (actor : String) (auditedAt : DateTime)
    (db : Db) : (∀ r ∈ (deleteHost f hostId actor auditedAt db).2.reports, r ∈ db.reports) ∧
      (∀ row ∈ (deleteHost f hostId actor auditedAt db).2.hourly, row ∈ db.hourly) ∧
      ∀ r ∈ db.reports, r ∉ (deleteHost f hostId actor auditedAt db).2.reports →
        r.hostId = hostId := by
  obtain ⟨he, _⟩ | ⟨_, _, he⟩ := deleteHost_cases f hostId actor auditedAt db _ _ Prod.mk.eta.symm
  · rw [he]
    exact ⟨fun _ => id, fun _ => id, fun r hr hn => absurd hr hn⟩
  · rw [he]
    refine ⟨fun r hr => ((Table.mem_delete _ _ _).mp hr).1,
      fun row hr => ((Table.mem_delete _ _ _).mp hr).1, fun r hr hn => ?_⟩
    by_contra hne
    exact hn ((Table.mem_delete _ _ _).mpr ⟨hr, decide_eq_false hne⟩)

/-- A call that neither stores nor merges brings no raw and no hourly row. -/
theorem exec_subset (op : Op) (db : Db) (hs : ¬op.Stores)
    (h : ∀ f cutoff now batchSize, op ≠ .aggregateRawBatch f cutoff now batchSize) :
    (∀ r ∈ (op.exec db).2.reports, r ∈ db.reports) ∧
      ∀ row ∈ (op.exec db).2.hourly, row ∈ db.hourly := by
  by_cases ha : Administers op
  · obtain ⟨reports, hourly⟩ := administers_samples op ha db
    exact ⟨fun r hr => reports ▸ hr, fun row hr => hourly ▸ hr⟩
  · cases op with
    | aggregateRawBatch f cutoff now batchSize => exact absurd rfl (h f cutoff now batchSize)
    | deleteAggregatedRawBatch f batchSize =>
      obtain ⟨reports, hourly, _⟩ := mem_of_deleteAggregatedRawBatch f batchSize db
      exact ⟨reports, fun row hr => hourly ▸ hr⟩
    | deleteExpiredAggregateBatch f cutoff batchSize =>
      obtain ⟨reports, hourly⟩ := mem_of_deleteExpiredAggregateBatch f cutoff batchSize db
      exact ⟨fun r hr => reports ▸ hr, hourly⟩
    | deleteHost f hostId actor auditedAt =>
      obtain ⟨reports, hourly, _⟩ := mem_of_deleteHost f hostId actor auditedAt db
      exact ⟨reports, hourly⟩
    | storeReport f write receivedAt => exact absurd trivial hs
    | storeReportBatch boundary reports => exact absurd trivial hs
    | _ => exact absurd trivial ha

/-- A call other than a batch loses no hourly row, unless it deletes it. -/
theorem exec_kept (op : Op) (db : Db)
    (h : ∀ f cutoff now batchSize, op ≠ .aggregateRawBatch f cutoff now batchSize)
    (key : Uuid × DateTime) (there : (hourlyAt key db.hourly).isSome = true) :
    (hourlyAt key (op.exec db).2.hourly).isSome = true ∨ key ∈ deletedKeys op db := by
  have deleting (gone : ¬(hourlyAt key (op.exec db).2.hourly).isSome = true) :
      key ∈ newKeys (op.exec db).2 db :=
    (mem_newKeys_key _ _ key).mpr ⟨there, by simpa using gone⟩
  have unchanged (same : (op.exec db).2.hourly = db.hourly) :
      (hourlyAt key (op.exec db).2.hourly).isSome = true := by
    rw [same]
    exact there
  by_cases ha : Administers op
  · exact Or.inl (unchanged (administers_samples op ha db).2)
  · by_cases hs : op.Stores
    · exact Or.inl (unchanged (stores_grown op hs db).hourly)
    · cases op with
      | aggregateRawBatch f cutoff now batchSize => exact absurd rfl (h f cutoff now batchSize)
      | deleteAggregatedRawBatch f batchSize =>
        exact Or.inl (unchanged (mem_of_deleteAggregatedRawBatch f batchSize db).2.1)
      | deleteExpiredAggregateBatch f cutoff batchSize => exact or_iff_not_imp_left.mpr deleting
      | deleteHost f hostId actor auditedAt => exact or_iff_not_imp_left.mpr deleting
      | storeReport f write receivedAt => exact absurd trivial hs
      | storeReportBatch boundary reports => exact absurd trivial hs
      | _ => exact absurd trivial ha

theorem merges_nil (op : Op) (db : Db)
    (h : ∀ f cutoff now batchSize, op ≠ .aggregateRawBatch f cutoff now batchSize) :
    merges op db = [] := by
  cases op with
  | aggregateRawBatch f cutoff now batchSize => exact absurd rfl (h f cutoff now batchSize)
  | _ => rfl

/-- Every call leaves a balanced history balanced. -/
theorem Balanced.step {history : List Event} {db : Db} (b : Balanced history db) (op : Op) :
    Balanced (history ++ events op db) (op.exec db).2 := by
  by_cases h : ∀ f cutoff now batchSize, op ≠ .aggregateRawBatch f cutoff now batchSize
  · refine b.idle (merges_nil op db h) ?_ (exec_kept op db h)
    by_cases hs : op.Stores
    · exact (stores_grown op hs db).noMerge
    · obtain ⟨reports, hourly⟩ := exec_subset op db hs h
      exact .of_subset reports hourly
  · push Not at h
    obtain ⟨f, cutoff, now, batchSize, rfl⟩ := h
    exact b.aggregated f cutoff now batchSize

theorem balanced_after (ops : List Op) : Balanced (ledger ops) (store.after ops) := by
  refine store.observed_invariant events (fun _ => True) (fun _ => Balanced) (fun _ _ _ => trivial)
    ⟨fun r hr => ?_, fun key some => absurd rfl some, fun row hr => ?_⟩ (fun _ _ op db _ b => b.step op) ops trivial
  · exact absurd hr (Table.not_mem_empty r)
  · exact absurd hr (Table.not_mem_empty row)

/-- A raw row leaves the store only with its host or after it was merged. -/
theorem lost_row (op : Op) (db : Db) (r : MetricReport) (hr : r ∈ db.reports)
    (lost : ∀ r' ∈ (op.exec db).2.reports, r'.reportId ≠ r.reportId) :
    r.aggregatedAt.isSome = true ∨ ∃ f actor auditedAt, op = .deleteHost f r.hostId actor auditedAt := by
  have kept (h : r ∈ (op.exec db).2.reports) : False := lost r h rfl
  by_cases ha : Administers op
  · have same := (administers_samples op ha db).1
    exact absurd (same.symm ▸ hr) kept
  · by_cases hs : op.Stores
    · obtain ⟨r', hr', hid⟩ := (stores_grown op hs db).kept r hr
      exact absurd hid (lost r' hr')
    · cases op with
      | aggregateRawBatch f cutoff now batchSize =>
        exfalso
        obtain ⟨he, _⟩ | ⟨rows, hourly, _, _, _, _, he⟩ :=
          aggregateRawBatch_cases f cutoff now batchSize db _ _ Prod.mk.eta.symm
        · refine kept ?_
          change r ∈ (aggregateRawBatch f cutoff now batchSize db).2.reports
          rw [he]
          exact hr
        · change ∀ r' ∈ (aggregateRawBatch f cutoff now batchSize db).2.reports, _ at lost
          rw [he] at lost
          cases hm : toMark (rows.map MetricReport.reportId) r with
          | true => exact lost _ ((mem_markAggregated _ _ _ _).mpr (Or.inl ⟨r, hr, hm, rfl⟩)) rfl
          | false => exact lost r ((mem_markAggregated _ _ _ _).mpr (Or.inr ⟨hr, hm⟩)) rfl
      | deleteAggregatedRawBatch f batchSize =>
        exact Or.inl ((mem_of_deleteAggregatedRawBatch f batchSize db).2.2 r hr kept)
      | deleteExpiredAggregateBatch f cutoff batchSize =>
        have same := (mem_of_deleteExpiredAggregateBatch f cutoff batchSize db).1
        exact absurd (same.symm ▸ hr) kept
      | deleteHost f hostId actor auditedAt =>
        have hid := (mem_of_deleteHost f hostId actor auditedAt db).2.2 r hr kept
        exact Or.inr ⟨f, actor, auditedAt, by rw [hid]⟩
      | storeReport f write receivedAt => exact absurd trivial hs
      | storeReportBatch boundary reports => exact absurd trivial hs
      | _ => exact absurd trivial ha

/-- In every run a stored raw row was merged once if it is marked and never
otherwise, no row is lost before it was merged, and a host and hour has its
hourly row whenever a row was merged into it since the last deletion. The row
gives the exact statistics of just these, those merged since it was created. -/
theorem retention_exact (ops : List Op) :
    (∀ r ∈ (store.after ops).reports,
      mergesOf r.reportId (ledger ops) = if r.aggregatedAt.isSome then 1 else 0) ∧
    (∀ op : Op, ∀ r ∈ (store.after ops).reports,
      (∀ r' ∈ (op.exec (store.after ops)).2.reports, r'.reportId ≠ r.reportId) →
      mergesOf r.reportId (ledger ops) = 1 ∨
        ∃ f actor auditedAt, op = .deleteHost f r.hostId actor auditedAt) ∧
    (∀ key, mergedInto key (ledger ops) ≠ [] ↔ (hourlyAt key (store.after ops).hourly).isSome = true) ∧
    ∀ row ∈ (store.after ops).hourly,
      Exact row.toHourlyAggregate (mergedInto row.key (ledger ops)) ∧
      ∀ i, ((row.metrics i).min = none ↔ (row.metrics i).count = 0) ∧
        ((row.metrics i).max = none ↔ (row.metrics i).count = 0) ∧
        ((row.metrics i).avg = none ↔ (row.metrics i).count = 0) := by
  have b := balanced_after ops
  refine ⟨b.marks, fun op r hr lost => ?_, fun key => ⟨b.present key, fun there empty => ?_⟩,
    fun row hr => ⟨b.hourly row hr, (b.hourly row hr).null_iff⟩⟩
  · obtain marked | deletes := lost_row op (store.after ops) r hr lost
    · left
      rw [b.marks r hr, if_pos marked]
    · exact Or.inr deletes
  · obtain ⟨row, found⟩ := Option.isSome_iff_exists.mp there
    obtain ⟨hr, hkey⟩ := (hourlyAt_eq_some _ _ _).mp found
    have exact := b.hourly row hr
    rw [hkey, empty] at exact
    obtain ⟨⟨r, hm, _⟩, _⟩ := exact.interval_start
    exact absurd hm List.not_mem_nil

/-- The older of the laptop's two reports has been merged into the hour of noon. -/
def laptopMerged : List Op := laptopReported ++
  [.aggregateRawBatch .none (noon.plusSeconds 86400) (noon.plusSeconds 691200) 256]

theorem retention_exact_laptop : ∃ row ∈ (store.after laptopMerged).hourly,
    row.key = (⟨2⟩, noon) ∧ row.sampleCount = 1 ∧
    (mergedInto (⟨2⟩, noon) (ledger laptopMerged)).map MetricReport.reportId = [⟨5⟩] ∧
    Exact row.toHourlyAggregate (mergedInto (⟨2⟩, noon) (ledger laptopMerged)) := by
  have merged : (mergedInto (⟨2⟩, noon) (ledger laptopMerged)).map MetricReport.reportId = [⟨5⟩] := by
    decide +kernel
  have some : mergedInto (⟨2⟩, noon) (ledger laptopMerged) ≠ [] := by
    intro empty
    rw [empty] at merged
    exact absurd merged (by decide)
  obtain ⟨_, _, present, exact⟩ := retention_exact laptopMerged
  obtain ⟨row, found⟩ := Option.isSome_iff_exists.mp ((present (⟨2⟩, noon)).mp some)
  obtain ⟨hr, hkey⟩ := (hourlyAt_eq_some _ _ _).mp found
  have statistics := (exact row hr).1
  rw [hkey] at statistics
  have count : row.sampleCount = 1 := by
    have size := congrArg List.length merged
    rw [List.length_map] at size
    rw [statistics.sample_count, size]
    rfl
  exact ⟨row, hr, hkey, count, merged, statistics⟩

end HostMonitoring.Retention
