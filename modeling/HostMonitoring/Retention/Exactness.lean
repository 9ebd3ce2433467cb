import HostMonitoring.Framework.Stats
import HostMonitoring.Retention.AggregateCases
import Mathlib.Order.Bounds.Basic

namespace HostMonitoring.Retention

open HostMonitoring.Framework
open HostMonitoring.Framework.Tx
open HostMonitoring.Store

/-- Exact statistics as the four columns of a metric. -/
def scalarOf (s : Stats ℚ) : ScalarAggregate := ⟨s.count, s.min, s.max, s.mean⟩

theorem recordScalar_scalarOf (s : Stats ℚ) (x : ℚ) :
    recordScalar (scalarOf s) (some x) = scalarOf (s.push x) := by
  simp [recordScalar, scalarOf, Stats.push]

theorem mergeScalar_scalarOf (s t : Stats ℚ) :
    mergeScalar (scalarOf s) (scalarOf t) = scalarOf (s.merge t) := by
  unfold mergeScalar Stats.merge scalarOf
  by_cases hs : s.count = 0
  · simp [hs]
  · by_cases ht : t.count = 0
    · simp [hs, ht]
    · have hs' : ¬(s.count : Int) = 0 := by simpa using hs
      have ht' : ¬(t.count : Int) = 0 := by simpa using ht
      rw [if_neg hs, if_neg ht]
      simp only [if_neg hs', if_neg ht', Int.cast_natCast, Nat.cast_add]

/-- The values a metric has in some rows. -/
def samples (i : Fin 9) (rows : List MetricReport) : List ℚ :=
  rows.filterMap fun r => values r.metrics i

/-- An hourly row that describes exactly these raw rows. -/
structure Exact (a : HourlyAggregate) (rows : List MetricReport) : Prop where
  sample_count : a.sampleCount = rows.length
  interval_start : IsLeast {t | ∃ r ∈ rows, r.collectedAt = t} a.intervalStart
  interval_end : IsGreatest {t | ∃ r ∈ rows, r.collectedAt = t} a.intervalEnd
  metrics : ∀ i, a.metrics i = scalarOf (.of (samples i rows))
  key : ∀ r ∈ rows, hourKey r = a.key

namespace Exact

variable {a b : HourlyAggregate} {rows rows' : List MetricReport}

/-- The minimum, the maximum and the average are null together, when there is no value. -/
theorem null_iff (h : Exact a rows) (i : Fin 9) :
    ((a.metrics i).min = none ↔ (a.metrics i).count = 0) ∧
    ((a.metrics i).max = none ↔ (a.metrics i).count = 0) ∧
    ((a.metrics i).avg = none ↔ (a.metrics i).count = 0) := by
  rw [h.metrics i]
  cases hx : samples i rows with
  | nil => simp [scalarOf, Stats.of]
  | cons x xs =>
    obtain ⟨lo, hi, hmin, hmax, hmean⟩ := Stats.of_cons x xs
    have count : ((scalarOf (.of (x :: xs))).count = 0) = False := by
      simp only [scalarOf, Stats.of, List.length_cons, eq_iff_iff, iff_false]
      omega
    rw [count]
    simp [scalarOf, Stats.of, hmin, hmax]

theorem single (row : MetricReport) :
    Exact (newAggregate row row.collectedAt.hourStart) [row] where
  sample_count := rfl
  interval_start := by simp [newAggregate, record, IsLeast, lowerBounds]
  interval_end := by simp [newAggregate, record, IsGreatest, upperBounds]
  metrics i := by
    have empty : ({} : ScalarAggregate) = scalarOf (.of []) := by simp [scalarOf, Stats.of]
    change recordScalar {} (values row.metrics i) = _
    cases hv : values row.metrics i with
    | none => simp [samples, hv, recordScalar, ← empty]
    | some x =>
      rw [empty, recordScalar_scalarOf, ← Stats.of_concat]
      simp [samples, hv]
  key r hr := by
    rw [List.mem_singleton.mp hr]
    rfl

theorem concat (h : Exact a rows) (row : MetricReport) (hk : hourKey row = a.key) :
    Exact (record a row) (rows ++ [row]) where
  sample_count := by
    have count := h.sample_count
    simp [record, count]
  interval_start := by
    have least := h.interval_start.insert row.collectedAt
    have times : {t | ∃ r ∈ rows ++ [row], r.collectedAt = t} =
        insert row.collectedAt {t | ∃ r ∈ rows, r.collectedAt = t} := by
      ext t
      simp [or_and_right, exists_or, or_comm, eq_comm]
    rw [times]
    simpa [record, min_comm] using least
  interval_end := by
    have greatest := h.interval_end.insert row.collectedAt
    have times : {t | ∃ r ∈ rows ++ [row], r.collectedAt = t} =
        insert row.collectedAt {t | ∃ r ∈ rows, r.collectedAt = t} := by
      ext t
      simp [or_and_right, exists_or, or_comm, eq_comm]
    rw [times]
    simpa [record, max_comm] using greatest
  metrics i := by
    have before := h.metrics i
    change recordScalar (a.metrics i) (values row.metrics i) = _
    rw [before]
    cases hv : values row.metrics i with
    | none => simp [samples, hv, recordScalar]
    | some x =>
      rw [recordScalar_scalarOf, ← Stats.of_concat]
      simp [samples, hv]
  key r hr := by
    obtain hr | hr := List.mem_append.mp hr
    · exact h.key r hr
    · rw [List.mem_singleton.mp hr]
      exact hk

/-- Rows of one hour are compared by their texts as by their times. -/
theorem same_hour (h : Exact a rows) (h' : Exact b rows') (hk : a.key = b.key) :
    DateTime.sqlMin a.intervalStart b.intervalStart = min a.intervalStart b.intervalStart ∧
    DateTime.sqlMax a.intervalEnd b.intervalEnd = max a.intervalEnd b.intervalEnd := by
  obtain ⟨⟨r, hr, hrt⟩, _⟩ := h.interval_start
  obtain ⟨⟨s, hs, hst⟩, _⟩ := h'.interval_start
  obtain ⟨⟨r', hr', hrt'⟩, _⟩ := h.interval_end
  obtain ⟨⟨s', hs', hst'⟩, _⟩ := h'.interval_end
  have hour : ∀ x ∈ rows, ∀ y ∈ rows', x.collectedAt.secs / 3600 = y.collectedAt.secs / 3600 := by
    intro x hx y hy
    have keys : hourKey x = hourKey y := (h.key x hx).trans (hk.trans (h'.key y hy).symm)
    exact DateTime.hour_of_hourStart _ _ (congrArg Prod.snd keys)
  rw [← hrt, ← hst, ← hrt', ← hst']
  exact ⟨DateTime.sqlMin_eq _ _ (hour r hr s hs), DateTime.sqlMax_eq _ _ (hour r' hr' s' hs')⟩

/-- The upsert of an existing row describes the rows of both. -/
theorem merge (row row' : HourlyRow) (h : Exact row.toHourlyAggregate rows)
    (h' : Exact row'.toHourlyAggregate rows') (hk : row.key = row'.key) :
    Exact (mergeRow row row').toHourlyAggregate (rows ++ rows') where
  sample_count := by
    have count := h.sample_count
    have count' := h'.sample_count
    simp [mergeRow, count, count']
  interval_start := by
    have least := h.interval_start.union h'.interval_start
    have times : {t | ∃ r ∈ rows ++ rows', r.collectedAt = t} =
        {t | ∃ r ∈ rows, r.collectedAt = t} ∪ {t | ∃ r ∈ rows', r.collectedAt = t} := by
      ext t
      simp [or_and_right, exists_or]
    rw [times]
    simpa only [mergeRow, (h.same_hour h' hk).1] using least
  interval_end := by
    have greatest := h.interval_end.union h'.interval_end
    have times : {t | ∃ r ∈ rows ++ rows', r.collectedAt = t} =
        {t | ∃ r ∈ rows, r.collectedAt = t} ∪ {t | ∃ r ∈ rows', r.collectedAt = t} := by
      ext t
      simp [or_and_right, exists_or]
    rw [times]
    simpa only [mergeRow, (h.same_hour h' hk).2] using greatest
  metrics i := by
    change mergeScalar (row.metrics i) (row'.metrics i) = _
    rw [h.metrics i, h'.metrics i, mergeScalar_scalarOf, ← Stats.of_append, samples, samples, samples,
      List.filterMap_append]
  key r hr := by
    obtain hr | hr := List.mem_append.mp hr
    · exact h.key r hr
    · exact (h'.key r hr).trans hk.symm

end Exact

/-- The rows of a batch that belong to one host and hour. -/
def rowsOf (key : Uuid × DateTime) (rows : List MetricReport) : List MetricReport :=
  rows.filter fun r => decide (hourKey r = key)

theorem bucketsOf_concat (rows : List MetricReport) (row : MetricReport) :
    bucketsOf (rows ++ [row]) = recordIn (bucketsOf rows) row := by
  simp [bucketsOf]

/-- Every bucket describes the rows of its key, and a key without a bucket has none. -/
theorem bucketsOf_exact (rows : List MetricReport) (key : Uuid × DateTime) :
    ((bucketsOf rows).get? key = none → rowsOf key rows = []) ∧
    ∀ a, (bucketsOf rows).get? key = some a → a.key = key ∧ Exact a (rowsOf key rows) := by
  induction rows using List.reverseRecOn with
  | nil => simp [bucketsOf, rowsOf]
  | append_singleton rows row ih =>
    obtain ⟨none_case, some_case⟩ := ih
    rw [bucketsOf_concat, recordIn, AssocMap.get?_insert]
    by_cases hk : key = hourKey row
    · subst hk
      have grown : rowsOf (hourKey row) (rows ++ [row]) = rowsOf (hourKey row) rows ++ [row] := by
        simp [rowsOf]
      rw [if_pos rfl, grown]
      refine ⟨fun h => (by cases h), fun a ha => ?_⟩
      cases hb : (bucketsOf rows).get? (hourKey row) with
      | none =>
        rw [hb] at ha
        cases ha
        rw [none_case hb]
        exact ⟨rfl, Exact.single row⟩
      | some b =>
        rw [hb] at ha
        cases ha
        obtain ⟨hkey, exact⟩ := some_case b hb
        exact ⟨hkey, exact.concat row hkey.symm⟩
    · have other : rowsOf key (rows ++ [row]) = rowsOf key rows := by
        have hne : ¬hourKey row = key := fun he => hk he.symm
        simp [rowsOf, hne]
      rw [if_neg hk, other]
      exact ⟨none_case, some_case⟩

theorem mem_bucketValues (rows : List MetricReport) (a : HourlyAggregate) :
    a ∈ bucketValues (bucketsOf rows) ↔ (bucketsOf rows).get? a.key = some a := by
  unfold bucketValues
  rw [List.mem_map]
  constructor
  · rintro ⟨⟨key, a'⟩, hm, rfl⟩
    have found := ((bucketsOf rows).get?_eq_some_iff key a').mpr (List.mem_mergeSort.mp hm)
    rw [((bucketsOf_exact rows key).2 a' found).1]
    exact found
  · intro h
    have hm := ((bucketsOf rows).get?_eq_some_iff a.key a).mp h
    exact ⟨(a.key, a), List.mem_mergeSort.mpr hm, rfl⟩

theorem bucketValues_distinct (rows : List MetricReport) :
    ((bucketValues (bucketsOf rows)).map HourlyAggregate.key).Nodup := by
  have keys : (bucketValues (bucketsOf rows)).map HourlyAggregate.key =
      ((bucketsOf rows).entries.mergeSort keyLe).map Prod.fst := by
    unfold bucketValues
    rw [List.map_map]
    refine List.map_congr_left fun e he => ?_
    have found := ((bucketsOf rows).get?_eq_some_iff e.1 e.2).mpr (List.mem_mergeSort.mp he)
    exact ((bucketsOf_exact rows e.1).2 e.2 found).1
  rw [keys]
  exact (((List.mergeSort_perm _ keyLe).map Prod.fst).nodup_iff).mpr (bucketsOf rows).nodup

/-- After a batch's upserts every host and hour that had a row, or rows in the batch, has one. -/
theorem upsertAll_present (fault : Nat → Option StoreError) (now : DateTime)
    (rows : List MetricReport) (i : Nat) (u : Unit) (db db' : Db)
    (h : (upsertAll fault now (bucketValues (bucketsOf rows)) i).run db = (.ok u, db'))
    (key : Uuid × DateTime)
    (had : (hourlyAt key db.hourly).isSome = true ∨ rowsOf key rows ≠ []) :
    (hourlyAt key db'.hourly).isSome = true := by
  obtain ⟨each, others⟩ := upsertAll_ok fault now _ i u db db' (bucketValues_distinct rows) h
  cases hb : (bucketsOf rows).get? key with
  | none =>
    have untouched : ∀ a ∈ bucketValues (bucketsOf rows), a.key ≠ key := by
      intro a ha he
      have bucket := (mem_bucketValues rows a).mp ha
      rw [he, hb] at bucket
      cases bucket
    rw [others key untouched]
    exact had.resolve_right (not_not_intro ((bucketsOf_exact rows key).1 hb))
  | some a =>
    have hkey := ((bucketsOf_exact rows key).2 a hb).1
    have merged := each a ((mem_bucketValues rows a).mpr (hkey.symm ▸ hb))
    rw [hkey] at merged
    rw [merged]
    rfl

/-- Upserting a batch's buckets turns rows that describe what was merged before
into rows that describe what is merged now. -/
theorem upsertAll_exact (fault : Nat → Option StoreError) (now : DateTime)
    (rows : List MetricReport) (i : Nat) (u : Unit) (db db' : Db)
    (before : Uuid × DateTime → List MetricReport)
    (exact : ∀ row ∈ db.hourly, Exact row.toHourlyAggregate (before row.key))
    (h : (upsertAll fault now (bucketValues (bucketsOf rows)) i).run db = (.ok u, db')) :
    ∀ row ∈ db'.hourly, Exact row.toHourlyAggregate
      ((if (hourlyAt row.key db.hourly).isSome then before row.key else []) ++
        rowsOf row.key rows) := by
  obtain ⟨each, others⟩ := upsertAll_ok fault now _ i u db db' (bucketValues_distinct rows) h
  intro row hr
  have found : hourlyAt row.key db'.hourly = some row := (hourlyAt_eq_some _ _ _).mpr ⟨hr, rfl⟩
  generalize row.key = key at found ⊢
  cases hb : (bucketsOf rows).get? key with
  | none =>
    have untouched : ∀ a ∈ bucketValues (bucketsOf rows), a.key ≠ key := by
      intro a ha he
      have bucket := (mem_bucketValues rows a).mp ha
      rw [he, hb] at bucket
      cases bucket
    rw [others key untouched] at found
    obtain ⟨old, hkey⟩ := (hourlyAt_eq_some _ _ _).mp found
    rw [found, (bucketsOf_exact rows key).1 hb, ← hkey]
    simpa using exact row old
  | some a =>
    obtain ⟨hkey, fresh⟩ := (bucketsOf_exact rows key).2 a hb
    have merged := each a ((mem_bucketValues rows a).mpr (hkey.symm ▸ hb))
    rw [hkey, found] at merged
    cases ho : hourlyAt key db.hourly with
    | none =>
      rw [ho] at merged
      rw [Option.some.inj merged]
      simpa using fresh
    | some old =>
      rw [ho] at merged
      obtain ⟨hold, hok⟩ := (hourlyAt_eq_some _ _ _).mp ho
      have both := Exact.merge old { a with updatedAt := now } (exact old hold) fresh
        (hok.trans hkey.symm)
      rw [hok] at both
      rw [Option.some.inj merged]
      simpa using both

end HostMonitoring.Retention
