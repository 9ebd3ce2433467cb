import HostMonitoring.Retention.Aggregate

namespace HostMonitoring.Retention

open HostMonitoring.Framework
open HostMonitoring.Framework.Tx
open HostMonitoring.Store

theorem hourlyAt_eq_some (key : Uuid × DateTime) (hourly : Table HourlyRow) (row : HourlyRow) :
    hourlyAt key hourly = some row ↔ row ∈ hourly ∧ row.key = key := by
  constructor
  · intro h
    obtain ⟨hm, hk⟩ := Table.mem_of_find? _ _ _ h
    exact ⟨hm, of_decide_eq_true hk⟩
  · rintro ⟨hm, hk⟩
    refine hourly.find?_eq_some _ _ hm (decide_eq_true hk) ?_
    intro r hr hrk
    exact hourly.eq_of_clash r row hr hm ((of_decide_eq_true hrk).trans hk.symm)

theorem hourlyAt_insert (key : Uuid × DateTime) (hourly hourly' : Table HourlyRow) (row : HourlyRow)
    (h : hourly.insert? row = some hourly') :
    hourlyAt key hourly' = if key = row.key then some row else hourlyAt key hourly := by
  obtain ⟨fresh, rows⟩ := (hourly.insert?_eq_some hourly' row).mp h
  unfold hourlyAt Table.find?
  rw [rows, List.find?_append]
  by_cases hk : key = row.key
  · have absent : hourly.rows.find? (fun r => decide (r.key = key)) = none := by
      rw [List.find?_eq_none]
      intro r hr hrk
      exact fresh r hr ((of_decide_eq_true hrk).trans hk)
    subst hk
    rw [absent]
    simp
  · have other : ¬row.key = key := fun he => hk he.symm
    simp [hk, other]

theorem hourlyAt_mergeInto (key : Uuid × DateTime) (hourly : Table HourlyRow) (row : HourlyRow) :
    hourlyAt key (mergeInto row hourly) =
      if key = row.key then (hourlyAt key hourly).map (mergeRow · row) else hourlyAt key hourly := by
  unfold hourlyAt mergeInto Table.find? Table.modify Table.updated
  rw [List.find?_map]
  have sameKey : ((fun r : HourlyRow => decide (r.key = key)) ∘
      fun r => if decide (r.key = row.key) then mergeRow r row else r) =
      fun r => decide (r.key = key) := by
    funext r
    by_cases hr : r.key = row.key
    · simp only [Function.comp, hr, decide_true, if_true]
      change decide (r.key = key) = _
      rw [hr]
    · simp only [Function.comp, hr, decide_false, Bool.false_eq_true, if_false]
  rw [sameKey]
  cases hf : hourly.rows.find? fun r => decide (r.key = key) with
  | none => simp
  | some r =>
    have hrk : r.key = key := by simpa using List.find?_some hf
    by_cases hk : key = row.key
    · simp [hrk, hk]
    · simp [hrk, hk]

theorem upsertHourly_ok (aggregate : HourlyAggregate) (now : DateTime) (db db' : Db) (u : Unit)
    (h : upsertHourly aggregate now db = .ok (u, db')) :
    db' = { db with hourly := db'.hourly } ∧ ∀ key, hourlyAt key db'.hourly =
      if key = aggregate.key then
        some ((hourlyAt key db.hourly).elim { aggregate with updatedAt := now }
          (mergeRow · { aggregate with updatedAt := now }))
      else hourlyAt key db.hourly := by
  unfold upsertHourly at h
  have hc : HourlyRow.admissible { aggregate with updatedAt := now } ≠ false := by
    intro hc
    simp [hc] at h
  simp only [if_neg hc] at h
  cases hf : hourlyAt aggregate.key db.hourly with
  | some current =>
    rw [hf] at h
    simp only at h
    split_ifs at h with hm
    simp only [Except.ok.injEq, Prod.mk.injEq] at h
    obtain ⟨_, rfl⟩ := h
    refine ⟨rfl, fun key => ?_⟩
    rw [hourlyAt_mergeInto]
    by_cases hk : key = aggregate.key
    · subst hk
      rw [if_pos rfl, if_pos rfl, hf]
      rfl
    · rw [if_neg hk, if_neg hk]
  | none =>
    rw [hf] at h
    simp only at h
    split_ifs at h with hfk
    obtain ⟨hourly, hi, rfl⟩ := (orViolation_ok _ _ _ _).mp h
    refine ⟨rfl, fun key => ?_⟩
    rw [hourlyAt_insert key _ _ _ hi]
    by_cases hk : key = aggregate.key
    · subst hk
      rw [if_pos rfl, if_pos rfl, hf]
      rfl
    · rw [if_neg hk, if_neg hk]

theorem upsertAll_hourly (fault : Nat → Option StoreError) (now : DateTime)
    (aggregates : List HourlyAggregate) (i : Nat) (u : Unit) (db db' : Db)
    (h : (upsertAll fault now aggregates i).run db = (.ok u, db')) :
    db' = { db with hourly := db'.hourly } := by
  induction aggregates generalizing i db with
  | nil =>
    rw [upsertAll, pure_ok] at h
    rw [h.2]
  | cons a aggregates ih =>
    rw [upsertAll, bind_ok] at h
    obtain ⟨_, db₁, ha, h⟩ := h
    rw [execute_ok] at ha
    rw [ih (i + 1) db₁ h, (upsertHourly_ok _ _ _ _ _ ha.2).1]

/-- Upserts of distinct keys each merge into the row there was, and touch no other. -/
theorem upsertAll_ok (fault : Nat → Option StoreError) (now : DateTime)
    (aggregates : List HourlyAggregate) (i : Nat) (u : Unit) (db db' : Db)
    (distinct : (aggregates.map HourlyAggregate.key).Nodup)
    (h : (upsertAll fault now aggregates i).run db = (.ok u, db')) :
    (∀ a ∈ aggregates, hourlyAt a.key db'.hourly =
      some ((hourlyAt a.key db.hourly).elim { a with updatedAt := now }
        (mergeRow · { a with updatedAt := now }))) ∧
    ∀ key, (∀ a ∈ aggregates, a.key ≠ key) → hourlyAt key db'.hourly = hourlyAt key db.hourly := by
  induction aggregates generalizing i db with
  | nil =>
    rw [upsertAll, pure_ok] at h
    rw [h.2]
    exact ⟨by simp, fun _ _ => rfl⟩
  | cons a aggregates ih =>
    rw [upsertAll, bind_ok] at h
    obtain ⟨_, db₁, ha, h⟩ := h
    rw [execute_ok] at ha
    rw [List.map_cons, List.nodup_cons] at distinct
    obtain ⟨_, here⟩ := upsertHourly_ok _ _ _ _ _ ha.2
    obtain ⟨each, others⟩ := ih (i + 1) db₁ distinct.2 h
    have absent : ∀ b ∈ aggregates, b.key ≠ a.key := by
      intro b hb he
      exact distinct.1 (List.mem_map.mpr ⟨b, hb, he⟩)
    refine ⟨?_, ?_⟩
    · intro b hb
      obtain rfl | hb := List.mem_cons.mp hb
      · rw [others b.key absent, here, if_pos rfl]
      · rw [each b hb, here, if_neg (absent b hb)]
    · intro key hkey
      rw [others key fun b hb => hkey b (List.mem_cons_of_mem _ hb), here,
        if_neg fun he => hkey a List.mem_cons_self he.symm]

theorem aggregateRawBatch_cases (f : Faults) (cutoff now : DateTime) (batchSize : Nat) (db db' : Db)
    (r : Except StoreError Nat) (h : aggregateRawBatch f cutoff now batchSize db = (r, db')) :
    (db' = db ∧ ∀ n, r = .ok n → n = 0) ∨
    ∃ reports hourly, reports = pendingReports cutoff batchSize db ∧ reports ≠ [] ∧
      r = .ok reports.length ∧
      (∃ i u db₁, (upsertAll f.statement now (bucketValues (bucketsOf reports)) i).run db =
        (.ok u, db₁) ∧ db₁.hourly = hourly) ∧
      db' = { db with
        hourly
        reports := markAggregated now (reports.map MetricReport.reportId) db.reports } := by
  obtain ⟨⟨e, rfl⟩, rfl⟩ | ⟨⟨w, hb⟩, rfl⟩ | ⟨a, rfl, hb⟩ := transact_cases _ _ _ _ _ h
  · exact Or.inl ⟨rfl, by simp⟩
  · simp only [bind_ok, query_ok] at hb
    obtain ⟨reports, _, ⟨_, _, rfl⟩, hb⟩ := hb
    split_ifs at hb with he
    · rw [pure_ok] at hb
      cases hb.1
      exact Or.inl ⟨rfl, by simp [eq_comm]⟩
    · simp only [bind_ok] at hb
      obtain ⟨_, _, _, marked, _, _, hb⟩ := hb
      split_ifs at hb with hm
      · exact absurd hb (fail_ok _ _ _ _)
      · rw [pure_ok] at hb
        cases hb.1
  · simp only [bind_ok, query_ok] at hb
    obtain ⟨reports, _, ⟨_, hr, rfl⟩, hb⟩ := hb
    split_ifs at hb with he
    · rw [pure_ok] at hb
      cases hb.1
    · simp only [bind_ok, execute_ok, Except.ok.injEq, Prod.mk.injEq] at hb
      obtain ⟨u, db₁, hu, marked, _, ⟨_, _, rfl⟩, hb⟩ := hb
      split_ifs at hb with hm
      · exact absurd hb (fail_ok _ _ _ _)
      · rw [pure_ok] at hb
        obtain ⟨ha, rfl⟩ := hb
        cases ha
        refine Or.inr ⟨reports, db₁.hourly, hr, he, by rw [not_not.mp hm], ⟨1, u, db₁, hu, rfl⟩, ?_⟩
        rw [upsertAll_hourly _ _ _ _ _ _ _ hu]

theorem deleteAggregatedRawBatch_cases (f : Faults) (batchSize : Nat) (db db' : Db)
    (r : Except StoreError Nat) (h : deleteAggregatedRawBatch f batchSize db = (r, db')) :
    db' = db ∨ db' = { db with reports := db.reports.delete (rawVictim batchSize db) } := by
  obtain ⟨⟨e, rfl⟩, rfl⟩ | ⟨⟨w, hb⟩, rfl⟩ | ⟨a, rfl, hb⟩ := transact_cases _ _ _ _ _ h
  · exact Or.inl rfl
  · exact Or.inl rfl
  · right
    simp only [bind_ok, execute_ok, Except.ok.injEq, Prod.mk.injEq] at hb
    obtain ⟨deleted, _, ⟨_, _, rfl⟩, hb⟩ := hb
    split_ifs at hb with h0
    · rw [pure_ok] at hb
      cases hb.1
    · rw [pure_ok] at hb
      exact hb.2

theorem deleteExpiredAggregateBatch_cases (f : Faults) (cutoff : DateTime) (batchSize : Nat)
    (db db' : Db) (r : Except StoreError Nat)
    (h : deleteExpiredAggregateBatch f cutoff batchSize db = (r, db')) :
    db' = db ∨ db' = { db with hourly := db.hourly.delete (hourlyVictim cutoff batchSize db) } := by
  obtain ⟨⟨e, rfl⟩, rfl⟩ | ⟨⟨w, hb⟩, rfl⟩ | ⟨a, rfl, hb⟩ := transact_cases _ _ _ _ _ h
  · exact Or.inl rfl
  · exact Or.inl rfl
  · right
    simp only [bind_ok, execute_ok, Except.ok.injEq, Prod.mk.injEq] at hb
    obtain ⟨deleted, _, ⟨_, _, rfl⟩, hb⟩ := hb
    split_ifs at hb with h0
    · rw [pure_ok] at hb
      cases hb.1
    · rw [pure_ok] at hb
      exact hb.2

end HostMonitoring.Retention
