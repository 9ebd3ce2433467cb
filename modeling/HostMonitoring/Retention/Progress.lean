import HostMonitoring.Retention.Cycle
import HostMonitoring.Retention.LedgerRuns
import HostMonitoring.Store.Replays

namespace HostMonitoring.Retention

open HostMonitoring.Framework
open HostMonitoring.Framework.Tx
open HostMonitoring.Store

namespace Exact

variable {a : HourlyAggregate} {rows : List MetricReport}

/-- All times of an hourly row lie in its hour. -/
theorem hour (h : Exact a rows) : a.bucketStart = a.intervalStart.hourStart ∧
    a.bucketStart = a.intervalEnd.hourStart := by
  obtain ⟨⟨r, hr, hrt⟩, _⟩ := h.interval_start
  obtain ⟨⟨r', hr', hrt'⟩, _⟩ := h.interval_end
  have start := congrArg Prod.snd (h.key r hr)
  have ending := congrArg Prod.snd (h.key r' hr')
  rw [← hrt, ← hrt']
  exact ⟨start.symm, ending.symm⟩

/-- A row that describes some samples passes the table's checks. -/
theorem admissible (h : Exact a rows) (updatedAt : DateTime) :
    HourlyRow.admissible { a with updatedAt } = true := by
  obtain ⟨start, ending⟩ := h.hour
  obtain ⟨⟨r, hr, hrt⟩, least⟩ := h.interval_start
  have nonempty : 0 < rows.length := List.length_pos_of_mem hr
  have bucket : a.bucketStart.secs / 3600 = a.intervalStart.secs / 3600 := by
    rw [start, DateTime.hourStart]
    dsimp only
    omega
  have interval : a.intervalStart.secs / 3600 = a.intervalEnd.secs / 3600 :=
    DateTime.hour_of_hourStart _ _ (start.symm.trans ending)
  have opens : a.bucketStart ≤ a.intervalStart := by
    rw [start, ← not_lt, DateTime.lt_def, DateTime.hourStart]
    dsimp only
    omega
  have closes : a.intervalStart ≤ a.intervalEnd := by
    obtain ⟨⟨r', hr', hrt'⟩, _⟩ := h.interval_end
    exact least ⟨r', hr', hrt'⟩
  have counts : ∀ i, 0 ≤ (a.metrics i).count ∧ (a.metrics i).count ≤ a.sampleCount := by
    intro i
    have fewer : (samples i rows).length ≤ rows.length := List.length_filterMap_le _ _
    rw [h.metrics i, h.sample_count]
    simp only [scalarOf, Stats.of]
    omega
  simp only [HourlyRow.admissible, Bool.and_eq_true, decide_eq_true_eq]
  refine ⟨⟨⟨?_, ?_⟩, ?_⟩, counts⟩
  · rw [h.sample_count]
    omega
  · exact (DateTime.sqlLe_iff _ _ (Or.inl bucket)).mpr opens
  · exact (DateTime.sqlLe_iff _ _ (Or.inl interval)).mpr closes

end Exact

/-- Every report has its host, and every hourly row describes some samples. -/
structure Sound (db : Db) : Prop where
  housed : ∀ r ∈ db.reports, HasHost db r.hostId
  hourly : ∀ row ∈ db.hourly, ∃ rows, Exact row.toHourlyAggregate rows

theorem sound_after (ops : List Op) : Sound (store.after ops) where
  housed := (housed_after ops).report
  hourly row hr := ⟨_, (balanced_after ops).hourly row hr⟩

theorem upsertHourly_succeeds (aggregate : HourlyAggregate) (now : DateTime) (db : Db)
    (rows : List MetricReport) (exact_ : Exact aggregate rows) (host : HasHost db aggregate.hostId)
    (hourly : ∀ row ∈ db.hourly, ∃ rows, Exact row.toHourlyAggregate rows) :
    ∃ db', upsertHourly aggregate now db = .ok ((), db') ∧ db'.hosts = db.hosts ∧
      ∀ row ∈ db'.hourly, ∃ rows, Exact row.toHourlyAggregate rows := by
  have incoming : HourlyRow.admissible { aggregate with updatedAt := now } ≠ false := by
    rw [exact_.admissible now]
    exact Bool.noConfusion
  simp only [upsertHourly, if_neg incoming]
  cases found : hourlyAt aggregate.key db.hourly with
  | some current =>
    obtain ⟨stored, key⟩ := (hourlyAt_eq_some _ _ _).mp found
    obtain ⟨before, described⟩ := hourly current stored
    have merged := Exact.merge current { aggregate with updatedAt := now } described exact_ key
    have passes : (mergeRow current { aggregate with updatedAt := now }).admissible ≠ false := by
      have checked := merged.admissible now
      intro fails
      exact Bool.noConfusion (checked.symm.trans fails)
    simp only [if_neg passes]
    refine ⟨_, rfl, rfl, fun row hr => ?_⟩
    obtain ⟨row₀, hr₀, key₀, rfl⟩ | ⟨hr, _⟩ := (mem_mergeInto _ _ _).mp hr
    · obtain ⟨rows₀, described₀⟩ := hourly row₀ hr₀
      exact ⟨_, Exact.merge row₀ { aggregate with updatedAt := now } described₀ exact_ key₀⟩
    · exact hourly row hr
  | none =>
    have known : (db.hosts.any fun h => decide (h.hostId = aggregate.hostId)) = true := by
      obtain ⟨h, hm, hid⟩ := host
      exact (Table.any_eq_true _ _).mpr ⟨h, hm, decide_eq_true hid⟩
    have inserts : ∃ hourly', db.hourly.insert? { aggregate with updatedAt := now } =
        some hourly' := by
      cases attempt : db.hourly.insert? { aggregate with updatedAt := now } with
      | some hourly' => exact ⟨hourly', rfl⟩
      | none =>
        obtain ⟨row, hr, clash⟩ := (Table.insert?_eq_none _ _).mp attempt
        rw [(hourlyAt_eq_some _ _ row).mpr ⟨hr, clash⟩] at found
        cases found
    obtain ⟨hourly', inserted⟩ := inserts
    simp only [known, if_true, inserted, orViolation]
    refine ⟨_, rfl, rfl, fun row hr => ?_⟩
    obtain hr | rfl := (Table.mem_insert? _ _ _ _ inserted).mp hr
    · exact hourly row hr
    · exact ⟨rows, exact_⟩

theorem upsertAll_succeeds (now : DateTime) (aggregates : List HourlyAggregate) (i : Nat) (db : Db)
    (described : ∀ a ∈ aggregates, (∃ rows, Exact a rows) ∧ HasHost db a.hostId)
    (hourly : ∀ row ∈ db.hourly, ∃ rows, Exact row.toHourlyAggregate rows) :
    ∃ db', (upsertAll (fun _ => none) now aggregates i).run db = (.ok (), db') := by
  induction aggregates generalizing i db with
  | nil => exact ⟨db, rfl⟩
  | cons a aggregates ih =>
    obtain ⟨⟨rows, exact_⟩, host⟩ := described a List.mem_cons_self
    obtain ⟨db₁, first, hosts, hourly₁⟩ := upsertHourly_succeeds a now db rows exact_ host hourly
    have rest : ∀ b ∈ aggregates, (∃ rows, Exact b rows) ∧ HasHost db₁ b.hostId := by
      intro b hb
      obtain ⟨exactly, h, hm, hid⟩ := described b (List.mem_cons_of_mem _ hb)
      exact ⟨exactly, h, hosts ▸ hm, hid⟩
    obtain ⟨db', later⟩ := ih (i + 1) db₁ rest hourly₁
    refine ⟨db', (bind_ok _ _ _ _ _).mpr ⟨(), db₁, ?_, later⟩⟩
    exact (execute_ok _ _ _ _ _).mpr ⟨rfl, first⟩

/-- The buckets of pending rows describe them, for hosts that exist. -/
theorem buckets_described {db : Db} (sound : Sound db) (cutoff : DateTime) (batchSize : Nat) :
    ∀ a ∈ bucketValues (bucketsOf (pendingReports cutoff batchSize db)),
      (∃ rows, Exact a rows) ∧ HasHost db a.hostId := by
  intro a ha
  obtain ⟨_, exact_⟩ := (bucketsOf_exact _ a.key).2 a ((mem_bucketValues _ a).mp ha)
  refine ⟨⟨_, exact_⟩, ?_⟩
  obtain ⟨⟨r, hr, _⟩, _⟩ := exact_.interval_start
  have host : r.hostId = a.hostId := congrArg Prod.fst (exact_.key r hr)
  rw [← host]
  exact sound.housed r (Table.mem_of_mem_select _ _ _ _ _ (List.mem_filter.mp hr).1).1

theorem aggregateRawBatch_succeeds {db : Db} (sound : Sound db) (cutoff now : DateTime)
    (batchSize : Nat) : ∃ n db', aggregateRawBatch .none cutoff now batchSize db = (.ok n, db') := by
  by_cases nothing : pendingReports cutoff batchSize db = []
  · refine ⟨0, db, transact_rollback _ db db (.ok 0) ?_⟩
    refine (bind_ok _ _ _ _ _).mpr ⟨_, db, (query_ok _ _ _ _ _).mpr ⟨rfl, rfl, rfl⟩, ?_⟩
    rw [if_pos nothing]
    rfl
  · obtain ⟨db₁, upserted⟩ := upsertAll_succeeds now _ 1 db (buckets_described sound cutoff batchSize)
      sound.hourly
    have reports : db₁.reports = db.reports := by rw [upsertAll_hourly _ _ _ _ _ _ _ upserted]
    have marked := count_toMark cutoff batchSize db
    rw [← length_pendingReports, ← reports] at marked
    let ids := (pendingReports cutoff batchSize db).map MetricReport.reportId
    let db' : Db := { db₁ with reports := markAggregated now ids db₁.reports }
    refine ⟨db₁.reports.count (toMark ids), db', ?_⟩
    apply transact_commit
    refine (bind_ok _ _ _ _ _).mpr ⟨_, db, (query_ok _ _ _ _ _).mpr ⟨rfl, rfl, rfl⟩, ?_⟩
    rw [if_neg nothing]
    refine (bind_ok _ _ _ _ _).mpr ⟨(), db₁, upserted, ?_⟩
    refine (bind_ok _ _ _ _ _).mpr ⟨_, _, (execute_ok _ _ _ _ _).mpr ⟨rfl, rfl⟩, ?_⟩
    rw [if_neg (not_not.mpr marked)]
    rfl

theorem deletion_succeeds (write : Db → Nat × Db) (db : Db) :
    ∃ n db', deletion .none (fun db => .ok (write db)) db = (.ok n, db') := by
  have executed : (execute ((Faults.none).statement 0) fun db => .ok (write db)).run db =
      (.ok (write db).1, (write db).2) := rfl
  by_cases none : (write db).1 = 0
  · refine ⟨(write db).1, db, transact_rollback _ db (write db).2 (.ok (write db).1) ?_⟩
    refine (bind_ok _ _ _ _ _).mpr ⟨_, _, executed, ?_⟩
    rw [if_pos none]
    rfl
  · refine ⟨(write db).1, (write db).2, transact_commit _ db (write db).2 (write db).1 ?_⟩
    refine (bind_ok _ _ _ _ _).mpr ⟨_, _, executed, ?_⟩
    rw [if_neg none]
    rfl

theorem deleteAggregatedRawBatch_succeeds (batchSize : Nat) (db : Db) :
    ∃ n db', deleteAggregatedRawBatch .none batchSize db = (.ok n, db') :=
  deletion_succeeds (fun db => (db.reports.count (rawVictim batchSize db),
    { db with reports := db.reports.delete (rawVictim batchSize db) })) db

theorem deleteExpiredAggregateBatch_succeeds (cutoff : DateTime) (batchSize : Nat) (db : Db) :
    ∃ n db', deleteExpiredAggregateBatch .none cutoff batchSize db = (.ok n, db') :=
  deletion_succeeds (fun db => (db.hourly.count (hourlyVictim cutoff batchSize db),
    { db with hourly := db.hourly.delete (hourlyVictim cutoff batchSize db) })) db

/-- Without faults the loop does not fail from any state the store can reach. -/
theorem cycle_answers (c : RetentionConfig) (rawCutoff aggregateCutoff now : DateTime)
    (o : RetentionRunOutcome) (ops : List Op) :
    Answers (cycle (fun _ => .none) c rawCutoff aggregateCutoff now o) (store.after ops) := by
  generalize remaining : c.maxTransactionsPerRun - o.transactions = n
  induction n using Nat.strong_induction_on generalizing o ops with
  | _ n ih =>
    have most := c.budget.2.2
    rw [cycle]
    split_ifs with running
    · obtain ⟨rolled, db₁, hr⟩ := aggregateRawBatch_succeeds (sound_after ops) rawCutoff now c.batchSize
      apply answers_bind _ _ _ db₁ rolled hr
      dsimp only
      split_ifs with full₁
      · apply answers_pure
      · obtain ⟨deleted, db₂, hd⟩ := deleteAggregatedRawBatch_succeeds c.batchSize db₁
        apply answers_bind _ _ _ db₂ deleted hd
        split_ifs with full₂
        · apply answers_pure
        · obtain ⟨expired, db₃, he⟩ :=
            deleteExpiredAggregateBatch_succeeds aggregateCutoff c.batchSize db₂
          apply answers_bind _ _ _ db₃ expired he
          split_ifs with zeros
          · apply answers_pure
          · have reached : db₃ = store.after (ops ++
                [.aggregateRawBatch .none rawCutoff now c.batchSize] ++
                [.deleteAggregatedRawBatch .none c.batchSize] ++
                [.deleteExpiredAggregateBatch .none aggregateCutoff c.batchSize]) := by
              rw [Machine.after_concat, Machine.after_concat, Machine.after_concat]
              change db₃ = (deleteExpiredAggregateBatch .none aggregateCutoff c.batchSize
                (deleteAggregatedRawBatch .none c.batchSize
                  (aggregateRawBatch .none rawCutoff now c.batchSize (store.after ops)).2).2).2
              rw [hr, hd, he]
            rw [reached]
            refine ih _ ?_ _ _ rfl
            simp only [RetentionRunOutcome.add, saturatingAdd]
            omega
    · apply answers_pure

theorem context_ok {α : Type} (value : Option α) (message : String) (a : α) (db db' : Db) :
    (context value message).run db = (.ok a, db') ↔ value = some a ∧ db' = db := by
  cases value with
  | none => simp [context, fail]
  | some b =>
    change (pure b : Tx Db StoreError α).run db = _ ↔ _
    rw [pure_ok, Option.some.injEq, eq_comm]

/-- A run that answers had both cutoffs, and is its loop. -/
theorem runCycleAt_ok (faults : Nat → Faults) (c : RetentionConfig) (now : DateTime) (db db' : Db)
    (o : RetentionRunOutcome) : runCycleAt faults c now db = (.ok o, db') ↔
      ∃ rawCutoff aggregateCutoff, now.checkedSubSigned c.rawRetention = some rawCutoff ∧
        now.checkedSubSigned c.aggregateRetention = some aggregateCutoff ∧
        (cycle faults c rawCutoff aggregateCutoff now {}).run db = (.ok o, db') := by
  rw [runCycleAt, bind_ok]
  constructor
  · intro h
    obtain ⟨rawCutoff, db₁, hr, h⟩ := h
    rw [bind_ok] at h
    obtain ⟨aggregateCutoff, db₂, ha, h⟩ := h
    rw [context_ok] at hr ha
    rw [ha.2, hr.2] at h
    exact ⟨rawCutoff, aggregateCutoff, hr.1, ha.1, h⟩
  · intro h
    obtain ⟨rawCutoff, aggregateCutoff, hr, ha, h⟩ := h
    refine ⟨rawCutoff, db, (context_ok _ _ _ _ _).mpr ⟨hr, rfl⟩, (bind_ok _ _ _ _ _).mpr ?_⟩
    exact ⟨aggregateCutoff, db, (context_ok _ _ _ _ _).mpr ⟨ha, rfl⟩, h⟩

/-- Without faults a run whose cutoffs exist is answered from any state the store can reach. -/
theorem runCycleAt_answers (c : RetentionConfig) (now rawCutoff aggregateCutoff : DateTime)
    (raw : now.checkedSubSigned c.rawRetention = some rawCutoff)
    (aggregate : now.checkedSubSigned c.aggregateRetention = some aggregateCutoff)
    (ops : List Op) : ∃ o db', runCycleAt (fun _ => .none) c now (store.after ops) = (.ok o, db') ∧
      (cycle (fun _ => .none) c rawCutoff aggregateCutoff now {}).run (store.after ops) =
        (.ok o, db') := by
  obtain ⟨o, db', h⟩ := cycle_answers c rawCutoff aggregateCutoff now {} ops
  exact ⟨o, db', (runCycleAt_ok _ _ _ _ _ _).mpr ⟨_, _, raw, aggregate, h⟩, h⟩

end HostMonitoring.Retention
