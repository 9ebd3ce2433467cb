import HostMonitoring.Retention.Progress
import HostMonitoring.Store.LatestRuns

namespace HostMonitoring.Retention

open HostMonitoring.Framework
open HostMonitoring.Framework.Tx
open HostMonitoring.Store

/-- The raw rows before the two steps they go through. -/
def queues (rawCutoff : DateTime) (db : Db) : Pipeline :=
  ⟨pendingCount rawCutoff db, deletableCount db⟩

theorem transaction_queues (f : Faults) (c : RetentionConfig)
    (rawCutoff aggregateCutoff now : DateTime) (k n : Nat) (db db₁ : Db)
    (h : (transaction c rawCutoff aggregateCutoff now f k).exec db = (.retention (.ok n), db₁)) :
    queues rawCutoff db₁ = (queues rawCutoff db).turn c.batchSize k := by
  obtain ⟨turn, ran⟩ | ⟨turn, ran⟩ | ⟨turn, ran⟩ := transaction_cases h
  · have rolled := aggregateRawBatch_ok _ _ _ _ _ _ _ ran
    have counts := rolled.counts
    have answer := rolled.answer
    simp only [queues, Pipeline.turn, turn, if_true, Pipeline.mk.injEq]
    omega
  · have counts := deleteAggregatedRawBatch_counts _ rawCutoff _ _ _ _ ran
    simp only [queues, Pipeline.turn, turn, if_true, if_false, Nat.one_ne_zero, Pipeline.mk.injEq]
    omega
  · have kept := deleteExpiredAggregateBatch_counts _ _ _ _ _ _ ran
    have same := counts_congr rawCutoff db db₁ kept.2.2.1 kept.2.2.2
    simp [queues, Pipeline.turn, turn, same.1, same.2]

theorem spent_queues (faults : Nat → Faults) (c : RetentionConfig)
    (rawCutoff aggregateCutoff now : DateTime) (k : Nat) (ns : List Nat) (db db' : Db)
    (h : Spent faults c rawCutoff aggregateCutoff now k db ns db') :
    queues rawCutoff db' = (queues rawCutoff db).resume c.batchSize k ns.length := by
  induction h with
  | done k db => rfl
  | @next k n ns db db₁ db' first rest ih =>
    rw [ih, transaction_queues _ c _ _ _ _ _ _ _ first]
    rfl

/-- A run that answers leaves the queues as its whole budget would. -/
theorem cycle_queues (faults : Nat → Faults) (c : RetentionConfig)
    (rawCutoff aggregateCutoff now : DateTime) (o : RetentionRunOutcome) (db db' : Db)
    (h : (cycle faults c rawCutoff aggregateCutoff now {}).run db = (.ok o, db')) :
    queues rawCutoff db' = (queues rawCutoff db).after c.batchSize c.maxTransactionsPerRun := by
  obtain ⟨ns, spent, _, within, ending⟩ :=
    cycle_ok faults c rawCutoff aggregateCutoff now {} o db db' rfl (Nat.zero_le _) h
  rw [Nat.zero_add] at within ending
  have left := spent_queues faults c rawCutoff aggregateCutoff now 0 ns db db' spent
  have start := Pipeline.after_add c.batchSize (queues rawCutoff db) 0 ns.length
  rw [Pipeline.after_zero, Nat.zero_add, ← left] at start
  obtain full | idle := ending
  · rw [start, full]
  · have empty : queues rawCutoff db' = ⟨0, 0⟩ := by
      rw [queues, idle.pending, idle.deletable]
    have budget : ns.length + (c.maxTransactionsPerRun - ns.length) = c.maxTransactionsPerRun := by
      omega
    have later := Pipeline.after_add c.batchSize (queues rawCutoff db) ns.length
      (c.maxTransactionsPerRun - ns.length)
    rw [budget, ← start, empty, Pipeline.resume_empty] at later
    rw [empty, later]

/-- How many raw rows wait to be merged when a run starts. -/
def overdue (c : RetentionConfig) (now : DateTime) (db : Db) : Nat :=
  ((now.checkedSubSigned c.rawRetention).map fun cutoff => pendingCount cutoff db).getD 0

/-- The budget ends with a deletion, or the run's earlier merges leave its last one
nothing to merge. -/
def InStep (c : RetentionConfig) (now : DateTime) (db : Db) : Prop :=
  c.maxTransactionsPerRun % 3 ≠ 1 ∨ overdue c now db ≤ c.batchSize * (c.maxTransactionsPerRun / 3)

instance (c : RetentionConfig) (now : DateTime) (db : Db) : Decidable (InStep c now db) :=
  inferInstanceAs (Decidable (_ ∨ _))

theorem run_keeps_pace (faults : Nat → Faults) (c : RetentionConfig) (now : DateTime)
    (o : RetentionRunOutcome) (db db' : Db) (h : runCycleAt faults c now db = (.ok o, db')) :
    deletableCount db' ≤ deletableCount db ↔ InStep c now db := by
  obtain ⟨rawCutoff, aggregateCutoff, raw, _, looped⟩ := (runCycleAt_ok _ _ _ _ _ _).mp h
  have left := cycle_queues faults c rawCutoff aggregateCutoff now o db db' looped
  have passed := congrArg Pipeline.passed left
  have balance := Pipeline.passed_le_iff c.batchSize c.maxTransactionsPerRun (queues rawCutoff db)
    c.budget.1.1
  rw [← passed] at balance
  have waiting : overdue c now db = pendingCount rawCutoff db := by simp [overdue, raw]
  rw [InStep, waiting]
  exact balance

/-- A run out of step leaves a whole batch more, while enough rows wait. -/
theorem run_falls_behind (faults : Nat → Faults) (c : RetentionConfig) (now : DateTime)
    (o : RetentionRunOutcome) (db db' : Db) (h : runCycleAt faults c now db = (.ok o, db'))
    (unbalanced : c.maxTransactionsPerRun % 3 = 1)
    (full : c.batchSize * (c.maxTransactionsPerRun / 3 + 1) ≤ overdue c now db) :
    overdue c now db' = overdue c now db - c.batchSize * (c.maxTransactionsPerRun / 3 + 1) ∧
      deletableCount db' = deletableCount db + c.batchSize := by
  obtain ⟨rawCutoff, aggregateCutoff, raw, _, looped⟩ := (runCycleAt_ok _ _ _ _ _ _).mp h
  have waiting (db : Db) : overdue c now db = pendingCount rawCutoff db := by simp [overdue, raw]
  rw [waiting] at full
  have left := cycle_queues faults c rawCutoff aggregateCutoff now o db db' looped
  rw [Pipeline.after_unbalanced_full _ _ _ unbalanced full] at left
  rw [waiting, waiting]
  exact ⟨congrArg Pipeline.waiting left, congrArg Pipeline.passed left⟩

/-- So a budget that ends with a merge has no bound: the more rows wait, the more
merged ones pile up in consecutive runs. -/
theorem runs_fall_behind (c : RetentionConfig) (now : DateTime)
    (unbalanced : c.maxTransactionsPerRun % 3 = 1) (n : Nat) (dbs : Nat → Db)
    (runs : ∀ k < n, ∃ faults o, runCycleAt faults c now (dbs k) = (.ok o, dbs (k + 1)))
    (full : c.batchSize * (c.maxTransactionsPerRun / 3 + 1) * n ≤ overdue c now (dbs 0)) :
    overdue c now (dbs n) =
        overdue c now (dbs 0) - c.batchSize * (c.maxTransactionsPerRun / 3 + 1) * n ∧
      deletableCount (dbs n) = deletableCount (dbs 0) + c.batchSize * n := by
  induction n with
  | zero => simp
  | succ n ih =>
    rw [Nat.mul_succ] at full
    obtain ⟨waiting, deletable⟩ := ih (fun k hk => runs k (by omega)) (by omega)
    obtain ⟨faults, o, ran⟩ := runs n (Nat.lt_succ_self n)
    have next := run_falls_behind faults c now o _ _ ran unbalanced (by omega)
    generalize c.batchSize * (c.maxTransactionsPerRun / 3 + 1) = round at *
    rw [Nat.mul_succ, Nat.mul_succ]
    omega

/-- No host's latest report has been merged. -/
def LatestUnmarked (db : Db) : Prop :=
  ∀ r ∈ db.reports, isLatest db r = true → r.aggregatedAt = none

theorem isLatest_iff (db : Db) (r : MetricReport) :
    isLatest db r = true ↔ ∃ h ∈ db.hosts, h.latestReportId = some r.reportId := by
  simp [isLatest, Table.any_eq_true]

/-- A call that stores no report points no host to another one. -/
theorem latest_before (op : Op) (hs : ¬op.Stores) (db : Db) (r : MetricReport)
    (h : isLatest (op.exec db).2 r = true) : isLatest db r = true := by
  obtain ⟨x, hx, pointer⟩ := (isLatest_iff _ _).mp h
  obtain kept | ⟨pairing, invite, _, _, _, _, _, _, act⟩ := exec_keepsLatest op db hs
  · obtain ⟨y, hy, _, same, _⟩ := kept.hosts x hx
    exact (isLatest_iff _ _).mpr ⟨y, hy, same.symm.trans pointer⟩
  · obtain hx | rfl := (Table.mem_insert? _ _ _ _ act.hosts).mp hx
    · exact (isLatest_iff _ _).mpr ⟨x, hx, pointer⟩
    · cases pointer

theorem LatestUnmarked.accepted {write : ReportWrite} {receivedAt : DateTime}
    {hostId reportId : Uuid} {host : MonitoredHost} {inserted : Table MetricReport} {db db' : Db}
    (unmarked : LatestUnmarked db)
    (acc : Accepted write receivedAt hostId reportId host inserted db db') : LatestUnmarked db' := by
  intro r hr latest
  obtain ⟨x, hx, pointer⟩ := (isLatest_iff _ _).mp latest
  obtain rfl | ⟨r₀, hr₀, same⟩ := acc.row_origin r hr
  · rfl
  · have columns : r.reportId = r₀.reportId ∧ r.aggregatedAt = r₀.aggregatedAt := by
      obtain rfl | ⟨_, rfl⟩ := same
      · exact ⟨rfl, rfl⟩
      · exact ⟨rfl, rfl⟩
    rw [columns.1] at pointer
    have before : ∃ y ∈ db.hosts, y.latestReportId = some r₀.reportId := by
      rw [acc.hosts] at hx
      split_ifs at hx
      · obtain ⟨y, hy, _, rfl⟩ | ⟨hx, _⟩ := (Table.mem_updated _ _ _ _).mp hx
        · exact absurd (Option.some.inj pointer).symm (acc.fresh_report r₀ hr₀)
        · exact ⟨x, hx, pointer⟩
      · exact ⟨x, hx, pointer⟩
    rw [columns.2]
    exact unmarked r₀ hr₀ ((isLatest_iff _ _).mpr before)

theorem LatestUnmarked.exec {db : Db} (unmarked : LatestUnmarked db) (op : Op) :
    LatestUnmarked (op.exec db).2 := by
  by_cases hs : op.Stores
  · exact stores_keeps op hs (fun _ => LatestUnmarked)
      (fun _ _ _ _ _ _ _ _ _ _ before _ acc => before.accepted acc) [] db unmarked
  · intro r hr latest
    have before := latest_before op hs db r latest
    by_cases h : ∀ f cutoff now batchSize, op ≠ .aggregateRawBatch f cutoff now batchSize
    · exact unmarked r ((exec_subset op db hs h).1 r hr) before
    · push Not at h
      obtain ⟨f, cutoff, now, batchSize, rfl⟩ := h
      obtain ⟨he, _⟩ | ⟨rows, hourly, pending, _, _, _, he⟩ :=
        aggregateRawBatch_cases f cutoff now batchSize db _ _ Prod.mk.eta.symm
      · change r ∈ (aggregateRawBatch f cutoff now batchSize db).2.reports at hr
        rw [he] at hr
        exact unmarked r hr before
      · change r ∈ (aggregateRawBatch f cutoff now batchSize db).2.reports at hr
        rw [he] at hr
        obtain ⟨r₀, hr₀, mark, rfl⟩ | ⟨hr, _⟩ := (mem_markAggregated _ _ _ _).mp hr
        · rw [pending] at mark
          have waiting := (isPending_iff _ _ _).mp (toMark_pending cutoff batchSize db r₀ hr₀ mark)
          have moved : isLatest db r₀ = true := before
          rw [waiting.2.2] at moved
          cases moved
        · exact unmarked r hr before

theorem latestUnmarked_after (ops : List Op) : LatestUnmarked (store.after ops) :=
  store.invariant (fun _ => True) (fun _ => LatestUnmarked) (fun _ _ _ => trivial)
    (fun r hr => absurd hr (Table.not_mem_empty r)) (fun _ op _ _ before => before.exec op) ops
    trivial

/-- While no latest report is merged, only merging makes more rows deletable. -/
theorem exec_adds_none (op : Op) (db : Db) (unmarked : LatestUnmarked db)
    (h : ∀ f cutoff now batchSize, op ≠ .aggregateRawBatch f cutoff now batchSize) :
    deletableCount (op.exec db).2 ≤ deletableCount db := by
  have merged (r : MetricReport) (hr : r ∈ db.reports) (mark : r.aggregatedAt.isSome = true) :
      isDeletable db r = true := by
    cases latest : isLatest db r with
    | true =>
      rw [unmarked r hr latest] at mark
      cases mark
    | false => simp [isDeletable, mark, latest]
  apply Table.count_le_count db.reports (op.exec db).2.reports MetricReport.reportId _ _
    (fun _ _ same => same)
  intro r hr deletable
  have mark : r.aggregatedAt.isSome = true := by
    simp only [isDeletable, Bool.and_eq_true] at deletable
    exact deletable.1
  by_cases hs : op.Stores
  · obtain ⟨r₀, hr₀, same, marked⟩ | ⟨_, fresh⟩ := (stores_grown op hs db).noMerge.reports r hr
    · exact ⟨r₀, hr₀, same, merged r₀ hr₀ (by rw [marked]; exact mark)⟩
    · rw [fresh] at mark
      cases mark
  · have stored := (exec_subset op db hs h).1 r hr
    exact ⟨r, stored, rfl, merged r stored mark⟩

theorem Spent.keeps (P : Db → Prop) (step : ∀ (op : Op) (db : Db), P db → P (op.exec db).2)
    {faults : Nat → Faults} {c : RetentionConfig} {rawCutoff aggregateCutoff now : DateTime}
    {k : Nat} {ns : List Nat} {db db' : Db}
    (h : Spent faults c rawCutoff aggregateCutoff now k db ns db') (start : P db) : P db' := by
  induction h with
  | done k db => exact start
  | @next k n ns db db₁ db' first rest ih =>
    apply ih
    have kept := step (transaction c rawCutoff aggregateCutoff now (faults k) k) db start
    rw [first] at kept
    exact kept

/-- The calls of the other tasks, and the runs of the retention task between them. -/
inductive Work where
  | call (op : Op)
  | run (faults : Nat → Faults) (now : DateTime)

def Work.exec (c : RetentionConfig) : Work → Db → Db
  | .call op, db => (op.exec db).2
  | .run faults now, db => (runCycleAt faults c now db).2

def worked (c : RetentionConfig) (works : List Work) (db : Db) : Db :=
  works.foldl (fun db work => work.exec c db) db

/-- Nobody else merges, and every run is answered and in step. -/
def Work.InStep (c : RetentionConfig) : Work → Db → Prop
  | .call op, _ => ∀ f cutoff now batchSize, op ≠ .aggregateRawBatch f cutoff now batchSize
  | .run faults now, db => (∃ o, (runCycleAt faults c now db).1 = .ok o) ∧
      Retention.InStep c now db

def AllInStep (c : RetentionConfig) : List Work → Db → Prop
  | [], _ => True
  | work :: works, db => work.InStep c db ∧ AllInStep c works (work.exec c db)

theorem work_in_step (c : RetentionConfig) (work : Work) (db : Db) (unmarked : LatestUnmarked db)
    (h : work.InStep c db) :
    LatestUnmarked (work.exec c db) ∧ deletableCount (work.exec c db) ≤ deletableCount db := by
  cases work with
  | call op => exact ⟨unmarked.exec op, exec_adds_none op db unmarked h⟩
  | run faults now =>
    obtain ⟨⟨o, answered⟩, inStep⟩ := h
    have ran : runCycleAt faults c now db = (.ok o, (runCycleAt faults c now db).2) := by
      rw [← answered]
    obtain ⟨rawCutoff, aggregateCutoff, _, _, looped⟩ := (runCycleAt_ok _ _ _ _ _ _).mp ran
    obtain ⟨ns, spent, _⟩ := cycle_ok faults c rawCutoff aggregateCutoff now {} o db _ rfl
      (Nat.zero_le _) looped
    refine ⟨spent.keeps LatestUnmarked (fun op _ before => before.exec op) unmarked, ?_⟩
    exact (run_keeps_pace faults c now o db _ ran).mpr inStep

theorem works_in_step (c : RetentionConfig) (works : List Work) (db : Db)
    (unmarked : LatestUnmarked db) (h : AllInStep c works db) :
    deletableCount (worked c works db) ≤ deletableCount db := by
  induction works generalizing db with
  | nil => exact le_refl _
  | cons work works ih =>
    obtain ⟨kept, fewer⟩ := work_in_step c work db unmarked h.1
    exact (ih (work.exec c db) kept h.2).trans fewer

/-- A run that is answered leaves no more merged rows undeleted than there were
exactly when it is in step, and in a history of such runs their number never
exceeds what it was at the start. -/
theorem deletion_keeps_pace_iff (c : RetentionConfig) :
    (∀ (faults : Nat → Faults) (now : DateTime) (o : RetentionRunOutcome) (db db' : Db),
      runCycleAt faults c now db = (.ok o, db') →
        (deletableCount db' ≤ deletableCount db ↔ InStep c now db)) ∧
    ∀ (past : List Op) (works : List Work), AllInStep c works (store.after past) →
      deletableCount (worked c works (store.after past)) ≤ deletableCount (store.after past) :=
  ⟨fun faults now o db db' => run_keeps_pace faults c now o db db',
    fun past works => works_in_step c works _ (latestUnmarked_after past)⟩

/-- Two reports of the laptop wait to be merged. -/
def laptopWaiting : List Op := laptopReported ++
  [.storeReport .none (laptopReport "00000000-0000-0000-0000-000000000007" (noon.plusSeconds 20))
    (noon.plusSeconds 20)]

/-- Raw rows of the laptop are past their retention. -/
def nextWeek : DateTime := noon.plusSeconds (8 * 86400)

theorem nextWeek_answers (c : RetentionConfig) (raw : c.rawRetention = .fromSecs (7 * 86400))
    (aggregate : c.aggregateRetention = .fromSecs (365 * 86400)) (ops : List Op) :
    ∃ o db', runCycleAt (fun _ => .none) c nextWeek (store.after ops) = (.ok o, db') := by
  have cutoff (d : Duration) (years : DateTime.minYear ≤ (nextWeek.minus d).year) :
      nextWeek.checkedSubSigned d = some (nextWeek.minus d) := if_pos years
  have rawYears : DateTime.minYear ≤ (nextWeek.minus c.rawRetention).year := by
    rw [raw]
    decide
  have aggregateYears : DateTime.minYear ≤ (nextWeek.minus c.aggregateRetention).year := by
    rw [aggregate]
    decide
  obtain ⟨o, db', answered, _⟩ := runCycleAt_answers c nextWeek _ _ (cutoff _ rawYears)
    (cutoff _ aggregateYears) ops
  exact ⟨o, db', answered⟩

theorem deletion_keeps_pace_iff_laptop : ∃ o db',
    runCycleAt (fun _ => .none) .production nextWeek (store.after laptopWaiting) = (.ok o, db') ∧
      deletableCount db' ≤ deletableCount (store.after laptopWaiting) ∧
      deletableCount (worked .production [.run (fun _ => .none) nextWeek]
        (store.after laptopWaiting)) ≤ deletableCount (store.after laptopWaiting) := by
  obtain ⟨o, db', ran⟩ := nextWeek_answers .production rfl rfl laptopWaiting
  have inStep : InStep .production nextWeek (store.after laptopWaiting) := Or.inl (by decide)
  refine ⟨o, db', ran, ?_, ?_⟩
  · exact ((deletion_keeps_pace_iff .production).1 _ _ o _ db' ran).mpr inStep
  · exact (deletion_keeps_pace_iff .production).2 laptopWaiting _
      ⟨⟨⟨o, by rw [ran]⟩, inStep⟩, trivial⟩

/-- Accepted limits with a budget of two merges for one deletion. -/
def fourTransactions : RetentionConfig where
  toRetentionLimits := { RetentionConfig.production.toRetentionLimits with
    batchSize := 1, maxTransactionsPerRun := 4 }
  accepted := by decide

/-- The laptop's two rows are merged in one run, and one of them stays. -/
theorem deletion_falls_behind : ¬∀ (faults : Nat → Faults) (c : RetentionConfig) (now : DateTime)
    (o : RetentionRunOutcome) (db db' : Db), runCycleAt faults c now db = (.ok o, db') →
      deletableCount db' ≤ deletableCount db := by
  intro claim
  obtain ⟨o, db', ran⟩ := nextWeek_answers fourTransactions rfl rfl laptopWaiting
  have kept := claim _ fourTransactions nextWeek o _ db' ran
  have inStep := (run_keeps_pace _ fourTransactions nextWeek o _ db' ran).mp kept
  have outOfStep : ¬InStep fourTransactions nextWeek (store.after laptopWaiting) := by
    decide +kernel
  exact outOfStep inStep

end HostMonitoring.Retention
