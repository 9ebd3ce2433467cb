import HostMonitoring.Retention.Progress

namespace HostMonitoring.Retention

open HostMonitoring.Framework
open HostMonitoring.Framework.Tx
open HostMonitoring.Store

/-- The raw rows that are there only before. -/
def lostReports (db db' : Db) : List MetricReport :=
  db.reports.rows.filter fun r => !knownReport db' r.reportId

/-- The hourly rows that are there only before. -/
def lostHourly (db db' : Db) : List HourlyRow :=
  db.hourly.rows.filter fun row => (hourlyAt row.key db'.hourly).isNone

/-- What is seen of each of some operations, one after another. -/
def along {β : Type} (seen : Op → Db → List β) : List Op → Db → List β
  | [], _ => []
  | op :: ops, db => seen op db ++ along seen ops (op.exec db).2

def reached (ops : List Op) (db : Db) : Db := ops.foldl (fun db op => (op.exec db).2) db

theorem reached_after (past ops : List Op) :
    reached ops (store.after past) = store.after (past ++ ops) := by
  simp [reached, Machine.after, store]

/-- The first transactions of a run, without faults. -/
def stages (c : RetentionConfig) (rawCutoff aggregateCutoff now : DateTime) (k n : Nat) : List Op :=
  (List.range' k n).map (transaction c rawCutoff aggregateCutoff now .none)

/-- A run's outcome is what its transactions did: the rows they merged, the raw rows
and the hourly rows they deleted. -/
structure Accounts (c : RetentionConfig) (rawCutoff aggregateCutoff now : DateTime)
    (o : RetentionRunOutcome) (db db' : Db) : Prop where
  budget : o.transactions ≤ c.maxTransactionsPerRun
  state : db' = reached (stages c rawCutoff aggregateCutoff now 0 o.transactions) db
  merged : o.aggregatedReports =
    (along merges (stages c rawCutoff aggregateCutoff now 0 o.transactions) db).length
  deleted : o.deletedRawReports = (along (fun op db => lostReports db (op.exec db).2)
    (stages c rawCutoff aggregateCutoff now 0 o.transactions) db).length
  expired : o.deletedHourlyAggregates = (along (fun op db => lostHourly db (op.exec db).2)
    (stages c rawCutoff aggregateCutoff now 0 o.transactions) db).length

theorem lostReports_nil (db db' : Db)
    (h : ∀ r ∈ db.reports, ∃ r' ∈ db'.reports, r'.reportId = r.reportId) :
    lostReports db db' = [] := by
  rw [lostReports, List.filter_eq_nil_iff]
  intro r hr
  have known : knownReport db' r.reportId = true := by
    obtain ⟨r', hr', same⟩ := h r hr
    exact (Table.any_eq_true _ _).mpr ⟨r', hr', decide_eq_true same⟩
  simp [known]

theorem lostHourly_nil (db db' : Db)
    (h : ∀ row ∈ db.hourly, (hourlyAt row.key db'.hourly).isSome = true) :
    lostHourly db db' = [] := by
  rw [lostHourly, List.filter_eq_nil_iff]
  intro row hr
  simp [Option.isSome_iff_ne_none.mp (h row hr)]

theorem lostHourly_same (db db' : Db) (h : db'.hourly = db.hourly) : lostHourly db db' = [] := by
  apply lostHourly_nil
  intro row hr
  rw [h, (hourlyAt_eq_some _ _ row).mpr ⟨hr, rfl⟩]
  rfl

/-- A deletion loses just its victims. -/
theorem length_lostReports_delete (db : Db) (victim : MetricReport → Bool) :
    (lostReports db { db with reports := db.reports.delete victim }).length =
      db.reports.count victim := by
  rw [lostReports, ← List.countP_eq_length_filter]
  apply List.countP_congr
  intro r hr
  rw [Bool.not_eq_true', knownReport, Table.any_eq_false]
  constructor
  · intro h
    by_contra hv
    have stays := (Table.mem_delete _ _ _).mpr ⟨hr, Bool.eq_false_iff.mpr hv⟩
    have absent := h r stays
    simp at absent
  · intro hv r' hr'
    obtain ⟨mem, kept⟩ := (Table.mem_delete _ _ _).mp hr'
    apply decide_eq_false
    intro same
    rw [db.reports.eq_of_clash r' r mem hr same, hv] at kept
    cases kept

theorem length_lostHourly_delete (db : Db) (victim : HourlyRow → Bool) :
    (lostHourly db { db with hourly := db.hourly.delete victim }).length =
      db.hourly.count victim := by
  rw [lostHourly, ← List.countP_eq_length_filter]
  apply List.countP_congr
  intro row hr
  rw [Option.isNone_iff_eq_none, hourlyAt, Table.find?_eq_none]
  constructor
  · intro h
    by_contra hv
    have stays := (Table.mem_delete _ _ _).mpr ⟨hr, Bool.eq_false_iff.mpr hv⟩
    have absent := h row stays
    simp at absent
  · intro hv row' hr'
    obtain ⟨mem, kept⟩ := (Table.mem_delete _ _ _).mp hr'
    apply decide_eq_false
    intro same
    rw [db.hourly.eq_of_clash row' row mem hr same, hv] at kept
    cases kept

/-- Upserts keep every hourly row there was. -/
theorem Rolled.hourly_kept {cutoff now : DateTime} {batchSize n : Nat} {db db' : Db}
    (rolled : Rolled cutoff now batchSize n db db') (key : Uuid × DateTime)
    (h : (hourlyAt key db.hourly).isSome = true ∨
      ∃ r ∈ pendingReports cutoff batchSize db, hourKey r = key) :
    (hourlyAt key db'.hourly).isSome = true := by
  obtain ⟨fault, i, u, db₁, upserted, hourly⟩ := rolled.upserts
  obtain ⟨each, others⟩ := upsertAll_ok fault now _ i u db db₁ (bucketValues_distinct _) upserted
  rw [hourly]
  by_cases touched : ∃ a ∈ bucketValues (bucketsOf (pendingReports cutoff batchSize db)), a.key = key
  · obtain ⟨a, ha, rfl⟩ := touched
    rw [each a ha]
    rfl
  · have away : ∀ a ∈ bucketValues (bucketsOf (pendingReports cutoff batchSize db)), a.key ≠ key :=
      fun a ha same => touched ⟨a, ha, same⟩
    rw [others key away]
    refine h.resolve_right fun bucket => ?_
    obtain ⟨r, hr, hk⟩ := bucket
    cases found : (bucketsOf (pendingReports cutoff batchSize db)).get? key with
    | none =>
      have empty := (bucketsOf_exact _ key).1 found
      have mem : r ∈ rowsOf key (pendingReports cutoff batchSize db) :=
        List.mem_filter.mpr ⟨hr, decide_eq_true hk⟩
      rw [empty] at mem
      cases mem
    | some a =>
      have same := ((bucketsOf_exact _ key).2 a found).1
      exact away a ((mem_bucketValues _ a).mpr (same.symm ▸ found)) same

section
variable {f : Faults} {cutoff now : DateTime} {batchSize n : Nat} {db db' : Db}

theorem rolled_accounts (h : aggregateRawBatch f cutoff now batchSize db = (.ok n, db')) :
    (merges (.aggregateRawBatch f cutoff now batchSize) db).length = n ∧ lostReports db db' = [] ∧
      lostHourly db db' = [] := by
  have rolled := aggregateRawBatch_ok f cutoff now batchSize n db db' h
  refine ⟨?_, ?_, ?_⟩
  · have answer := rolled.answer
    rw [← length_pendingReports] at answer
    cases n with
    | zero => simp [merges, h]
    | succ n =>
      simp only [merges, h]
      exact answer.symm
  · apply lostReports_nil
    intro r hr
    rw [rolled.frame]
    cases mark : toMark ((pendingReports cutoff batchSize db).map MetricReport.reportId) r with
    | true => exact ⟨_, (mem_markAggregated _ _ _ _).mpr (Or.inl ⟨r, hr, mark, rfl⟩), rfl⟩
    | false => exact ⟨r, (mem_markAggregated _ _ _ _).mpr (Or.inr ⟨hr, mark⟩), rfl⟩
  · apply lostHourly_nil
    intro row hr
    apply rolled.hourly_kept
    rw [(hourlyAt_eq_some _ _ row).mpr ⟨hr, rfl⟩]
    exact Or.inl rfl

theorem deleted_accounts (h : deleteAggregatedRawBatch f batchSize db = (.ok n, db')) :
    (lostReports db db').length = n ∧ lostHourly db db' = [] := by
  obtain ⟨answer, rfl⟩ := deleteAggregatedRawBatch_ok f batchSize n db db' h
  rw [answer]
  exact ⟨length_lostReports_delete db _, lostHourly_same _ _ rfl⟩

theorem expired_accounts (h : deleteExpiredAggregateBatch f cutoff batchSize db = (.ok n, db')) :
    lostReports db db' = [] ∧ (lostHourly db db').length = n := by
  obtain ⟨answer, rfl⟩ := deleteExpiredAggregateBatch_ok f cutoff batchSize n db db' h
  rw [answer]
  exact ⟨lostReports_nil _ _ fun r hr => ⟨r, hr, rfl⟩, length_lostHourly_delete db _⟩

end

/-- The count of a transaction is that of the rows it changed, all of one kind. -/
structure StageCount (c : RetentionConfig) (op : Op) (k n : Nat) (db : Db) : Prop where
  small : n ≤ c.batchSize
  merged : (merges op db).length = if k % 3 = 0 then n else 0
  deleted : (lostReports db (op.exec db).2).length = if k % 3 = 1 then n else 0
  expired : (lostHourly db (op.exec db).2).length = if k % 3 = 2 then n else 0

theorem stageCount (c : RetentionConfig) (rawCutoff aggregateCutoff now : DateTime) (f : Faults)
    (k n : Nat) (db db₁ : Db)
    (h : (transaction c rawCutoff aggregateCutoff now f k).exec db = (.retention (.ok n), db₁)) :
    StageCount c (transaction c rawCutoff aggregateCutoff now f k) k n db := by
  obtain ⟨turn, ran⟩ | ⟨turn, ran⟩ | ⟨turn, ran⟩ := transaction_cases h
  · simp only [transaction, turn]
    have accounts := rolled_accounts ran
    have answer := (aggregateRawBatch_ok _ _ _ _ _ _ _ ran).answer
    refine ⟨by omega, ?_, ?_, ?_⟩
    · simp [turn, accounts.1]
    · simp [turn, Op.exec, ran, accounts.2.1]
    · simp [turn, Op.exec, ran, accounts.2.2]
  · simp only [transaction, turn]
    have accounts := deleted_accounts ran
    have answer := deleteAggregatedRawBatch_counts _ rawCutoff _ _ _ _ ran
    refine ⟨by omega, ?_, ?_, ?_⟩
    · simp [turn, merges]
    · simp [turn, Op.exec, ran, accounts.1]
    · simp [turn, Op.exec, ran, accounts.2]
  · simp only [transaction, turn]
    have accounts := expired_accounts ran
    have answer := deleteExpiredAggregateBatch_counts _ _ _ _ _ _ ran
    refine ⟨by omega, ?_, ?_, ?_⟩
    · simp [turn, merges]
    · simp [turn, Op.exec, ran, accounts.1]
    · simp [turn, Op.exec, ran, accounts.2]

/-- The counters never come near their limit. -/
theorem count_fields (o : RetentionRunOutcome) (n : Nat) (small : n ≤ 512)
    (aggregated : o.aggregatedReports ≤ 512 * 30) (deleted : o.deletedRawReports ≤ 512 * 30)
    (expired : o.deletedHourlyAggregates ≤ 512 * 30) :
    (o.count n).aggregatedReports = o.aggregatedReports + (if o.transactions % 3 = 0 then n else 0) ∧
    (o.count n).deletedRawReports = o.deletedRawReports + (if o.transactions % 3 = 1 then n else 0) ∧
    (o.count n).deletedHourlyAggregates =
      o.deletedHourlyAggregates + if o.transactions % 3 = 2 then n else 0 := by
  obtain turn | turn | turn :
      o.transactions % 3 = 0 ∨ o.transactions % 3 = 1 ∨ o.transactions % 3 = 2 := by omega
  · simp only [RetentionRunOutcome.count, RetentionRunOutcome.add, saturatingAdd, turn]
    simp
    omega
  · simp only [RetentionRunOutcome.count, RetentionRunOutcome.add, saturatingAdd, turn]
    simp
    omega
  · simp only [RetentionRunOutcome.count, RetentionRunOutcome.add, saturatingAdd, turn]
    simp
    omega

/-- Counters that hold what so many transactions can change at most. -/
structure Within (o : RetentionRunOutcome) (k : Nat) : Prop where
  transactions : o.transactions = k
  aggregated : o.aggregatedReports ≤ 512 * k
  deleted : o.deletedRawReports ≤ 512 * k
  expired : o.deletedHourlyAggregates ≤ 512 * k

theorem Within.count {o : RetentionRunOutcome} {k n : Nat} (within : Within o k) (small : n ≤ 512)
    (bound : k < 30) : Within (o.count n) (k + 1) := by
  have aggregated := within.aggregated
  have deleted := within.deleted
  have expired := within.expired
  have turn := within.transactions
  obtain ⟨a, d, e⟩ := count_fields o n small (by omega) (by omega) (by omega)
  have bits (p : Prop) [Decidable p] : (if p then n else 0) ≤ 512 := by
    split_ifs
    · exact small
    · exact Nat.zero_le _
  have first := bits (o.transactions % 3 = 0)
  have second := bits (o.transactions % 3 = 1)
  have third := bits (o.transactions % 3 = 2)
  refine ⟨?_, by omega, by omega, by omega⟩
  rw [count_transactions o n (by omega), turn]

theorem stages_succ (c : RetentionConfig) (rawCutoff aggregateCutoff now : DateTime) (k n : Nat) :
    stages c rawCutoff aggregateCutoff now k (n + 1) =
      transaction c rawCutoff aggregateCutoff now .none k ::
        stages c rawCutoff aggregateCutoff now (k + 1) n := rfl

theorem spent_accounts (c : RetentionConfig) (rawCutoff aggregateCutoff now : DateTime)
    (k : Nat) (ns : List Nat) (db db' : Db)
    (h : Spent (fun _ => .none) c rawCutoff aggregateCutoff now k db ns db')
    (o : RetentionRunOutcome) (within : Within o k) (bound : k + ns.length ≤ 30) :
    db' = reached (stages c rawCutoff aggregateCutoff now k ns.length) db ∧
    (tally o ns).transactions = k + ns.length ∧
    (tally o ns).aggregatedReports = o.aggregatedReports +
      (along merges (stages c rawCutoff aggregateCutoff now k ns.length) db).length ∧
    (tally o ns).deletedRawReports = o.deletedRawReports +
      (along (fun op db => lostReports db (op.exec db).2)
        (stages c rawCutoff aggregateCutoff now k ns.length) db).length ∧
    (tally o ns).deletedHourlyAggregates = o.deletedHourlyAggregates +
      (along (fun op db => lostHourly db (op.exec db).2)
        (stages c rawCutoff aggregateCutoff now k ns.length) db).length := by
  induction h generalizing o with
  | done k db => exact ⟨rfl, within.transactions, rfl, rfl, rfl⟩
  | @next k n ns db db₁ db' first rest ih =>
    rw [List.length_cons] at bound
    have one := stageCount c rawCutoff aggregateCutoff now .none k n db db₁ first
    have small : n ≤ 512 := one.small.trans c.budget.1.2
    have aggregated := within.aggregated
    have deleted := within.deleted
    have expired := within.expired
    have fields := count_fields o n small (by omega) (by omega) (by omega)
    rw [within.transactions] at fields
    obtain ⟨state, transactions, a, d, e⟩ := ih (o.count n) (within.count small (by omega)) (by omega)
    have next : ((transaction c rawCutoff aggregateCutoff now .none k).exec db).2 = db₁ :=
      congrArg Prod.snd first
    have merged := one.merged
    have lost := one.deleted
    have gone := one.expired
    rw [next] at lost gone
    rw [List.length_cons, stages_succ]
    simp only [tally, List.foldl_cons, reached, along, List.length_append, next] at *
    refine ⟨state, by omega, ?_, ?_, ?_⟩
    · rw [a, fields.1, merged, Nat.add_assoc]
    · rw [d, fields.2.1, lost, Nat.add_assoc]
    · rw [e, fields.2.2, gone, Nat.add_assoc]

/-- Without faults every answered run accounts for what it did. -/
theorem cycle_accounts (c : RetentionConfig) (rawCutoff aggregateCutoff now : DateTime)
    (o : RetentionRunOutcome) (db db' : Db)
    (h : (cycle (fun _ => .none) c rawCutoff aggregateCutoff now {}).run db = (.ok o, db')) :
    Accounts c rawCutoff aggregateCutoff now o db db' := by
  obtain ⟨ns, spent, rfl, within, _⟩ := cycle_ok _ c rawCutoff aggregateCutoff now {} o db db' rfl
    (Nat.zero_le _) h
  have most := c.budget.2.2
  rw [Nat.zero_add] at within
  have start : Within {} 0 := ⟨rfl, le_refl _, le_refl _, le_refl _⟩
  obtain ⟨state, transactions, merged, deleted, expired⟩ :=
    spent_accounts c rawCutoff aggregateCutoff now 0 ns db db' spent {} start (by omega)
  rw [Nat.zero_add] at transactions
  rw [Nat.zero_add] at merged deleted expired
  refine ⟨by omega, ?_, ?_, ?_, ?_⟩
  · rw [transactions]
    exact state
  · rw [transactions]
    exact merged
  · rw [transactions]
    exact deleted
  · rw [transactions]
    exact expired

end HostMonitoring.Retention
