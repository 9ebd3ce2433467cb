import HostMonitoring.Framework.Pipeline
import HostMonitoring.Retention.Backlog
import HostMonitoring.Retention.Config
import HostMonitoring.Store.System

namespace HostMonitoring.Retention

open HostMonitoring.Framework
open HostMonitoring.Framework.Tx
open HostMonitoring.Store

structure RetentionRunOutcome where
  aggregatedReports : Nat := 0
  deletedRawReports : Nat := 0
  deletedHourlyAggregates : Nat := 0
  transactions : Nat := 0
deriving DecidableEq

def saturatingAdd (a b : Nat) : Nat := min (a + b) (2 ^ 64 - 1)

def RetentionRunOutcome.add (o other : RetentionRunOutcome) : RetentionRunOutcome where
  aggregatedReports := saturatingAdd o.aggregatedReports other.aggregatedReports
  deletedRawReports := saturatingAdd o.deletedRawReports other.deletedRawReports
  deletedHourlyAggregates := saturatingAdd o.deletedHourlyAggregates other.deletedHourlyAggregates
  transactions := saturatingAdd o.transactions other.transactions

/-- A call with a transaction of its own. -/
def call {α : Type} (run : Db → Except StoreError α × Db) : Tx Db StoreError α := ⟨run⟩

def context {α : Type} (value : Option α) (message : String) : Tx Db StoreError α :=
  match value with
  | some a => pure a
  | none => fail (.ensure message)

/-- The `while` loop of `run_cycle_at`; the faults are those of the transaction
with that number. -/
def cycle (faults : Nat → Faults) (c : RetentionConfig) (rawCutoff aggregateCutoff now : DateTime)
    (outcome : RetentionRunOutcome) : Tx Db StoreError RetentionRunOutcome :=
  if _running : outcome.transactions < c.maxTransactionsPerRun then do
    let rolled ← call (aggregateRawBatch (faults outcome.transactions) rawCutoff now c.batchSize)
    let merged := outcome.add { aggregatedReports := rolled, transactions := 1 }
    if c.maxTransactionsPerRun ≤ merged.transactions then return merged
    else do
      let deleted ← call (deleteAggregatedRawBatch (faults merged.transactions) c.batchSize)
      let removed := merged.add { deletedRawReports := deleted, transactions := 1 }
      if c.maxTransactionsPerRun ≤ removed.transactions then return removed
      else do
        let deletedAggregates ← call (deleteExpiredAggregateBatch (faults removed.transactions)
          aggregateCutoff c.batchSize)
        let next := removed.add { deletedHourlyAggregates := deletedAggregates, transactions := 1 }
        if rolled = 0 ∧ deleted = 0 ∧ deletedAggregates = 0 then return next
        else cycle faults c rawCutoff aggregateCutoff now next
  else pure outcome
termination_by c.maxTransactionsPerRun - outcome.transactions
decreasing_by
  have most := c.budget.2.2
  simp only [RetentionRunOutcome.add, saturatingAdd]
  omega

def runCycleAt (faults : Nat → Faults) (c : RetentionConfig) (now : DateTime) (db : Db) :
    Except StoreError RetentionRunOutcome × Db :=
  Tx.run (do
    let rawCutoff ← context (now.checkedSubSigned c.rawRetention)
      "raw telemetry cutoff is outside the supported range"
    let aggregateCutoff ← context (now.checkedSubSigned c.aggregateRetention)
      "aggregate telemetry cutoff is outside the supported range"
    cycle faults c rawCutoff aggregateCutoff now {}) db

/-- The transaction with the number `k` of a run: the three calls take turns. -/
def transaction (c : RetentionConfig) (rawCutoff aggregateCutoff now : DateTime) (f : Faults)
    (k : Nat) : Op :=
  match k % 3 with
  | 0 => .aggregateRawBatch f rawCutoff now c.batchSize
  | 1 => .deleteAggregatedRawBatch f c.batchSize
  | _ => .deleteExpiredAggregateBatch f aggregateCutoff c.batchSize

/-- The transactions from number `k` on, each answered with how many rows it
changed, lead from one store to another. -/
inductive Spent (faults : Nat → Faults) (c : RetentionConfig)
    (rawCutoff aggregateCutoff now : DateTime) : Nat → Db → List Nat → Db → Prop where
  | done (k : Nat) (db : Db) : Spent faults c rawCutoff aggregateCutoff now k db [] db
  | next {k n : Nat} {ns : List Nat} {db db₁ db' : Db}
      (first : (transaction c rawCutoff aggregateCutoff now (faults k) k).exec db =
        (.retention (.ok n), db₁))
      (rest : Spent faults c rawCutoff aggregateCutoff now (k + 1) db₁ ns db') :
      Spent faults c rawCutoff aggregateCutoff now k db (n :: ns) db'

/-- The count of one more transaction goes to the call whose turn it is. -/
def RetentionRunOutcome.count (o : RetentionRunOutcome) (n : Nat) : RetentionRunOutcome :=
  o.add (match o.transactions % 3 with
    | 0 => { aggregatedReports := n, transactions := 1 }
    | 1 => { deletedRawReports := n, transactions := 1 }
    | _ => { deletedHourlyAggregates := n, transactions := 1 })

def tally (o : RetentionRunOutcome) (ns : List Nat) : RetentionRunOutcome := ns.foldl .count o

/-- Nothing is left for any of the three calls. -/
structure Idle (rawCutoff aggregateCutoff : DateTime) (db : Db) : Prop where
  pending : pendingCount rawCutoff db = 0
  deletable : deletableCount db = 0
  expired : expiredCount aggregateCutoff db = 0

theorem count_transactions (o : RetentionRunOutcome) (n : Nat) (small : o.transactions < 30) :
    (o.count n).transactions = o.transactions + 1 := by
  have one : ((match o.transactions % 3 with
    | 0 => { aggregatedReports := n, transactions := 1 }
    | 1 => { deletedRawReports := n, transactions := 1 }
    | _ => { deletedHourlyAggregates := n, transactions := 1 }) : RetentionRunOutcome).transactions =
      1 := by
    split <;> rfl
  change saturatingAdd o.transactions _ = _
  rw [one, saturatingAdd]
  omega

theorem count_aggregated (o : RetentionRunOutcome) (n : Nat) (turn : o.transactions % 3 = 0) :
    o.add { aggregatedReports := n, transactions := 1 } = o.count n := by
  simp only [RetentionRunOutcome.count, turn]

theorem count_deleted (o : RetentionRunOutcome) (n : Nat) (turn : o.transactions % 3 = 1) :
    o.add { deletedRawReports := n, transactions := 1 } = o.count n := by
  simp only [RetentionRunOutcome.count, turn]

theorem count_expired (o : RetentionRunOutcome) (n : Nat) (turn : o.transactions % 3 = 2) :
    o.add { deletedHourlyAggregates := n, transactions := 1 } = o.count n := by
  simp only [RetentionRunOutcome.count, turn]

theorem idle_of_zeros (f g e : Faults) (c : RetentionConfig)
    (rawCutoff aggregateCutoff now : DateTime) (db db₁ db₂ db₃ : Db)
    (rolled : aggregateRawBatch f rawCutoff now c.batchSize db = (.ok 0, db₁))
    (deleted : deleteAggregatedRawBatch g c.batchSize db₁ = (.ok 0, db₂))
    (expired : deleteExpiredAggregateBatch e aggregateCutoff c.batchSize db₂ = (.ok 0, db₃)) :
    Idle rawCutoff aggregateCutoff db₃ := by
  have positive := c.budget.1.1
  have first := aggregateRawBatch_ok f rawCutoff now c.batchSize 0 db db₁ rolled
  have moved := first.counts
  have second := deleteAggregatedRawBatch_counts g rawCutoff c.batchSize 0 db₁ db₂ deleted
  have third := deleteExpiredAggregateBatch_counts e aggregateCutoff c.batchSize 0 db₂ db₃ expired
  have none := first.answer
  have same := counts_congr rawCutoff db₂ db₃ third.2.2.1 third.2.2.2
  exact ⟨by omega, by omega, by omega⟩

section
variable (faults : Nat → Faults) (c : RetentionConfig) (rawCutoff aggregateCutoff now : DateTime)
  {k n : Nat} {db db₁ : Db}

theorem transaction_aggregates (turn : k % 3 = 0)
    (h : aggregateRawBatch (faults k) rawCutoff now c.batchSize db = (.ok n, db₁)) :
    (transaction c rawCutoff aggregateCutoff now (faults k) k).exec db =
      (.retention (.ok n), db₁) := by
  simp only [transaction, turn, Op.exec, h]
  rfl

theorem transaction_deletes (turn : k % 3 = 1)
    (h : deleteAggregatedRawBatch (faults k) c.batchSize db = (.ok n, db₁)) :
    (transaction c rawCutoff aggregateCutoff now (faults k) k).exec db =
      (.retention (.ok n), db₁) := by
  simp only [transaction, turn, Op.exec, h]
  rfl

theorem transaction_expires (turn : k % 3 = 2)
    (h : deleteExpiredAggregateBatch (faults k) aggregateCutoff c.batchSize db = (.ok n, db₁)) :
    (transaction c rawCutoff aggregateCutoff now (faults k) k).exec db =
      (.retention (.ok n), db₁) := by
  simp only [transaction, turn, Op.exec, h]
  rfl

end

theorem answered_call {run : Except StoreError Nat × Db} {n : Nat} {db : Db}
    (h : Prod.map Reply.retention id run = (.retention (.ok n), db)) : run = (.ok n, db) := by
  obtain ⟨r, s⟩ := run
  simpa using h

/-- An answered transaction is the answered call whose turn it was. -/
theorem transaction_cases {c : RetentionConfig} {rawCutoff aggregateCutoff now : DateTime}
    {f : Faults} {k n : Nat} {db db₁ : Db}
    (h : (transaction c rawCutoff aggregateCutoff now f k).exec db = (.retention (.ok n), db₁)) :
    (k % 3 = 0 ∧ aggregateRawBatch f rawCutoff now c.batchSize db = (.ok n, db₁)) ∨
    (k % 3 = 1 ∧ deleteAggregatedRawBatch f c.batchSize db = (.ok n, db₁)) ∨
    (k % 3 = 2 ∧ deleteExpiredAggregateBatch f aggregateCutoff c.batchSize db = (.ok n, db₁)) := by
  obtain turn | turn | turn : k % 3 = 0 ∨ k % 3 = 1 ∨ k % 3 = 2 := by omega
  · simp only [transaction, turn, Op.exec] at h
    exact Or.inl ⟨turn, answered_call h⟩
  · simp only [transaction, turn, Op.exec] at h
    exact Or.inr (Or.inl ⟨turn, answered_call h⟩)
  · simp only [transaction, turn, Op.exec] at h
    exact Or.inr (Or.inr ⟨turn, answered_call h⟩)

/-- A loop that answers spent its budget, or stopped where nothing was left. -/
theorem cycle_ok (faults : Nat → Faults) (c : RetentionConfig)
    (rawCutoff aggregateCutoff now : DateTime) (o o' : RetentionRunOutcome) (db db' : Db)
    (aligned : o.transactions % 3 = 0)
    (within : o.transactions ≤ c.maxTransactionsPerRun)
    (h : (cycle faults c rawCutoff aggregateCutoff now o).run db = (.ok o', db')) :
    ∃ ns, Spent faults c rawCutoff aggregateCutoff now o.transactions db ns db' ∧ o' = tally o ns ∧
      o.transactions + ns.length ≤ c.maxTransactionsPerRun ∧
      (o.transactions + ns.length = c.maxTransactionsPerRun ∨
        Idle rawCutoff aggregateCutoff db') := by
  generalize remaining : c.maxTransactionsPerRun - o.transactions = n
  induction n using Nat.strong_induction_on generalizing o db with
  | _ n ih =>
    have most := c.budget.2.2
    rw [cycle] at h
    split_ifs at h with running
    · rw [bind_ok] at h
      obtain ⟨rolled, db₁, hr, h⟩ := h
      have number₁ := count_transactions o rolled (by omega)
      have first := transaction_aggregates faults c rawCutoff aggregateCutoff now aligned hr
      dsimp only at h
      rw [count_aggregated o rolled aligned] at h
      split_ifs at h with full₁
      · rw [pure_ok] at h
        rw [h.1, h.2]
        exact ⟨[rolled], .next first (.done _ _), rfl, by simp; omega, Or.inl (by simp; omega)⟩
      · rw [bind_ok] at h
        obtain ⟨deleted, db₂, hd, h⟩ := h
        have number₂ := count_transactions (o.count rolled) deleted (by omega)
        have second := transaction_deletes faults c rawCutoff aggregateCutoff now (by omega) hd
        rw [count_deleted (o.count rolled) deleted (by omega)] at h
        rw [number₁] at second
        split_ifs at h with full₂
        · rw [pure_ok] at h
          rw [h.1, h.2]
          exact ⟨[rolled, deleted], .next first (.next second (.done _ _)), rfl, by simp; omega,
            Or.inl (by simp; omega)⟩
        · rw [bind_ok] at h
          obtain ⟨expired, db₃, he, h⟩ := h
          have number₃ := count_transactions ((o.count rolled).count deleted) expired (by omega)
          have third := transaction_expires faults c rawCutoff aggregateCutoff now (by omega) he
          rw [count_expired ((o.count rolled).count deleted) expired (by omega)] at h
          rw [number₂, number₁] at third
          split_ifs at h with zeros
          · rw [pure_ok] at h
            obtain ⟨rfl, rfl, rfl⟩ := zeros
            rw [h.1, h.2]
            refine ⟨[0, 0, 0], .next first (.next second (.next third (.done _ _))), rfl, ?_, ?_⟩
            · simp
              omega
            · exact Or.inr (idle_of_zeros _ _ _ c _ _ now db db₁ db₂ db₃ hr hd he)
          · obtain ⟨ns, spent, total, bounded, ending⟩ := ih _ (by omega)
              (((o.count rolled).count deleted).count expired) db₃ (by omega) (by omega) h rfl
            rw [number₃, number₂, number₁] at spent bounded ending
            refine ⟨rolled :: deleted :: expired :: ns,
              .next first (.next second (.next third spent)), total, ?_, ?_⟩
            · simp only [List.length_cons]
              omega
            · refine ending.imp_left fun full => ?_
              simp only [List.length_cons]
              omega
    · rw [pure_ok] at h
      rw [h.1, h.2]
      exact ⟨[], .done _ _, rfl, within, Or.inl (by rw [List.length_nil]; omega)⟩

end HostMonitoring.Retention
