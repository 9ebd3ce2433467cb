import HostMonitoring.Data.TimeOrder
import HostMonitoring.Retention.Accounts
import Mathlib.Data.Prod.Lex
import Mathlib.Logic.Function.Iterate
import Mathlib.Order.OrderIsoNat

namespace HostMonitoring.Retention

open HostMonitoring.Framework
open HostMonitoring.Framework.Tx
open HostMonitoring.Store
open HostMonitoring.DateTime

/-- What is left to do: first to merge, then to delete. Merging makes more to delete. -/
def backlog (rawCutoff aggregateCutoff : DateTime) (db : Db) : Nat ×ₗ Nat :=
  toLex (pendingCount rawCutoff db, deletableCount db + expiredCount aggregateCutoff db)

theorem rolled_nothing {cutoff now : DateTime} {batchSize : Nat} {db db' : Db}
    (rolled : Rolled cutoff now batchSize 0 db db') : db' = db := by
  have nothing : pendingReports cutoff batchSize db = [] := by
    rw [← List.length_eq_zero_iff, length_pendingReports]
    exact rolled.answer.symm
  have frame := rolled.frame
  obtain ⟨fault, i, u, db₁, upserted, hourly⟩ := rolled.upserts
  rw [nothing, bucketValues_nil] at upserted
  obtain ⟨_, rfl⟩ := (pure_ok _ _ _ _).mp upserted
  rw [frame, hourly, nothing, List.map_nil, markAggregated_nil]

/-- A transaction shortens what is left when it counts rows, and else changes nothing. -/
theorem transaction_backlog (c : RetentionConfig) (rawCutoff aggregateCutoff now : DateTime)
    (f : Faults) (k n : Nat) (db db₁ : Db)
    (h : (transaction c rawCutoff aggregateCutoff now f k).exec db = (.retention (.ok n), db₁)) :
    (n = 0 → db₁ = db) ∧
      (0 < n → backlog rawCutoff aggregateCutoff db₁ < backlog rawCutoff aggregateCutoff db) := by
  rw [backlog, backlog, Prod.Lex.toLex_lt_toLex]
  dsimp only
  obtain ⟨_, ran⟩ | ⟨_, ran⟩ | ⟨_, ran⟩ := transaction_cases h
  · have rolled := aggregateRawBatch_ok _ _ _ _ _ _ _ ran
    have counts := rolled.counts
    refine ⟨fun none => ?_, by omega⟩
    subst none
    exact rolled_nothing rolled
  · have counts := deleteAggregatedRawBatch_counts _ rawCutoff _ _ _ _ ran
    obtain ⟨answer, state⟩ := deleteAggregatedRawBatch_ok _ _ _ _ _ ran
    have same : expiredCount aggregateCutoff db₁ = expiredCount aggregateCutoff db := by
      rw [state]
      rfl
    refine ⟨fun none => ?_, by omega⟩
    rw [state, delete_nothing _ _ (answer.symm.trans none)]
  · have counts := deleteExpiredAggregateBatch_counts _ _ _ _ _ _ ran
    obtain ⟨answer, state⟩ := deleteExpiredAggregateBatch_ok _ _ _ _ _ _ ran
    have same := counts_congr rawCutoff db db₁ counts.2.2.1 counts.2.2.2
    refine ⟨fun none => ?_, by omega⟩
    rw [state, delete_nothing _ _ (answer.symm.trans none)]

theorem spent_backlog (faults : Nat → Faults) (c : RetentionConfig)
    (rawCutoff aggregateCutoff now : DateTime) (k : Nat) (ns : List Nat) (db db' : Db)
    (h : Spent faults c rawCutoff aggregateCutoff now k db ns db') :
    ((∀ n ∈ ns, n = 0) ∧ db' = db) ∨
      backlog rawCutoff aggregateCutoff db' < backlog rawCutoff aggregateCutoff db := by
  induction h with
  | done k db => exact Or.inl ⟨fun n hn => absurd hn List.not_mem_nil, rfl⟩
  | @next k n ns db db₁ db' first rest ih =>
    obtain ⟨same, less⟩ := transaction_backlog c _ _ now _ k n db db₁ first
    obtain rfl | positive := Nat.eq_zero_or_pos n
    · rw [same rfl] at ih
      refine ih.imp_left fun zeros => ⟨?_, zeros.2⟩
      intro m hm
      obtain rfl | hm := List.mem_cons.mp hm
      · rfl
      · exact zeros.1 m hm
    · obtain ⟨_, rfl⟩ | less' := ih
      · exact Or.inr (less positive)
      · exact Or.inr (less'.trans (less positive))

/-- What the transaction with the number `k` finds to do. -/
def left (rawCutoff aggregateCutoff : DateTime) (k : Nat) (db : Db) : Nat :=
  if k % 3 = 0 then pendingCount rawCutoff db
  else if k % 3 = 1 then deletableCount db
  else expiredCount aggregateCutoff db

theorem transaction_answer (c : RetentionConfig) (rawCutoff aggregateCutoff now : DateTime)
    (f : Faults) (k n : Nat) (db db₁ : Db)
    (h : (transaction c rawCutoff aggregateCutoff now f k).exec db = (.retention (.ok n), db₁)) :
    n = min c.batchSize (left rawCutoff aggregateCutoff k db) := by
  obtain ⟨turn, ran⟩ | ⟨turn, ran⟩ | ⟨turn, ran⟩ := transaction_cases h
  · simp only [left, turn, if_true]
    exact (aggregateRawBatch_ok _ _ _ _ _ _ _ ran).answer
  · simp only [left, turn, if_true, if_false, Nat.one_ne_zero]
    exact (deleteAggregatedRawBatch_counts _ rawCutoff _ _ _ _ ran).1
  · simp only [left, turn]
    exact (deleteExpiredAggregateBatch_counts _ _ _ _ _ _ ran).1

theorem idle_iff (rawCutoff aggregateCutoff : DateTime) (db : Db) :
    Idle rawCutoff aggregateCutoff db ↔ ∀ k < 3, left rawCutoff aggregateCutoff k db = 0 := by
  constructor
  · intro idle k hk
    unfold left
    split_ifs
    · exact idle.pending
    · exact idle.deletable
    · exact idle.expired
  · intro h
    exact ⟨h 0 (by decide), h 1 (by decide), h 2 (by decide)⟩

/-- Transactions that change nothing found nothing to do. -/
theorem left_of_zeros (faults : Nat → Faults) (c : RetentionConfig)
    (rawCutoff aggregateCutoff now : DateTime) (k : Nat) (ns : List Nat) (db db' : Db)
    (h : Spent faults c rawCutoff aggregateCutoff now k db ns db') (zeros : ∀ n ∈ ns, n = 0) :
    ∀ i < ns.length, left rawCutoff aggregateCutoff (k + i) db = 0 := by
  have positive := c.budget.1.1
  induction h with
  | done k db => exact fun i hi => absurd hi (Nat.not_lt_zero i)
  | @next k n ns db db₁ db' first rest ih =>
    have answer := transaction_answer c rawCutoff aggregateCutoff now _ k n db db₁ first
    have none := zeros n List.mem_cons_self
    have same : db₁ = db :=
      (transaction_backlog c rawCutoff aggregateCutoff now _ k n db db₁ first).1 none
    intro i hi
    cases i with
    | zero =>
      rw [Nat.add_zero]
      omega
    | succ i =>
      have later := ih (fun m hm => zeros m (List.mem_cons_of_mem n hm)) i (by simpa using hi)
      rw [same, Nat.add_right_comm, Nat.add_assoc] at later
      exact later

/-- Where nothing is left to do, transactions change nothing. -/
theorem spent_idle (faults : Nat → Faults) (c : RetentionConfig)
    (rawCutoff aggregateCutoff now : DateTime) (k : Nat) (ns : List Nat) (db db' : Db)
    (h : Spent faults c rawCutoff aggregateCutoff now k db ns db')
    (idle : Idle rawCutoff aggregateCutoff db) : (∀ n ∈ ns, n = 0) ∧ db' = db := by
  induction h with
  | done k db => exact ⟨fun n hn => absurd hn List.not_mem_nil, rfl⟩
  | @next k n ns db db₁ db' first rest ih =>
    have answer := transaction_answer c rawCutoff aggregateCutoff now _ k n db db₁ first
    have nothing := (idle_iff _ _ _).mp idle (k % 3) (Nat.mod_lt k (by decide))
    have none : n = 0 := by
      simp only [left, Nat.mod_mod] at nothing answer
      rw [answer, nothing, Nat.min_zero]
    have same : db₁ = db :=
      (transaction_backlog c rawCutoff aggregateCutoff now _ k n db db₁ first).1 none
    rw [same] at ih
    obtain ⟨zeros, unchanged⟩ := ih idle
    refine ⟨fun m hm => ?_, unchanged⟩
    obtain rfl | hm := List.mem_cons.mp hm
    · exact none
    · exact zeros m hm

/-- A run shortens what is left, or finds nothing to do and changes nothing. -/
theorem cycle_backlog (faults : Nat → Faults) (c : RetentionConfig)
    (rawCutoff aggregateCutoff now : DateTime) (o : RetentionRunOutcome) (db db' : Db)
    (h : (cycle faults c rawCutoff aggregateCutoff now {}).run db = (.ok o, db')) :
    (Idle rawCutoff aggregateCutoff db ∧ db' = db) ∨
      backlog rawCutoff aggregateCutoff db' < backlog rawCutoff aggregateCutoff db := by
  obtain ⟨ns, spent, _, _, ending⟩ := cycle_ok faults c rawCutoff aggregateCutoff now {} o db db' rfl
    (Nat.zero_le _) h
  refine (spent_backlog _ _ _ _ _ _ _ _ _ spent).imp_left fun unchanged => ⟨?_, unchanged.2⟩
  rw [unchanged.2] at ending
  obtain full | idle := ending
  · rw [Nat.zero_add] at full
    rw [idle_iff]
    intro k hk
    have least := c.budget.2.1
    have nothing := left_of_zeros _ _ _ _ _ _ _ _ _ spent unchanged.1 k (by omega)
    rw [Nat.zero_add] at nothing
    exact nothing
  · exact idle

theorem tally_zeros (ns : List Nat) (zeros : ∀ n ∈ ns, n = 0) (o : RetentionRunOutcome)
    (none : o.aggregatedReports = 0 ∧ o.deletedRawReports = 0 ∧ o.deletedHourlyAggregates = 0) :
    (tally o ns).aggregatedReports = 0 ∧ (tally o ns).deletedRawReports = 0 ∧
      (tally o ns).deletedHourlyAggregates = 0 := by
  induction ns generalizing o with
  | nil => exact none
  | cons n ns ih =>
    have first := zeros n List.mem_cons_self
    obtain ⟨a, d, e⟩ := count_fields o n (by omega) (by omega) (by omega) (by omega)
    apply ih (fun m hm => zeros m (List.mem_cons_of_mem n hm)) (o.count n)
    rw [a, d, e, first]
    simpa using none

theorem cycle_idle (c : RetentionConfig) (rawCutoff aggregateCutoff now : DateTime)
    (o : RetentionRunOutcome) (db db' : Db) (idle : Idle rawCutoff aggregateCutoff db)
    (h : (cycle (fun _ => .none) c rawCutoff aggregateCutoff now {}).run db = (.ok o, db')) :
    db' = db ∧ o.aggregatedReports = 0 ∧ o.deletedRawReports = 0 ∧ o.deletedHourlyAggregates = 0 := by
  obtain ⟨ns, spent, rfl, _⟩ := cycle_ok _ c rawCutoff aggregateCutoff now {} o db db' rfl
    (Nat.zero_le _) h
  obtain ⟨zeros, same⟩ := spent_idle _ _ _ _ _ _ _ _ _ spent idle
  exact ⟨same, tally_zeros ns zeros {} ⟨rfl, rfl, rfl⟩⟩

/-- Runs of the retention task at one clock reading, with nobody else writing. -/
def runs (c : RetentionConfig) (now : DateTime) (n : Nat) (db : Db) : Db :=
  (fun db => (runCycleAt (fun _ => .none) c now db).2)^[n] db

theorem runs_succ (c : RetentionConfig) (now : DateTime) (n : Nat) (db : Db) :
    runs c now (n + 1) db = (runCycleAt (fun _ => .none) c now (runs c now n db)).2 :=
  Function.iterate_succ_apply' _ n db

section
variable {c : RetentionConfig} {now rawCutoff aggregateCutoff : DateTime}
  (raw : now.checkedSubSigned c.rawRetention = some rawCutoff)
  (aggregate : now.checkedSubSigned c.aggregateRetention = some aggregateCutoff)
include raw aggregate

/-- Every run in a row is answered and leaves a state the store can reach. -/
theorem runs_reached (ops : List Op) (n : Nat) : ∃ past,
    runs c now n (store.after ops) = store.after past := by
  induction n with
  | zero => exact ⟨ops, rfl⟩
  | succ n ih =>
    obtain ⟨past, same⟩ := ih
    obtain ⟨o, db', ran, looped⟩ := runCycleAt_answers c now _ _ raw aggregate past
    have accounts := cycle_accounts c rawCutoff aggregateCutoff now o _ db' looped
    refine ⟨past ++ stages c rawCutoff aggregateCutoff now 0 o.transactions, ?_⟩
    rw [runs_succ, same, ran, ← reached_after]
    exact accounts.state

theorem run_answers (ops : List Op) (n : Nat) : ∃ o,
    runCycleAt (fun _ => .none) c now (runs c now n (store.after ops)) =
      (.ok o, runs c now (n + 1) (store.after ops)) ∧
    (cycle (fun _ => .none) c rawCutoff aggregateCutoff now {}).run (runs c now n (store.after ops)) =
      (.ok o, runs c now (n + 1) (store.after ops)) := by
  obtain ⟨past, same⟩ := runs_reached raw aggregate ops n
  obtain ⟨o, db', ran, looped⟩ := runCycleAt_answers c now _ _ raw aggregate past
  rw [← same] at ran looped
  have next : runs c now (n + 1) (store.after ops) = db' := by rw [runs_succ, ran]
  rw [next]
  exact ⟨o, ran, looped⟩

/-- After finitely many runs there is nothing left to do. -/
theorem runs_idle (ops : List Op) :
    ∃ n, Idle rawCutoff aggregateCutoff (runs c now n (store.after ops)) := by
  by_contra never
  rw [not_exists] at never
  have falls (n : Nat) : backlog rawCutoff aggregateCutoff (runs c now (n + 1) (store.after ops)) <
      backlog rawCutoff aggregateCutoff (runs c now n (store.after ops)) := by
    obtain ⟨o, _, looped⟩ := run_answers raw aggregate ops n
    obtain ⟨idle, _⟩ | less := cycle_backlog _ c _ _ _ _ _ _ looped
    · exact absurd idle (never n)
    · exact less
  have descending : StrictAnti fun n =>
      backlog rawCutoff aggregateCutoff (runs c now n (store.after ops)) :=
    strictAnti_nat_of_succ_lt falls
  exact not_strictAnti_of_wellFoundedLT _ descending

/-- Once there is nothing left to do, it stays so. -/
theorem runs_still (ops : List Op) (n m : Nat)
    (idle : Idle rawCutoff aggregateCutoff (runs c now n (store.after ops))) (h : n ≤ m) :
    runs c now m (store.after ops) = runs c now n (store.after ops) := by
  induction m, h using Nat.le_induction with
  | base => rfl
  | succ m _ ih =>
    obtain ⟨o, _, looped⟩ := run_answers raw aggregate ops m
    rw [ih] at looped
    exact (cycle_idle c _ _ _ _ _ _ idle looped).1

end

/-- A raw row that no run touches. -/
def Stays (rawCutoff : DateTime) (db : Db) (r : MetricReport) : Prop :=
  isLatest db r = true ∨ (r.aggregatedAt = none ∧ sqlLt r.collectedAt rawCutoff = false)

/-- What transactions leave of a store: the rows that stay, no new rows to merge, and
hourly rows only where there was one or a row to merge. -/
structure Descends (rawCutoff : DateTime) (db db' : Db) : Prop where
  hosts : db'.hosts = db.hosts
  stays : ∀ r, Stays rawCutoff db r → (r ∈ db'.reports ↔ r ∈ db.reports)
  unmarked : ∀ r ∈ db'.reports, r.aggregatedAt = none → r ∈ db.reports
  origin : ∀ row ∈ db'.hourly, (∃ row₀ ∈ db.hourly, row₀.key = row.key) ∨
    ∃ r ∈ db.reports, isPending rawCutoff db r = true ∧ hourKey r = row.key

namespace Descends

variable {rawCutoff : DateTime} {db db₁ db₂ : Db}

theorem refl (db : Db) : Descends rawCutoff db db where
  hosts := rfl
  stays _ _ := Iff.rfl
  unmarked _ hr _ := hr
  origin row hr := Or.inl ⟨row, hr, rfl⟩

theorem trans (h : Descends rawCutoff db db₁) (h' : Descends rawCutoff db₁ db₂) :
    Descends rawCutoff db db₂ where
  hosts := h'.hosts.trans h.hosts
  stays r still := by
    have later : Stays rawCutoff db₁ r := by
      rw [Stays, isLatest_congr db db₁ h.hosts]
      exact still
    exact (h'.stays r later).trans (h.stays r still)
  unmarked r hr none := h.unmarked r (h'.unmarked r hr none) none
  origin row hr := by
    obtain ⟨row₁, hr₁, same⟩ | ⟨r, hr₁, pending, key⟩ := h'.origin row hr
    · rw [← same]
      exact h.origin row₁ hr₁
    · obtain ⟨none, before, latest⟩ := (isPending_iff _ _ _).mp pending
      rw [isLatest_congr db db₁ h.hosts] at latest
      exact Or.inr ⟨r, h.unmarked r hr₁ none, (isPending_iff _ _ _).mpr ⟨none, before, latest⟩, key⟩

end Descends

theorem pending_not_stays {rawCutoff : DateTime} {db : Db} {r : MetricReport}
    (pending : isPending rawCutoff db r = true) : ¬Stays rawCutoff db r := by
  obtain ⟨_, before, latest⟩ := (isPending_iff _ _ _).mp pending
  rintro (still | ⟨_, after⟩)
  · rw [latest] at still
    cases still
  · rw [before] at after
    cases after

theorem Rolled.descends {cutoff now : DateTime} {batchSize n : Nat} {db db' : Db}
    (rolled : Rolled cutoff now batchSize n db db') : Descends cutoff db db' where
  hosts := by rw [rolled.frame]
  stays r still := by
    rw [rolled.frame]
    refine (mem_markAggregated _ _ _ _).trans ⟨fun h => ?_, fun hr => Or.inr ⟨hr, ?_⟩⟩
    · obtain ⟨r₀, hr₀, mark, rfl⟩ | ⟨hr, _⟩ := h
      · have pending := toMark_pending cutoff batchSize db r₀ hr₀ mark
        obtain latest | ⟨none, _⟩ := still
        · have pointed : isLatest db r₀ = true := latest
          exact absurd (Or.inl pointed) (pending_not_stays pending)
        · cases none
      · exact hr
    · by_contra mark
      exact pending_not_stays (toMark_pending cutoff batchSize db r hr (by simpa using mark)) still
  unmarked r hr none := by
    rw [rolled.frame] at hr
    obtain ⟨r₀, _, _, rfl⟩ | ⟨hr, _⟩ := (mem_markAggregated _ _ _ _).mp hr
    · cases none
    · exact hr
  origin row hr := by
    obtain ⟨fault, i, u, db₁, upserted, hourly⟩ := rolled.upserts
    rw [hourly] at hr
    obtain ⟨each, others⟩ := upsertAll_ok fault now _ i u db db₁ (bucketValues_distinct _) upserted
    have found := (hourlyAt_eq_some _ _ row).mpr ⟨hr, rfl⟩
    by_cases touched : ∃ a ∈ bucketValues (bucketsOf (pendingReports cutoff batchSize db)),
        a.key = row.key
    · obtain ⟨a, ha, key⟩ := touched
      have exact_ := ((bucketsOf_exact _ a.key).2 a ((mem_bucketValues _ a).mp ha)).2
      obtain ⟨⟨r, mem, _⟩, _⟩ := exact_.interval_start
      obtain ⟨stored, pending⟩ := Table.mem_of_mem_select _ _ _ _ _ (List.mem_filter.mp mem).1
      exact Or.inr ⟨r, stored, pending, (exact_.key r mem).trans key⟩
    · have away : ∀ a ∈ bucketValues (bucketsOf (pendingReports cutoff batchSize db)),
          a.key ≠ row.key := fun a ha same => touched ⟨a, ha, same⟩
      rw [others row.key away] at found
      exact Or.inl ⟨row, ((hourlyAt_eq_some _ _ _).mp found).1, rfl⟩

theorem transaction_descends (c : RetentionConfig) (rawCutoff aggregateCutoff now : DateTime)
    (f : Faults) (k n : Nat) (db db₁ : Db)
    (h : (transaction c rawCutoff aggregateCutoff now f k).exec db = (.retention (.ok n), db₁)) :
    Descends rawCutoff db db₁ := by
  obtain ⟨_, ran⟩ | ⟨_, ran⟩ | ⟨_, ran⟩ := transaction_cases h
  · exact (aggregateRawBatch_ok _ _ _ _ _ _ _ ran).descends
  · obtain ⟨_, rfl⟩ := deleteAggregatedRawBatch_ok _ _ _ _ _ ran
    refine ⟨rfl, fun r still => ?_, fun r hr _ => ((Table.mem_delete _ _ _).mp hr).1,
      fun row hr => Or.inl ⟨row, hr, rfl⟩⟩
    refine (Table.mem_delete _ _ _).trans ⟨And.left, fun hr => ⟨hr, ?_⟩⟩
    by_contra victim
    have deletable := deletable_of_rawVictim c.batchSize db r hr (by simpa using victim)
    simp only [isDeletable, Bool.and_eq_true, Bool.not_eq_true'] at deletable
    obtain latest | ⟨none, _⟩ := still
    · rw [deletable.2] at latest
      cases latest
    · rw [none] at deletable
      cases deletable.1
  · obtain ⟨_, rfl⟩ := deleteExpiredAggregateBatch_ok _ _ _ _ _ _ ran
    exact ⟨rfl, fun _ _ => Iff.rfl, fun _ hr _ => hr,
      fun row hr => Or.inl ⟨row, ((Table.mem_delete _ _ _).mp hr).1, rfl⟩⟩

theorem Spent.descends {faults : Nat → Faults} {c : RetentionConfig}
    {rawCutoff aggregateCutoff now : DateTime} {k : Nat} {ns : List Nat} {db db' : Db}
    (h : Spent faults c rawCutoff aggregateCutoff now k db ns db') : Descends rawCutoff db db' := by
  induction h with
  | done k db => exact .refl db
  | next first rest ih => exact (transaction_descends c _ _ now _ _ _ _ _ first).trans ih

/-- An hour whose texts sort after the cutoff's although it lies before it. -/
def Stuck (aggregateCutoff : DateTime) (key : Uuid × DateTime) : Prop :=
  key.2.year < aggregateCutoff.year ∧ ¬YearsSort key.2.year aggregateCutoff.year

theorem year_hourStart (t : DateTime) : t.hourStart.year = t.year := by
  have hour : t.hourStart.secs / 3600 = t.secs / 3600 := by
    rw [hourStart]
    dsimp only
    omega
  rw [DateTime.year, DateTime.year, hour]

theorem Exact.year_end {row : HourlyRow} {rows : List MetricReport}
    (h : Exact row.toHourlyAggregate rows) : row.key.2.year = row.intervalEnd.year := by
  have hour := h.hour.2
  rw [← year_hourStart row.intervalEnd, ← hour]
  rfl

theorem year_hourKey (r : MetricReport) : (hourKey r).2.year = r.collectedAt.year :=
  year_hourStart r.collectedAt

theorem stuck_of_before {t aggregateCutoff : DateTime} {key : Uuid × DateTime}
    (hour : key.2.year = t.year) (before : t < aggregateCutoff)
    (unsorted : ¬YearsSort t.year aggregateCutoff.year) : Stuck aggregateCutoff key := by
  have years := year_mono t aggregateCutoff before.le
  have differ : t.year ≠ aggregateCutoff.year := fun same => unsorted (Or.inl same)
  rw [Stuck, hour]
  exact ⟨by omega, unsorted⟩

/-- A stuck hourly row never expires. -/
theorem not_expired_of_stuck {aggregateCutoff : DateTime} {row : HourlyRow}
    {rows : List MetricReport} (h : Exact row.toHourlyAggregate rows)
    (stuck : Stuck aggregateCutoff row.key) :
    row.intervalEnd < aggregateCutoff ∧ isExpired aggregateCutoff row = false := by
  rw [Stuck, h.year_end] at stuck
  have before := lt_of_year_lt _ _ stuck.1
  refine ⟨before, ?_⟩
  by_contra expired
  rw [isExpired, sqlLt, Bool.not_eq_false, decide_eq_true_eq] at expired
  exact stuck.2 (sorts_of_lt _ _ before expired)

/-- A row to merge is there, or its hour has a row. -/
def Represented (r : MetricReport) (db : Db) : Prop :=
  r ∈ db.reports ∨ (hourlyAt (hourKey r) db.hourly).isSome = true

theorem transaction_keeps_hour {db db₁ : Db} (sound : Sound db) (c : RetentionConfig)
    (rawCutoff aggregateCutoff now : DateTime) (f : Faults) (k n : Nat)
    (h : (transaction c rawCutoff aggregateCutoff now f k).exec db = (.retention (.ok n), db₁))
    (key : Uuid × DateTime) (stuck : Stuck aggregateCutoff key)
    (held : (hourlyAt key db.hourly).isSome = true) :
    (hourlyAt key db₁.hourly).isSome = true := by
  obtain ⟨_, ran⟩ | ⟨_, ran⟩ | ⟨_, ran⟩ := transaction_cases h
  · exact (aggregateRawBatch_ok _ _ _ _ _ _ _ ran).hourly_kept key (Or.inl held)
  · obtain ⟨_, rfl⟩ := deleteAggregatedRawBatch_ok _ _ _ _ _ ran
    exact held
  · obtain ⟨_, rfl⟩ := deleteExpiredAggregateBatch_ok _ _ _ _ _ _ ran
    obtain ⟨row, found⟩ := Option.isSome_iff_exists.mp held
    obtain ⟨hr, rfl⟩ := (hourlyAt_eq_some _ _ _).mp found
    obtain ⟨rows, described⟩ := sound.hourly row hr
    have current := (not_expired_of_stuck described stuck).2
    have stays : hourlyVictim aggregateCutoff c.batchSize db row = false := by
      by_contra victim
      rw [expired_of_hourlyVictim _ _ _ row hr (by simpa using victim)] at current
      cases current
    have kept := (hourlyAt_eq_some _ _ _).mpr ⟨(Table.mem_delete _ _ _).mpr ⟨hr, stays⟩, rfl⟩
    rw [kept]
    rfl

theorem transaction_represents {db db₁ : Db} (sound : Sound db) (c : RetentionConfig)
    (rawCutoff aggregateCutoff now : DateTime) (f : Faults) (k n : Nat)
    (h : (transaction c rawCutoff aggregateCutoff now f k).exec db = (.retention (.ok n), db₁))
    (r : MetricReport) (unmarked : r.aggregatedAt = none)
    (stuck : Stuck aggregateCutoff (hourKey r)) (held : Represented r db) : Represented r db₁ := by
  obtain hr | held := held
  · obtain ⟨_, ran⟩ | ⟨_, ran⟩ | ⟨_, ran⟩ := transaction_cases h
    · have rolled := aggregateRawBatch_ok _ _ _ _ _ _ _ ran
      cases mark : toMark ((pendingReports rawCutoff c.batchSize db).map MetricReport.reportId) r with
      | false =>
        left
        rw [rolled.frame]
        exact (mem_markAggregated _ _ _ _).mpr (Or.inr ⟨hr, mark⟩)
      | true =>
        right
        apply rolled.hourly_kept
        right
        simp only [toMark, Bool.and_eq_true, decide_eq_true_eq] at mark
        obtain ⟨r', hr', same⟩ := List.mem_map.mp mark.2
        obtain ⟨stored, _⟩ := Table.mem_of_mem_select _ _ _ _ _ hr'
        rw [db.reports.eq_of_clash r' r stored hr same] at hr'
        exact ⟨r, hr', rfl⟩
    · obtain ⟨_, rfl⟩ := deleteAggregatedRawBatch_ok _ _ _ _ _ ran
      left
      refine (Table.mem_delete _ _ _).mpr ⟨hr, ?_⟩
      by_contra victim
      have deletable := deletable_of_rawVictim c.batchSize db r hr (by simpa using victim)
      simp [isDeletable, unmarked] at deletable
    · obtain ⟨_, rfl⟩ := deleteExpiredAggregateBatch_ok _ _ _ _ _ _ ran
      exact Or.inl hr
  · exact Or.inr (transaction_keeps_hour sound c rawCutoff aggregateCutoff now f k n h _ stuck held)

/-- What every answered transaction keeps, between states the store can reach, a run keeps. -/
theorem Spent.invariant (P : Db → Prop) {c : RetentionConfig}
    {rawCutoff aggregateCutoff now : DateTime}
    (step : ∀ (ops : List Op) (k n : Nat) (db₁ : Db), P (store.after ops) →
      (transaction c rawCutoff aggregateCutoff now .none k).exec (store.after ops) =
        (.retention (.ok n), db₁) → P db₁)
    {k : Nat} {ns : List Nat} {db db' : Db}
    (h : Spent (fun _ => .none) c rawCutoff aggregateCutoff now k db ns db')
    (reached : ∃ ops, db = store.after ops) (start : P db) : P db' := by
  induction h with
  | done k db => exact start
  | @next k n ns db db₁ db' first rest ih =>
    obtain ⟨ops, rfl⟩ := reached
    refine ih ⟨ops ++ [transaction c rawCutoff aggregateCutoff now .none k], ?_⟩
      (step ops k n db₁ start first)
    rw [Machine.after_concat]
    exact (congrArg Prod.snd first).symm

end HostMonitoring.Retention
