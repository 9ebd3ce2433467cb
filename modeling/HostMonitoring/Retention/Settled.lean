import HostMonitoring.Retention.Convergence
import HostMonitoring.Store.Points

namespace HostMonitoring.Retention

open HostMonitoring.Framework
open HostMonitoring.Framework.Tx
open HostMonitoring.Store
open HostMonitoring.DateTime

section
variable {c : RetentionConfig} {now rawCutoff aggregateCutoff : DateTime}
  (raw : now.checkedSubSigned c.rawRetention = some rawCutoff)
  (aggregate : now.checkedSubSigned c.aggregateRetention = some aggregateCutoff)
include raw aggregate

theorem run_spent (ops : List Op) (n : Nat) : ∃ ns,
    Spent (fun _ => .none) c rawCutoff aggregateCutoff now 0 (runs c now n (store.after ops)) ns
      (runs c now (n + 1) (store.after ops)) := by
  obtain ⟨o, _, looped⟩ := run_answers raw aggregate ops n
  obtain ⟨ns, spent, _⟩ := cycle_ok _ c rawCutoff aggregateCutoff now {} o _ _ rfl
    (Nat.zero_le _) looped
  exact ⟨ns, spent⟩

theorem runs_descends (ops : List Op) (n : Nat) :
    Descends rawCutoff (store.after ops) (runs c now n (store.after ops)) := by
  induction n with
  | zero => exact .refl _
  | succ n ih =>
    obtain ⟨ns, spent⟩ := run_spent raw aggregate ops n
    exact ih.trans spent.descends

theorem runs_keep_hour (ops : List Op) (n : Nat) (key : Uuid × DateTime)
    (stuck : Stuck aggregateCutoff key)
    (held : (hourlyAt key (store.after ops).hourly).isSome = true) :
    (hourlyAt key (runs c now n (store.after ops)).hourly).isSome = true := by
  induction n with
  | zero => exact held
  | succ n ih =>
    obtain ⟨ns, spent⟩ := run_spent raw aggregate ops n
    refine spent.invariant (fun db => (hourlyAt key db.hourly).isSome = true)
      (fun past k m db₁ before answered => ?_) (runs_reached raw aggregate ops n) ih
    exact transaction_keeps_hour (sound_after past) c _ _ now _ k m answered key stuck before

theorem runs_represent (ops : List Op) (n : Nat) (r : MetricReport)
    (unmarked : r.aggregatedAt = none) (stuck : Stuck aggregateCutoff (hourKey r))
    (hr : r ∈ (store.after ops).reports) :
    Represented r (runs c now n (store.after ops)) := by
  induction n with
  | zero => exact Or.inl hr
  | succ n ih =>
    obtain ⟨ns, spent⟩ := run_spent raw aggregate ops n
    refine spent.invariant (Represented r) (fun past k m db₁ before answered => ?_)
      (runs_reached raw aggregate ops n) ih
    exact transaction_represents (sound_after past) c _ _ now _ k m answered r unmarked stuck before

end

/-- The store that retention is to reach: of the raw rows there were, those that are a
host's latest or unmerged and not before the cutoff, and no hourly row that ended before
its cutoff. -/
structure Settled (rawCutoff aggregateCutoff : DateTime) (start db : Db) : Prop where
  raw : ∀ r, r ∈ db.reports ↔ r ∈ start.reports ∧
    (isLatest start r = true ∨ (r.aggregatedAt = none ∧ rawCutoff ≤ r.collectedAt))
  hourly : ∀ row ∈ db.hourly, aggregateCutoff ≤ row.intervalEnd

/-- Every run in a row is answered and accounts for what it did, and from some run on
the store is settled and stays as it is. -/
structure Converges (c : RetentionConfig) (now rawCutoff aggregateCutoff : DateTime) (db : Db) :
    Prop where
  accounted : ∀ n, ∃ o,
    runCycleAt (fun _ => .none) c now (runs c now n db) = (.ok o, runs c now (n + 1) db) ∧
    Accounts c rawCutoff aggregateCutoff now o (runs c now n db) (runs c now (n + 1) db)
  settles : ∃ n, Settled rawCutoff aggregateCutoff db (runs c now n db) ∧
    ∀ m, n ≤ m → ∃ transactions, runCycleAt (fun _ => .none) c now (runs c now m db) =
      (.ok { transactions }, runs c now n db)

/-- The stored texts sort as the times do: those of unmerged rows with the raw cutoff's,
and with the aggregate cutoff's where they lie before it, and those of the hourly rows
that ended before the aggregate cutoff. -/
structure Sorts (rawCutoff aggregateCutoff : DateTime) (db : Db) : Prop where
  raw : ∀ r ∈ db.reports, r.aggregatedAt = none → isLatest db r = false →
    YearsSort r.collectedAt.year rawCutoff.year ∧
    (r.collectedAt < rawCutoff → r.collectedAt < aggregateCutoff →
      YearsSort r.collectedAt.year aggregateCutoff.year)
  hourly : ∀ row ∈ db.hourly, row.intervalEnd < aggregateCutoff →
    YearsSort row.intervalEnd.year aggregateCutoff.year

theorem mem_of_idle {rawCutoff aggregateCutoff : DateTime} {start db : Db}
    (idle : Idle rawCutoff aggregateCutoff db) (d : Descends rawCutoff start db)
    (r : MetricReport) : r ∈ db.reports ↔ r ∈ start.reports ∧ Stays rawCutoff start r := by
  constructor
  · intro hr
    have still : Stays rawCutoff start r := by
      have pending := (Table.count_eq_zero _ _).mp idle.pending r hr
      have deletable := (Table.count_eq_zero _ _).mp idle.deletable r hr
      rw [Stays, ← isLatest_congr start db d.hosts]
      cases latest : isLatest db r with
      | true => exact Or.inl rfl
      | false =>
        have unmarked : r.aggregatedAt = none := by
          simpa [isDeletable, latest] using deletable
        right
        refine ⟨unmarked, ?_⟩
        simpa [isPending, latest, unmarked] using pending
    exact ⟨(d.stays r still).mp hr, still⟩
  · intro h
    exact (d.stays r h.2).mpr h.1

theorem sorts_iff (t cutoff : DateTime) :
    YearsSort t.year cutoff.year ↔ (sqlLt t cutoff = false ↔ cutoff ≤ t) := by
  constructor
  · intro sorts
    rw [← Bool.not_eq_true, (sqlAgrees_of_sorts t cutoff sorts).lt, not_lt]
  · intro agree
    by_cases before : t < cutoff
    · apply sorts_of_lt t cutoff before
      have differ : ¬sqlLt t cutoff = false := fun h => absurd before (not_lt.mpr (agree.mp h))
      rw [Bool.not_eq_false, sqlLt, decide_eq_true_eq] at differ
      exact differ
    · obtain same | after := eq_or_lt_of_le (not_lt.mp before)
      · rw [same]
        exact Or.inl rfl
      · apply YearsSort.symm
        apply sorts_of_lt cutoff t after
        have text := agree.mpr after.le
        rw [sqlLt, decide_eq_false_iff_not] at text
        obtain less | same := List.le_iff_lt_or_eq.mp (List.not_lt.mp text)
        · exact less
        · exact absurd (toText_injective same) after.ne

/-- An hour that is not stuck has no hourly row that should have expired. -/
theorem current_of_idle {rawCutoff aggregateCutoff : DateTime} {start db : Db} (sound : Sound start)
    (sound' : Sound db) (sorts : Sorts rawCutoff aggregateCutoff start)
    (idle : Idle rawCutoff aggregateCutoff db) (d : Descends rawCutoff start db)
    (row : HourlyRow) (hr : row ∈ db.hourly) : aggregateCutoff ≤ row.intervalEnd := by
  by_contra before
  rw [not_le] at before
  obtain ⟨rows, described⟩ := sound'.hourly row hr
  have unsorted : ¬YearsSort row.intervalEnd.year aggregateCutoff.year := by
    intro years
    have expired : isExpired aggregateCutoff row = true :=
      (sqlAgrees_of_sorts _ _ years).lt.mpr before
    rw [(Table.count_eq_zero _ _).mp idle.expired row hr] at expired
    cases expired
  have stuck : Stuck aggregateCutoff row.key := stuck_of_before described.year_end before unsorted
  obtain ⟨row₀, hr₀, key⟩ | ⟨r, hr₀, pending, key⟩ := d.origin row hr
  · obtain ⟨rows₀, described₀⟩ := sound.hourly row₀ hr₀
    rw [← key] at stuck
    have earlier := (not_expired_of_stuck described₀ stuck).1
    have years := sorts.hourly row₀ hr₀ earlier
    rw [← described₀.year_end] at years
    exact stuck.2 years
  · obtain ⟨unmarked, text, latest⟩ := (isPending_iff _ _ _).mp pending
    obtain ⟨rawYears, years⟩ := sorts.raw r hr₀ unmarked latest
    rw [← key, Stuck, year_hourKey] at stuck
    have earlier := lt_of_year_lt _ _ stuck.1
    exact stuck.2 (years ((sqlAgrees_of_sorts _ _ rawYears).lt.mp text) earlier)

section
variable {c : RetentionConfig} {now rawCutoff aggregateCutoff : DateTime}
  (raw : now.checkedSubSigned c.rawRetention = some rawCutoff)
  (aggregate : now.checkedSubSigned c.aggregateRetention = some aggregateCutoff)
include raw aggregate

theorem runs_sound (ops : List Op) (n : Nat) : Sound (runs c now n (store.after ops)) := by
  obtain ⟨past, same⟩ := runs_reached raw aggregate ops n
  rw [same]
  exact sound_after past

theorem converges_of_sorts (ops : List Op)
    (sorts : Sorts rawCutoff aggregateCutoff (store.after ops)) :
    Converges c now rawCutoff aggregateCutoff (store.after ops) where
  accounted n := by
    obtain ⟨o, ran, looped⟩ := run_answers raw aggregate ops n
    exact ⟨o, ran, cycle_accounts c _ _ now o _ _ looped⟩
  settles := by
    obtain ⟨n, idle⟩ := runs_idle raw aggregate ops
    have d := runs_descends raw aggregate ops n
    refine ⟨n, ⟨fun r => ?_, ?_⟩, fun m later => ?_⟩
    · rw [mem_of_idle idle d r]
      refine and_congr_right fun hr => ?_
      cases latest : isLatest (store.after ops) r with
      | true => simp [Stays, latest]
      | false =>
        simp only [Stays, latest, Bool.false_eq_true, false_or]
        refine and_congr_right fun unmarked => ?_
        exact (sorts_iff _ _).mp (sorts.raw r hr unmarked latest).1
    · exact current_of_idle (sound_after ops) (runs_sound raw aggregate ops n) sorts idle d
    · have still := runs_still raw aggregate ops n m idle later
      obtain ⟨o, ran, looped⟩ := run_answers raw aggregate ops m
      rw [still] at ran looped ⊢
      obtain ⟨same, merged, deleted, expired⟩ := cycle_idle c _ _ now o _ _ idle looped
      have nothing : o = { transactions := o.transactions } := by
        cases o
        simp only at merged deleted expired
        simp only [merged, deleted, expired]
      rw [same, nothing] at ran
      exact ⟨o.transactions, ran⟩

/-- A settled store that no run changes any more has nothing left to do. -/
theorem idle_of_settled (ops : List Op) (n : Nat)
    (still : ∀ m, n ≤ m → ∃ transactions,
      runCycleAt (fun _ => .none) c now (runs c now m (store.after ops)) =
        (.ok { transactions }, runs c now n (store.after ops))) :
    Idle rawCutoff aggregateCutoff (runs c now n (store.after ops)) := by
  obtain ⟨m, idle⟩ := runs_idle raw aggregate ops
  have later := runs_still raw aggregate ops m (max n m + 1) idle (by omega)
  obtain ⟨_, ran⟩ := still (max n m) (le_max_left n m)
  have same : runs c now (max n m + 1) (store.after ops) = runs c now n (store.after ops) := by
    rw [runs_succ, ran]
  rw [← same, later]
  exact idle

theorem sorts_of_converges (ops : List Op)
    (converges : Converges c now rawCutoff aggregateCutoff (store.after ops)) :
    Sorts rawCutoff aggregateCutoff (store.after ops) := by
  obtain ⟨n, settled, still⟩ := converges.settles
  have idle := idle_of_settled raw aggregate ops n still
  have d := runs_descends raw aggregate ops n
  have fate (r : MetricReport) (hr : r ∈ (store.after ops).reports) (unmarked : r.aggregatedAt = none)
      (latest : isLatest (store.after ops) r = false) :
      sqlLt r.collectedAt rawCutoff = false ↔ rawCutoff ≤ r.collectedAt := by
    have both := (mem_of_idle idle d r).symm.trans (settled.raw r)
    simpa [Stays, hr, unmarked, latest] using both
  have free (key : Uuid × DateTime) (stuck : Stuck aggregateCutoff key) :
      ¬(hourlyAt key (runs c now n (store.after ops)).hourly).isSome = true := by
    intro held
    obtain ⟨row, found⟩ := Option.isSome_iff_exists.mp held
    obtain ⟨hr, rfl⟩ := (hourlyAt_eq_some _ _ _).mp found
    obtain ⟨rows, described⟩ := (runs_sound raw aggregate ops n).hourly row hr
    exact absurd (settled.hourly row hr) (not_le.mpr (not_expired_of_stuck described stuck).1)
  constructor
  · intro r hr unmarked latest
    have years := (sorts_iff _ _).mpr (fate r hr unmarked latest)
    refine ⟨years, fun old expired => ?_⟩
    by_contra unsorted
    have stuck := stuck_of_before (year_hourKey r) expired unsorted
    obtain stays | held := runs_represent raw aggregate ops n r unmarked stuck hr
    · obtain pointed | ⟨_, recent⟩ := ((settled.raw r).mp stays).2
      · rw [latest] at pointed
        cases pointed
      · exact absurd old (not_lt.mpr recent)
    · exact free _ stuck held
  · intro row hr expired
    by_contra unsorted
    obtain ⟨rows, described⟩ := (sound_after ops).hourly row hr
    have stuck := stuck_of_before described.year_end expired unsorted
    have held : (hourlyAt row.key (store.after ops).hourly).isSome = true := by
      rw [(hourlyAt_eq_some _ _ row).mpr ⟨hr, rfl⟩]
      rfl
    exact free _ stuck (runs_keep_hour raw aggregate ops n row.key stuck held)

end

/-- From every state the store can reach, runs at one clock reading account for what
they do and settle the store for good, exactly when the cutoffs exist and the stored
texts that are compared with them sort as the times do. -/
theorem retention_converges_iff (c : RetentionConfig) (now : DateTime) (ops : List Op) :
    (∃ rawCutoff aggregateCutoff, now.checkedSubSigned c.rawRetention = some rawCutoff ∧
      now.checkedSubSigned c.aggregateRetention = some aggregateCutoff ∧
      Converges c now rawCutoff aggregateCutoff (store.after ops)) ↔
    ∃ rawCutoff aggregateCutoff, now.checkedSubSigned c.rawRetention = some rawCutoff ∧
      now.checkedSubSigned c.aggregateRetention = some aggregateCutoff ∧
      Sorts rawCutoff aggregateCutoff (store.after ops) := by
  refine exists_congr fun rawCutoff => exists_congr fun aggregateCutoff => ?_
  refine and_congr_right fun raw => and_congr_right fun aggregate => ?_
  exact ⟨sorts_of_converges raw aggregate ops, converges_of_sorts raw aggregate ops⟩

/-- The active laptop sends a report of the year 9999 and one of the year 10000. -/
def laptopTurned : List Op := laptopActive ++
  [.storeReport .none (laptopReport "00000000-0000-0000-0000-000000000005" (newYear 9999))
      (newYear 9999),
    .storeReport .none (laptopReport "00000000-0000-0000-0000-000000000006" (newYear 10000))
      (newYear 10000)]

/-- The first report is past its retention, but its text sorts after that of the cutoff. -/
def afterTurn : DateTime := (newYear 10000).plusSeconds (8 * 86400)

theorem retention_never_settles : ¬∀ (c : RetentionConfig) (now : DateTime) (ops : List Op)
    (rawCutoff aggregateCutoff : DateTime),
      now.checkedSubSigned c.rawRetention = some rawCutoff →
      now.checkedSubSigned c.aggregateRetention = some aggregateCutoff →
      Converges c now rawCutoff aggregateCutoff (store.after ops) := by
  intro claim
  have raw : afterTurn.checkedSubSigned RetentionConfig.production.rawRetention =
      some (afterTurn.minus RetentionConfig.production.rawRetention) := if_pos (by decide +kernel)
  have aggregate : afterTurn.checkedSubSigned RetentionConfig.production.aggregateRetention =
      some (afterTurn.minus RetentionConfig.production.aggregateRetention) :=
    if_pos (by decide +kernel)
  have converges := claim .production afterTurn laptopTurned _ _ raw aggregate
  have sorts := sorts_of_converges raw aggregate laptopTurned converges
  obtain ⟨r, hr, unmarked, latest, year⟩ : ∃ r ∈ (store.after laptopTurned).reports.rows,
      r.aggregatedAt = none ∧ isLatest (store.after laptopTurned) r = false ∧
        r.collectedAt.year = 9999 := by decide +kernel
  have years := (sorts.raw r hr unmarked latest).1
  rw [year] at years
  exact absurd years (by decide +kernel)

end HostMonitoring.Retention
