import HostMonitoring.Framework.AssocMap
import HostMonitoring.Store.Invites
import Mathlib.Data.Fin.VecNotation
import Mathlib.Data.Rat.Cast.Order

namespace HostMonitoring.Retention

open HostMonitoring.Framework
open HostMonitoring.Framework.Tx
open HostMonitoring.Store

/-- The nine metrics in the order of their columns. -/
def values (m : MetricSummary) : Fin 9 → Option ℚ :=
  ![m.cpuUsagePercent, m.memoryUsagePercent, m.networkReceivedBytesPerSecond,
    m.networkTransmittedBytesPerSecond, m.diskReadBytesPerSecond, m.diskWrittenBytesPerSecond,
    m.maxTemperatureCelsius, m.gpuUtilizationPercent, m.gpuMemoryUsagePercent]

def recordScalar (a : ScalarAggregate) (value : Option ℚ) : ScalarAggregate :=
  match value with
  | none => a
  | some value =>
    { count := a.count + 1
      min := some (a.min.elim value (min · value))
      max := some (a.max.elim value (max · value))
      avg := some (a.avg.elim value fun current => current + (value - current) / (a.count + 1)) }

def record (a : HourlyAggregate) (row : MetricReport) : HourlyAggregate :=
  { a with
    intervalStart := min a.intervalStart row.collectedAt
    intervalEnd := max a.intervalEnd row.collectedAt
    sampleCount := a.sampleCount + 1
    metrics := fun i => recordScalar (a.metrics i) (values row.metrics i) }

def newAggregate (row : MetricReport) (bucketStart : DateTime) : HourlyAggregate :=
  record
    { hostId := row.hostId
      bucketStart
      intervalStart := row.collectedAt
      intervalEnd := row.collectedAt
      sampleCount := 0
      metrics := fun _ => {} } row

def hourKey (row : MetricReport) : Uuid × DateTime := (row.hostId, row.collectedAt.hourStart)

abbrev Buckets := AssocMap (Uuid × DateTime) HourlyAggregate

def recordIn (buckets : Buckets) (row : MetricReport) : Buckets :=
  buckets.insert (hourKey row) ((buckets.get? (hourKey row)).elim
    (newAggregate row row.collectedAt.hourStart) (record · row))

def bucketsOf (reports : List MetricReport) : Buckets := reports.foldl recordIn .empty

/-- Ascending in the key. -/
def keyLe (e e' : (Uuid × DateTime) × HourlyAggregate) : Bool :=
  decide (e.1.1 < e'.1.1) || (decide (e.1.1 = e'.1.1) && decide (e.1.2 ≤ e'.1.2))

def bucketValues (buckets : Buckets) : List HourlyAggregate :=
  (buckets.entries.mergeSort keyLe).map Prod.snd

/-- SQL's `MIN(a,b)` and `MAX(a,b)` are null when an argument is. -/
def mergeScalar (current incoming : ScalarAggregate) : ScalarAggregate where
  count := current.count + incoming.count
  min := if current.count = 0 then incoming.min else if incoming.count = 0 then current.min
    else Option.map₂ min current.min incoming.min
  max := if current.count = 0 then incoming.max else if incoming.count = 0 then current.max
    else Option.map₂ max current.max incoming.max
  avg := if current.count = 0 then incoming.avg else if incoming.count = 0 then current.avg
    else Option.map₂ (fun c i => c + (i - c) * (incoming.count / (current.count + incoming.count)))
      current.avg incoming.avg

/-- `DO UPDATE SET` of `hourly_upsert_sql`. -/
def mergeRow (current excluded : HourlyRow) : HourlyRow :=
  { current with
    intervalStart := DateTime.sqlMin current.intervalStart excluded.intervalStart
    intervalEnd := DateTime.sqlMax current.intervalEnd excluded.intervalEnd
    sampleCount := current.sampleCount + excluded.sampleCount
    metrics := fun i => mergeScalar (current.metrics i) (excluded.metrics i)
    updatedAt := excluded.updatedAt }

def hourlyAt (key : Uuid × DateTime) (hourly : Table HourlyRow) : Option HourlyRow :=
  hourly.find? fun r => decide (r.key = key)

def mergeInto (row : HourlyRow) (hourly : Table HourlyRow) : Table HourlyRow :=
  hourly.modify (fun r => decide (r.key = row.key)) (fun r => mergeRow r row) fun _ _ => id

theorem mem_mergeInto (row : HourlyRow) (hourly : Table HourlyRow) (r : HourlyRow) :
    r ∈ mergeInto row hourly ↔ (∃ r₀ ∈ hourly, r₀.key = row.key ∧ r = mergeRow r₀ row) ∨
      (r ∈ hourly ∧ r.key ≠ row.key) := by
  refine (Table.mem_updated hourly.rows _ _ r).trans ?_
  simp only [decide_eq_true_eq, decide_eq_false_iff_not, ne_eq, Table.mem_def]

/-- The `CHECK`s of the row to insert come before the conflict. -/
def upsertHourly (aggregate : HourlyAggregate) (now : DateTime) (db : Db) :
    Except StoreError (Unit × Db) :=
  let row : HourlyRow := { aggregate with updatedAt := now }
  if row.admissible = false then .error (.sql .checkViolation)
  else
    match hourlyAt aggregate.key db.hourly with
    | some current =>
      if (mergeRow current row).admissible = false then .error (.sql .checkViolation)
      else .ok ((), { db with hourly := mergeInto row db.hourly })
    | none =>
      if db.hosts.any fun h => decide (h.hostId = row.hostId) then
        orViolation (db.hourly.insert? row) fun hourly => { db with hourly }
      else .error (.sql .foreignKeyViolation)

def upsertAll (fault : Nat → Option StoreError) (now : DateTime) :
    List HourlyAggregate → Nat → Tx Db StoreError Unit
  | [], _ => pure ()
  | aggregate :: rest, i => do
    execute (fault i) (upsertHourly aggregate now)
    upsertAll fault now rest (i + 1)

/-- A row that is the latest report of some host. -/
def isLatest (db : Db) (r : MetricReport) : Bool :=
  db.hosts.any fun h => decide (h.latestReportId = some r.reportId)

def collectedBefore (r r' : MetricReport) : Bool :=
  DateTime.sqlLt r.collectedAt r'.collectedAt ||
    (DateTime.sqlLe r.collectedAt r'.collectedAt && decide (r.reportId ≤ r'.reportId))

def pendingReports (cutoff : DateTime) (batchSize : Nat) (db : Db) : List MetricReport :=
  db.reports.select (fun r => r.aggregatedAt.isNone && DateTime.sqlLt r.collectedAt cutoff &&
    !isLatest db r) collectedBefore batchSize

def toMark (ids : List Uuid) (r : MetricReport) : Bool :=
  r.aggregatedAt.isNone && decide (r.reportId ∈ ids)

def markAggregated (now : DateTime) (ids : List Uuid) (reports : Table MetricReport) :
    Table MetricReport :=
  reports.modify (toMark ids) (fun r => { r with aggregatedAt := some now }) fun _ _ => id

theorem mem_markAggregated (now : DateTime) (ids : List Uuid) (reports : Table MetricReport)
    (r : MetricReport) : r ∈ markAggregated now ids reports ↔
      (∃ r₀ ∈ reports, toMark ids r₀ = true ∧ r = { r₀ with aggregatedAt := some now }) ∨
      (r ∈ reports ∧ toMark ids r = false) :=
  Table.mem_updated reports.rows _ _ r

def aggregateRawBatch (f : Faults) (cutoff now : DateTime) (batchSize : Nat) :
    Db → Except StoreError Nat × Db :=
  transact f.boundary do
    let reports ← query (f.statement 0) (pendingReports cutoff batchSize)
    if reports = [] then return .rollback (.ok 0)
    else do
      let aggregates := bucketValues (bucketsOf reports)
      upsertAll f.statement now aggregates 1
      let ids := reports.map MetricReport.reportId
      let marked ← execute (f.statement (1 + aggregates.length)) fun db =>
        .ok (db.reports.count (toMark ids), { db with reports := markAggregated now ids db.reports })
      if marked ≠ reports.length then
        fail (.ensure "telemetry aggregate marker count changed inside its write transaction")
      else return .commit marked

def aggregatedBefore (r r' : MetricReport) : Bool :=
  match r.aggregatedAt, r'.aggregatedAt with
  | some t, some t' =>
    DateTime.sqlLt t t' || (DateTime.sqlLe t t' && decide (r.reportId ≤ r'.reportId))
  | none, some _ => true
  | some _, none => false
  | none, none => decide (r.reportId ≤ r'.reportId)

def deletableReports (batchSize : Nat) (db : Db) : List MetricReport :=
  db.reports.select (fun r => r.aggregatedAt.isSome && !isLatest db r) aggregatedBefore batchSize

def rawVictim (batchSize : Nat) (db : Db) (r : MetricReport) : Bool :=
  (deletableReports batchSize db).any (fun v => decide (v.reportId = r.reportId)) && !isLatest db r

def deleteAggregatedRawBatch (f : Faults) (batchSize : Nat) : Db → Except StoreError Nat × Db :=
  transact f.boundary do
    let deleted ← execute (f.statement 0) fun db =>
      .ok (db.reports.count (rawVictim batchSize db),
        { db with reports := db.reports.delete (rawVictim batchSize db) })
    if deleted = 0 then return .rollback (.ok deleted) else return .commit deleted

def endedBefore (r r' : HourlyRow) : Bool :=
  DateTime.sqlLt r.intervalEnd r'.intervalEnd || (DateTime.sqlLe r.intervalEnd r'.intervalEnd &&
    (decide (r.hostId < r'.hostId) || (decide (r.hostId = r'.hostId) &&
      DateTime.sqlLe r.bucketStart r'.bucketStart)))

def expiredAggregates (cutoff : DateTime) (batchSize : Nat) (db : Db) : List HourlyRow :=
  db.hourly.select (fun r => DateTime.sqlLt r.intervalEnd cutoff) endedBefore batchSize

def hourlyVictim (cutoff : DateTime) (batchSize : Nat) (db : Db) (r : HourlyRow) : Bool :=
  (expiredAggregates cutoff batchSize db).any fun v => decide (v.key = r.key)

def deleteExpiredAggregateBatch (f : Faults) (cutoff : DateTime) (batchSize : Nat) :
    Db → Except StoreError Nat × Db :=
  transact f.boundary do
    let deleted ← execute (f.statement 0) fun db =>
      .ok (db.hourly.count (hourlyVictim cutoff batchSize db),
        { db with hourly := db.hourly.delete (hourlyVictim cutoff batchSize db) })
    if deleted = 0 then return .rollback (.ok deleted) else return .commit deleted

end HostMonitoring.Retention
