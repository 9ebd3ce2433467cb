import HostMonitoring.Data.Duration
import HostMonitoring.Framework.Checks

namespace HostMonitoring.Retention

open HostMonitoring.Framework.Checks

def minRawRetention : Duration := .fromSecs (24 * 60 * 60)
def maxRawRetention : Duration := .fromSecs (365 * 24 * 60 * 60)
def maxAggregateRetention : Duration := .fromSecs (3650 * 24 * 60 * 60)
def minMaintenanceInterval : Duration := .fromSecs 1
def maxMaintenanceInterval : Duration := .fromSecs (24 * 60 * 60)
def maxRetentionBatchSize : Nat := 512
def maxRetentionTransactions : Nat := 30
def maxRetentionRunTime : Duration := .fromSecs 10
def maxRetentionYield : Duration := .fromMillis 100

/-- What `RetentionConfig::new` is given. -/
structure RetentionLimits where
  rawRetention : Duration
  aggregateRetention : Duration
  maintenanceInterval : Duration
  batchSize : Nat
  maxTransactionsPerRun : Nat
  maxRunTime : Duration
  yieldBetweenTransactions : Duration

def RetentionLimits.check (l : RetentionLimits) : Except String Unit := do
  ensure (minRawRetention ≤ l.rawRetention ∧ l.rawRetention ≤ maxRawRetention)
    "raw telemetry retention must be between 1 and 365 days"
  ensure (l.rawRetention < l.aggregateRetention ∧ l.aggregateRetention ≤ maxAggregateRetention)
    "aggregate telemetry retention must exceed raw retention and be at most 3650 days"
  ensure (minMaintenanceInterval ≤ l.maintenanceInterval ∧
      l.maintenanceInterval ≤ maxMaintenanceInterval)
    "retention maintenance interval must be between 1 second and 24 hours"
  ensure (1 ≤ l.batchSize ∧ l.batchSize ≤ maxRetentionBatchSize)
    s!"retention batch size must be between 1 and {maxRetentionBatchSize}"
  ensure (3 ≤ l.maxTransactionsPerRun ∧ l.maxTransactionsPerRun ≤ maxRetentionTransactions)
    s!"retention transactions per run must be between 3 and {maxRetentionTransactions}"
  ensure (Duration.fromMillis 100 ≤ l.maxRunTime ∧ l.maxRunTime ≤ maxRetentionRunTime ∧
      l.maxRunTime < l.maintenanceInterval)
    "retention run time must be 100ms-10s and shorter than its interval"
  ensure (l.yieldBetweenTransactions ≠ 0 ∧ l.yieldBetweenTransactions ≤ maxRetentionYield)
    "retention writer yield must be between 1ms and 100ms"

/-- Only limits that pass the checks make a configuration. -/
structure RetentionConfig extends RetentionLimits where
  accepted : toRetentionLimits.check = .ok ()

namespace RetentionConfig

def new (l : RetentionLimits) : Except String RetentionConfig :=
  match h : l.check with
  | .ok () => .ok ⟨l, h⟩
  | .error e => .error e

def production : RetentionConfig where
  rawRetention := .fromSecs (7 * 24 * 60 * 60)
  aggregateRetention := .fromSecs (365 * 24 * 60 * 60)
  maintenanceInterval := .fromSecs (5 * 60)
  batchSize := 256
  maxTransactionsPerRun := 12
  maxRunTime := .fromSecs 2
  yieldBetweenTransactions := .fromMillis 10
  accepted := by decide

theorem budget (c : RetentionConfig) : (1 ≤ c.batchSize ∧ c.batchSize ≤ 512) ∧
    3 ≤ c.maxTransactionsPerRun ∧ c.maxTransactionsPerRun ≤ 30 := by
  have accepted := c.accepted
  simp only [RetentionLimits.check, check_bind_ok, ensure_ok] at accepted
  exact ⟨accepted.2.2.2.1, accepted.2.2.2.2.1⟩

end RetentionConfig
end HostMonitoring.Retention
