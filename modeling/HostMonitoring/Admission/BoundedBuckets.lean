import Mathlib.Algebra.Order.Ring.Rat
import Mathlib.Algebra.Order.Field.Rat
import Mathlib.Data.List.MinMax
import HostMonitoring.Framework.AssocMap

namespace HostMonitoring.Admission

open HostMonitoring.Framework

/-- Instants and durations are exact numbers of seconds. -/
abbrev Instant := ℚ
abbrev Duration := ℚ

def saturatingDurationSince (now earlier : Instant) : Duration := max (now - earlier) 0

/-- What a bucket regains over an elapsed time and how long it waits for
missing tokens, as the two limiters write it; both come down to one `interval`. -/
structure RefillRule where
  burst : ℚ
  gain : Duration → ℚ
  wait : ℚ → Duration
  interval : ℚ
  one_le_burst : 1 ≤ burst
  interval_pos : 0 < interval
  gain_eq : ∀ elapsed, gain elapsed = elapsed / interval
  wait_eq : ∀ missing, wait missing = missing * interval

structure BucketPolicy where
  burst : Nat
  refillInterval : Duration
  burst_pos : 0 < burst
  refillInterval_pos : 0 < refillInterval

def BucketPolicy.rule (policy : BucketPolicy) : RefillRule where
  burst := policy.burst
  gain elapsed := elapsed / policy.refillInterval
  wait missing := missing * policy.refillInterval
  interval := policy.refillInterval
  one_le_burst := by exact_mod_cast policy.burst_pos
  interval_pos := policy.refillInterval_pos
  gain_eq _ := rfl
  wait_eq _ := rfl

/-- `Bucket` of the pairing limiter and `TokenBucket` of the report limiter,
whose `updated` is `lastRefill` here. -/
@[ext] structure Bucket where
  tokens : ℚ
  lastRefill : Instant
  lastSeen : Instant
  deriving DecidableEq

namespace Bucket

def new (rule : RefillRule) (now : Instant) : Bucket := ⟨rule.burst, now, now⟩

def tokensAt (b : Bucket) (rule : RefillRule) (now : Instant) : ℚ :=
  min (b.tokens + rule.gain (saturatingDurationSince now b.lastRefill)) rule.burst

/-- A refused check refills and stamps the bucket as an admitted one does. -/
def check (b : Bucket) (rule : RefillRule) (now : Instant) : Except Duration Unit × Bucket :=
  let tokens := b.tokensAt rule now
  if tokens < 1 then (.error (rule.wait (1 - tokens)), ⟨tokens, now, now⟩)
  else (.ok (), ⟨tokens - 1, now, now⟩)

end Bucket

structure BoundedBuckets (K : Type) where
  entries : AssocMap K Bucket
  rule : RefillRule
  capacity : Nat
  entryTtl : Duration
  capacity_pos : 0 < capacity
  entryTtl_pos : 0 < entryTtl

namespace BoundedBuckets

variable {K : Type} [DecidableEq K]

def new (rule : RefillRule) (capacity : Nat) (entryTtl : Duration)
    (hc : 0 < capacity) (ht : 0 < entryTtl) : BoundedBuckets K :=
  ⟨.empty, rule, capacity, entryTtl, hc, ht⟩

def retainFresh (m : BoundedBuckets K) (now : Instant) : BoundedBuckets K :=
  { m with entries := m.entries.retain fun _ entry =>
      decide (saturatingDurationSince now entry.lastSeen < m.entryTtl) }

def fullEntries (m : BoundedBuckets K) (now : Instant) : List (K × Bucket) :=
  m.entries.entries.filter fun e => decide (m.rule.burst ≤ e.2.tokensAt m.rule now)

def retryDelay (m : BoundedBuckets K) (now : Instant) : Duration :=
  let waits := m.entries.entries.map fun e =>
    m.rule.wait (max (m.rule.burst - e.2.tokensAt m.rule now) 0)
  max (waits.min?.getD m.entryTtl) (1 / 1000000000)

/-- Evicts the full entry seen least recently; ties fall to the iteration order. -/
def makeRoom (m : BoundedBuckets K) (now : Instant) :
    Except Duration Unit × BoundedBuckets K :=
  if m.entries.size < m.capacity then (.ok (), m)
  else
    match (m.fullEntries now).argmin (fun e => e.2.lastSeen) with
    | some e => (.ok (), { m with entries := m.entries.erase e.1 })
    | none => (.error (m.retryDelay now), m)

def checkEntry (m : BoundedBuckets K) (key : K) (entry : Bucket) (now : Instant) :
    Except Duration Unit × BoundedBuckets K :=
  let (result, entry) := entry.check m.rule now
  (result, { m with entries := m.entries.insert key entry })

def checkAt (m : BoundedBuckets K) (key : K) (now : Instant) :
    Except Duration Unit × BoundedBuckets K :=
  let m := m.retainFresh now
  match m.entries.get? key with
  | some entry => m.checkEntry key entry now
  | none =>
    match m.makeRoom now with
    | (.error delay, m) => (.error delay, m)
    | (.ok _, m) => m.checkEntry key (Bucket.new m.rule now) now

end BoundedBuckets
end HostMonitoring.Admission
