import Mathlib.Data.Rat.Floor
import Mathlib.Tactic.NormNum
import HostMonitoring.Data.Uuid
import HostMonitoring.Admission.BoundedBuckets

namespace HostMonitoring.Admission

def ENTRY_TTL : Duration := 60 * 60
def SOURCE_CAPACITY : Nat := 4096
def IDENTIFIER_CAPACITY : Nat := 8192

inductive IpAddr where
  | v4 (address : BitVec 32)
  | v6 (address : BitVec 128)
  deriving DecidableEq

/-- An IPv4-mapped IPv6 source counts as its IPv4 address. -/
def canonicalIp : IpAddr → IpAddr
  | .v4 address => .v4 address
  | .v6 address =>
    if address.toNat / 2 ^ 32 = 0xffff then .v4 (BitVec.ofNat 32 address.toNat) else .v6 address

structure AdmissionPolicies where
  createSource : BucketPolicy
  createDevice : BucketPolicy
  pollSource : BucketPolicy
  pollRequest : BucketPolicy
  activateSource : BucketPolicy
  activateRequest : BucketPolicy
  inviteAccount : BucketPolicy
  sourceCapacity : Nat
  identifierCapacity : Nat
  entryTtl : Duration
  sourceCapacity_pos : 0 < sourceCapacity
  identifierCapacity_pos : 0 < identifierCapacity
  entryTtl_pos : 0 < entryTtl

def AdmissionPolicies.production : AdmissionPolicies where
  createSource := ⟨24, 5, by decide, by decide⟩
  createDevice := ⟨6, 30, by decide, by decide⟩
  pollSource := ⟨240, 250 / 1000, by decide, by norm_num⟩
  pollRequest := ⟨30, 1, by decide, by decide⟩
  activateSource := ⟨16, 5, by decide, by decide⟩
  activateRequest := ⟨6, 30, by decide, by decide⟩
  inviteAccount := ⟨32, 10, by decide, by decide⟩
  sourceCapacity := SOURCE_CAPACITY
  identifierCapacity := IDENTIFIER_CAPACITY
  entryTtl := ENTRY_TTL
  sourceCapacity_pos := by decide
  identifierCapacity_pos := by decide
  entryTtl_pos := by norm_num [ENTRY_TTL]

/-- The identifier maps are keyed by SHA-256 digests, of a type `D` here. -/
structure AdmissionState (D : Type) where
  createSources : BoundedBuckets IpAddr
  createDevices : BoundedBuckets D
  pollSources : BoundedBuckets IpAddr
  pollRequests : BoundedBuckets Uuid
  activationSources : BoundedBuckets IpAddr
  activationRequests : BoundedBuckets Uuid
  inviteAccounts : BoundedBuckets D

def AdmissionPolicies.buckets (policies : AdmissionPolicies) {K : Type} [DecidableEq K]
    (policy : BucketPolicy) (capacity : Nat) (hc : 0 < capacity) : BoundedBuckets K :=
  .new policy.rule capacity policies.entryTtl hc policies.entryTtl_pos

def AdmissionState.new (policies : AdmissionPolicies) (D : Type) [DecidableEq D] :
    AdmissionState D where
  createSources := policies.buckets policies.createSource _ policies.sourceCapacity_pos
  createDevices := policies.buckets policies.createDevice _ policies.identifierCapacity_pos
  pollSources := policies.buckets policies.pollSource _ policies.sourceCapacity_pos
  pollRequests := policies.buckets policies.pollRequest _ policies.identifierCapacity_pos
  activationSources := policies.buckets policies.activateSource _ policies.sourceCapacity_pos
  activationRequests := policies.buckets policies.activateRequest _ policies.identifierCapacity_pos
  inviteAccounts := policies.buckets policies.inviteAccount _ policies.identifierCapacity_pos

/-- The `RateLimited` error: its text and the seconds to wait. -/
structure RateLimited where
  message : String
  retryAfter : Nat
  deriving DecidableEq

/-- Whole seconds, rounded up and never zero. -/
def limited (message : String) (delay : Duration) : RateLimited :=
  ⟨message, max (⌊delay⌋.toNat + if (⌊delay⌋ : ℚ) = delay then 0 else 1) 1⟩

section Checks

variable {D : Type} [DecidableEq D] (sha256 : String → D)

/-- A request refused by its source is not charged to its identifier. -/
def checkBoth {K L : Type} [DecidableEq K] [DecidableEq L] (sources : BoundedBuckets K)
    (identifiers : BoundedBuckets L) (source : K) (identifier : L) (now : Instant)
    (sourceMessage identifierMessage : String) :
    Except RateLimited Unit × BoundedBuckets K × BoundedBuckets L :=
  match sources.checkAt source now with
  | (.error delay, sources) => (.error (limited sourceMessage delay), sources, identifiers)
  | (.ok _, sources) =>
    let (result, identifiers) := identifiers.checkAt identifier now
    (result.mapError (limited identifierMessage), sources, identifiers)

def AdmissionState.checkCreate (s : AdmissionState D) (source : IpAddr) (deviceId : String)
    (now : Instant) : Except RateLimited Unit × AdmissionState D :=
  let (result, sources, devices) :=
    checkBoth s.createSources s.createDevices (canonicalIp source) (sha256 deviceId) now
      "pairing source rate exceeded" "pairing device rate exceeded"
  (result, { s with createSources := sources, createDevices := devices })

def AdmissionState.checkPoll (s : AdmissionState D) (source : IpAddr) (requestId : Uuid)
    (now : Instant) : Except RateLimited Unit × AdmissionState D :=
  let (result, sources, requests) :=
    checkBoth s.pollSources s.pollRequests (canonicalIp source) requestId now
      "pairing poll source rate exceeded" "pairing request poll rate exceeded"
  (result, { s with pollSources := sources, pollRequests := requests })

def AdmissionState.checkActivation (s : AdmissionState D) (source : IpAddr) (requestId : Uuid)
    (now : Instant) : Except RateLimited Unit × AdmissionState D :=
  let (result, sources, requests) :=
    checkBoth s.activationSources s.activationRequests (canonicalIp source) requestId now
      "pairing activation source rate exceeded" "pairing activation attempts exceeded"
  (result, { s with activationSources := sources, activationRequests := requests })

def AdmissionState.checkInviteAccount (s : AdmissionState D) (accountId : String)
    (now : Instant) : Except RateLimited Unit × AdmissionState D :=
  let (result, accounts) := s.inviteAccounts.checkAt (sha256 accountId) now
  (result.mapError (limited "pairing invite account rate exceeded"),
    { s with inviteAccounts := accounts })

end Checks

/-- Every production bucket refills within the time an idle entry is kept. -/
theorem production_refills_within_ttl :
    ∀ policy ∈ [AdmissionPolicies.production.createSource, AdmissionPolicies.production.createDevice,
      AdmissionPolicies.production.pollSource, AdmissionPolicies.production.pollRequest,
      AdmissionPolicies.production.activateSource, AdmissionPolicies.production.activateRequest,
      AdmissionPolicies.production.inviteAccount],
      policy.rule.burst * policy.rule.interval ≤ AdmissionPolicies.production.entryTtl := by
  decide +kernel

def REPORT_BUCKET_BURST : ℚ := 64
def REPORT_BUCKET_REFILL_PER_SECOND : ℚ := 16
def REPORT_BUCKET_CAPACITY : Nat := 16384
def REPORT_BUCKET_TTL : Duration := 15 * 60

/-- The report limiter multiplies by a rate where the pairing limiter divides by an interval. -/
def reportRule : RefillRule where
  burst := REPORT_BUCKET_BURST
  gain elapsed := elapsed * REPORT_BUCKET_REFILL_PER_SECOND
  wait missing := missing / REPORT_BUCKET_REFILL_PER_SECOND
  interval := 1 / REPORT_BUCKET_REFILL_PER_SECOND
  one_le_burst := by norm_num [REPORT_BUCKET_BURST]
  interval_pos := by norm_num [REPORT_BUCKET_REFILL_PER_SECOND]
  gain_eq elapsed := by rw [div_div_eq_mul_div, div_one]
  wait_eq missing := by rw [mul_one_div]

/-- `ReportBuckets::new` with the capacity and TTL of the caller. -/
def ReportBuckets.new (capacity : Nat) (entryTtl : Duration) (hc : 0 < capacity)
    (ht : 0 < entryTtl) : BoundedBuckets String := .new reportRule capacity entryTtl hc ht

def ReportBuckets.production : BoundedBuckets String :=
  ReportBuckets.new REPORT_BUCKET_CAPACITY REPORT_BUCKET_TTL (by decide)
    (by norm_num [REPORT_BUCKET_TTL])

def ReportBuckets.allowAt (m : BoundedBuckets String) (hostId : String) (now : Instant) :
    Except Duration Unit × BoundedBuckets String := m.checkAt hostId now

/-- The error of the report handler, with the seconds it computes for itself. -/
def reportLimited (delay : Duration) : RateLimited :=
  ⟨"client report rate exceeded",
    max (⌊delay⌋.toNat + if (⌊delay⌋ : ℚ) = delay then 0 else 1) 1⟩

end HostMonitoring.Admission
