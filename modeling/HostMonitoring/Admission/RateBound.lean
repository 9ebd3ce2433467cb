import HostMonitoring.Admission.BucketRuns
import HostMonitoring.Admission.PairingAdmission

namespace HostMonitoring.Admission

open HostMonitoring.Framework
open HostMonitoring.Framework.TokenBucket

variable {K : Type} [DecidableEq K]

/-- The admitted calls of `k` whose clock reading lies in `[s, t]`. -/
def admittedIn (k : K) (s t : Instant) (calls : List (Call K)) : List (Call K) :=
  calls.filter fun c => decide (c.key = k) && c.admitted && decide (s ≤ c.now ∧ c.now ≤ t)

theorem admittedIn_length (k : K) (s t : Instant) (calls : List (Call K)) :
    (admittedIn k s t calls).length =
      ((charges k calls).filter (fun u => decide (s ≤ u ∧ u ≤ t))).length := by
  rw [charges, List.filter_map, List.length_map, List.filter_filter]
  congr 1
  apply List.filter_congr
  intro c _
  exact Bool.and_comm _ _

/-- When every call of `k` reads a clock no older than the last change of its
bucket, `k` is admitted at most `burst + (t - s) / interval` times in `[s, t]`. -/
theorem checkAt_rate_bound (rule : RefillRule) (capacity : Nat) (entryTtl : Duration)
    (hc : 0 < capacity) (ht : 0 < entryTtl) (hl : rule.burst * rule.interval ≤ entryTtl)
    (calls : List (Call K)) (m : BoundedBuckets K) (w : K → Option Instant)
    (run : BoundedBuckets.Checks (.new rule capacity entryTtl hc ht) calls m w) (k : K)
    (hin : ∀ c ∈ calls, c.key = k → c.InOrder) (s t : Instant) (hst : s ≤ t) :
    ((admittedIn k s t calls).length : ℚ) ≤ rule.burst + (t - s) / rule.interval := by
  have paid := (BoundedBuckets.checks_track run rfl hl k hin).2
  rw [admittedIn_length]
  exact paid.count_window s t hst

namespace BoundedBuckets

/-- The calls of a schedule with the answers the map gives in its own order. -/
def serve (m : BoundedBuckets K) (schedule : List (K × Instant)) :
    List (Call K) × BoundedBuckets K × (K → Option Instant) :=
  schedule.foldl (fun (calls, m, w) (key, now) =>
    (calls ++ [⟨key, now, w key, (m.checkAt key now).1⟩], (m.checkAt key now).2,
      m.writes (m.checkAt key now).2 w now)) ([], m, fun _ => none)

theorem serve_checks (m : BoundedBuckets K) (schedule : List (K × Instant)) :
    Checks m (m.serve schedule).1 (m.serve schedule).2.1 (m.serve schedule).2.2 := by
  induction schedule using List.reverseRecOn with
  | nil => exact .start
  | append_singleton schedule e ih =>
    rw [serve, List.foldl_append]
    exact .call ih (reorders_refl _) e.1 e.2

end BoundedBuckets

/-- Thirty polls drain a request's bucket at second 1; then a check that read the
clock at 0 turns the bucket back and the next one at 1 is credited that second again. -/
def turnedBack : List (Uuid × Instant) :=
  List.replicate 30 (⟨7⟩, 1) ++ [(⟨7⟩, 0), (⟨7⟩, 1), (⟨7⟩, 0), (⟨7⟩, 1)]

theorem rate_bound_fails_turned_back :
    ¬∀ (calls : List (Call Uuid)) (m : BoundedBuckets Uuid) (w : Uuid → Option Instant),
      BoundedBuckets.Checks (AdmissionState.new .production (BitVec 256)).pollRequests calls m w →
      ∀ (k : Uuid) (s t : Instant), s ≤ t → ((admittedIn k s t calls).length : ℚ) ≤
        AdmissionPolicies.production.pollRequest.burst +
          (t - s) / AdmissionPolicies.production.pollRequest.refillInterval := by
  intro h
  have run := BoundedBuckets.serve_checks
    (AdmissionState.new .production (BitVec 256)).pollRequests turnedBack
  have count : (admittedIn ⟨7⟩ 0 1 (BoundedBuckets.serve
      (AdmissionState.new .production (BitVec 256)).pollRequests turnedBack).1).length = 32 := by
    decide +kernel
  have bound := h _ _ _ run ⟨7⟩ 0 1 (by norm_num)
  rw [count] at bound
  norm_num [AdmissionPolicies.production] at bound

def pollBuckets : BoundedBuckets Uuid :=
  .new AdmissionPolicies.production.pollRequest.rule IDENTIFIER_CAPACITY ENTRY_TTL
    AdmissionPolicies.production.identifierCapacity_pos AdmissionPolicies.production.entryTtl_pos

theorem checkAt_rate_bound_polls :
    ((admittedIn ⟨7⟩ 0 1 (pollBuckets.serve [(⟨7⟩, 0), (⟨7⟩, 1)]).1).length : ℚ) ≤ 31 := by
  have run := BoundedBuckets.serve_checks pollBuckets [(⟨7⟩, 0), (⟨7⟩, 1)]
  have inOrder : ∀ c ∈ (pollBuckets.serve [(⟨7⟩, 0), (⟨7⟩, 1)]).1, c.key = ⟨7⟩ → c.InOrder := by
    decide +kernel
  have bound := checkAt_rate_bound AdmissionPolicies.production.pollRequest.rule
    IDENTIFIER_CAPACITY ENTRY_TTL _ _ (by decide +kernel) _ _ _ run ⟨7⟩ inOrder 0 1 (by norm_num)
  refine bound.trans (le_of_eq ?_)
  norm_num [AdmissionPolicies.production, BucketPolicy.rule]

end HostMonitoring.Admission
