import HostMonitoring.Admission.RateBound

namespace HostMonitoring.Admission

open HostMonitoring.Framework
open HostMonitoring.Framework.TokenBucket

variable {K : Type} [DecidableEq K]

namespace BoundedBuckets

/-- What the map holds from `now` on agrees with one ideal bucket per key, and
so does every answer it can give at `now`. -/
structure AgreesWithIdeal (m : BoundedBuckets K) (ideal : K → Level ℚ) (now : Instant) : Prop where
  size : m.entries.size ≤ m.capacity
  present : ∀ k e, m.entries.get? k = some e →
    e.tokensAt m.rule now = (ideal k).read m.rule.rate now
  absent : ∀ k, m.entries.get? k = none → (ideal k).read m.rule.rate now = m.rule.burst
  admitted : ∀ k, (m.checkAt k now).1 = .ok () → 1 ≤ (ideal k).read m.rule.rate now
  refused : ∀ k delay, (m.checkAt k now).1 = .error delay →
    (ideal k).read m.rule.rate now < 1 ∨
    (m.entries.get? k = none ∧ m.entries.size = m.capacity ∧
      ∀ k' e, m.entries.get? k' = some e → e.tokensAt m.rule now < m.rule.burst)

theorem checks_lastWrite {m₀ m : BoundedBuckets K} {calls : List (Call K)} {w : K → Option Instant}
    (run : Checks m₀ calls m w) : ∀ k, ∀ s ∈ w k, ∃ c ∈ calls, c.now = s := by
  induction run with
  | start => simp
  | @call calls m m₁ w before order key now ih =>
    intro k s hs
    rw [Option.mem_def, writes] at hs
    split_ifs at hs with same
    · obtain ⟨c, hc, he⟩ := ih k s hs
      exact ⟨c, List.mem_append_left _ hc, he⟩
    · exact ⟨_, List.mem_append_right _ (List.mem_singleton_self _), Option.some.inj hs⟩

/-- Non-decreasing readings put every call in order. -/
theorem checks_inOrder {m₀ m : BoundedBuckets K} {calls : List (Call K)} {w : K → Option Instant}
    (run : Checks m₀ calls m w) (sorted : (calls.map Call.now).Pairwise (· ≤ ·)) :
    ∀ c ∈ calls, c.InOrder := by
  induction run with
  | start => simp
  | @call calls m m₁ w before order key now ih =>
    rw [List.map_append, List.pairwise_append] at sorted
    obtain ⟨early, _, across⟩ := sorted
    intro c hc
    obtain hc | hc := List.mem_append.mp hc
    · exact ih early c hc
    · rw [List.mem_singleton.mp hc]
      intro s hs
      obtain ⟨c', hc', rfl⟩ := checks_lastWrite before key s hs
      exact across c'.now (List.mem_map.mpr ⟨c', hc', rfl⟩) now (by simp)

/-- A map that lost no room to stale entries has none, so the refused key is absent. -/
theorem overfull_full (m : BoundedBuckets K) (key : K) (now : Instant)
    (hs : m.entries.size ≤ m.capacity) (h : m.Overfull key now) :
    m.entries.get? key = none ∧ m.entries.size = m.capacity ∧
      ∀ k e, m.entries.get? k = some e → e.tokensAt m.rule now < m.rule.burst := by
  obtain ⟨stale, hcap, hfull⟩ := h
  have hle : (m.retainFresh now).entries.size ≤ m.entries.size := m.entries.size_retain_le _
  have same : (m.retainFresh now).entries = m.entries :=
    m.entries.retain_eq_self _ (hs.trans hcap)
  rw [same] at hcap hfull
  refine ⟨?_, le_antisymm hs hcap, hfull⟩
  cases hg : m.entries.get? key with
  | none => rfl
  | some e =>
    have hn : (m.retainFresh now).entries.get? key = none := by
      rw [retainFresh, AssocMap.get?_retain, hg]
      simp [Option.filter, not_lt.mpr (stale e hg)]
    rw [same, hg] at hn
    cases hn

theorem checks_agree {m₀ m : BoundedBuckets K} {calls : List (Call K)} {w : K → Option Instant}
    (run : Checks m₀ calls m w) (h₀ : m₀.entries = .empty)
    (hl : m₀.rule.burst * m₀.rule.interval ≤ m₀.entryTtl)
    (sorted : (calls.map Call.now).Pairwise (· ≤ ·)) (m₁ : BoundedBuckets K)
    (order : m.Reorders m₁) (now : Instant) (hnow : ∀ c ∈ calls, c.now ≤ now) :
    m₁.AgreesWithIdeal (fun k => idealBucket m₀.rule k calls) now := by
  obtain ⟨hr, hc, ht⟩ := reorders_config order
  obtain ⟨hr', hc', ht'⟩ := checks_config run
  have hsize : m₁.entries.size ≤ m₁.capacity := by
    rw [hc, hc', ← AssocMap.size_reorders _ _ order.2]
    exact checks_size run (by rw [h₀]; exact Nat.zero_le _)
  have hl' : m₁.rule.burst * m₁.rule.interval ≤ m₁.entryTtl := by rw [hr, hr', ht, ht']; exact hl
  have since (k : K) : Since (w k) now := by
    intro s hs
    obtain ⟨c, hm, rfl⟩ := checks_lastWrite run k s hs
    exact hnow c hm
  have track (k : K) :
      Tracks m₁.rule (m₁.entries.get? k) (idealBucket m₀.rule k calls) (w k) := by
    rw [hr, hr', ← AssocMap.get?_reorders _ _ order.2 k]
    exact (checks_track run h₀ hl k (fun c hm _ => checks_inOrder run sorted c hm)).1
  constructor
  · exact hsize
  · intro k e he
    have h := track k
    rw [he] at h
    exact h.2.2.2.2.2 now (since k)
  · intro k hn
    have h := track k
    rw [hn] at h
    exact h.2 now (since k)
  · intro k hok
    obtain ⟨_, _, hone, _⟩ | ⟨⟨d, herr⟩, _, _⟩ := m₁.tracks_self k now _ w hl' (since k) (track k)
    · exact hone
    · rw [herr] at hok
      cases hok
  · intro k delay herr
    obtain ⟨hok, _⟩ | ⟨_, hlt | hover, _⟩ := m₁.tracks_self k now _ w hl' (since k) (track k)
    · rw [hok] at herr
      cases herr
    · exact Or.inl hlt
    · exact Or.inr (m₁.overfull_full k now hsize hover)

end BoundedBuckets

/-- Along every run with non-decreasing readings, the pairing and report maps
agree with one unforgotten bucket per key, at any capacity. -/
theorem bounded_buckets_refine_ideal :
    (∀ policy ∈ [AdmissionPolicies.production.createSource, AdmissionPolicies.production.createDevice,
      AdmissionPolicies.production.pollSource, AdmissionPolicies.production.pollRequest,
      AdmissionPolicies.production.activateSource, AdmissionPolicies.production.activateRequest,
      AdmissionPolicies.production.inviteAccount],
      policy.rule.burst * policy.rule.interval ≤ AdmissionPolicies.production.entryTtl) ∧
    (∀ (K : Type) [DecidableEq K] (policy : BucketPolicy) (capacity : Nat) (entryTtl : Duration)
      (hc : 0 < capacity) (ht : 0 < entryTtl) (calls : List (Call K)) (m m₁ : BoundedBuckets K)
      (w : K → Option Instant) (now : Instant),
      policy.burst * policy.refillInterval ≤ entryTtl →
      BoundedBuckets.Checks (.new policy.rule capacity entryTtl hc ht) calls m w →
      (calls.map Call.now).Pairwise (· ≤ ·) → m.Reorders m₁ → (∀ c ∈ calls, c.now ≤ now) →
      m₁.AgreesWithIdeal (fun k => idealBucket policy.rule k calls) now) ∧
    (∀ (capacity : Nat) (hc : 0 < capacity) (ht : 0 < REPORT_BUCKET_TTL)
      (calls : List (Call String)) (m m₁ : BoundedBuckets String) (w : String → Option Instant)
      (now : Instant),
      BoundedBuckets.Checks (ReportBuckets.new capacity REPORT_BUCKET_TTL hc ht) calls m w →
      (calls.map Call.now).Pairwise (· ≤ ·) → m.Reorders m₁ → (∀ c ∈ calls, c.now ≤ now) →
      m₁.AgreesWithIdeal (fun k => idealBucket reportRule k calls) now) := by
  refine ⟨production_refills_within_ttl, ?_, ?_⟩
  · intro K _ policy capacity entryTtl hc ht calls m m₁ w now hl run sorted order hnow
    exact BoundedBuckets.checks_agree run rfl hl sorted m₁ order now hnow
  · intro capacity hc ht calls m m₁ w now run sorted order hnow
    have hl : reportRule.burst * reportRule.interval ≤ REPORT_BUCKET_TTL := by decide +kernel
    exact BoundedBuckets.checks_agree run rfl hl sorted m₁ order now hnow

/-- Room for the polls of one request only. -/
def lonelyBuckets : BoundedBuckets Uuid :=
  .new AdmissionPolicies.production.pollRequest.rule 1 ENTRY_TTL (by decide)
    AdmissionPolicies.production.entryTtl_pos

/-- One poll more of a request than there are tokens, and a poll of another request at once and in
the next day. -/
def lonelyPolls : List (Uuid × Instant) :=
  List.replicate 31 (⟨7⟩, 0) ++ [(⟨8⟩, 0), (⟨8⟩, 86400)]

/-- The first request is forgotten. -/
theorem bounded_buckets_refine_ideal_poll :
    (lonelyBuckets.serve lonelyPolls).2.1.entries.get? ⟨7⟩ = none ∧
    (lonelyBuckets.serve lonelyPolls).1.countP Call.admitted = 31 ∧
    (lonelyBuckets.serve lonelyPolls).2.1.AgreesWithIdeal
      (fun k => idealBucket AdmissionPolicies.production.pollRequest.rule k
        (lonelyBuckets.serve lonelyPolls).1) 86400 := by
  have run := BoundedBuckets.serve_checks lonelyBuckets lonelyPolls
  refine ⟨by decide +kernel, by decide +kernel, ?_⟩
  exact bounded_buckets_refine_ideal.2.1 Uuid AdmissionPolicies.production.pollRequest 1 ENTRY_TTL
    (by decide) (by norm_num [ENTRY_TTL]) _ _ _ _ _ (by decide +kernel) run (by decide +kernel)
    (BoundedBuckets.reorders_refl _) (by decide +kernel)

end HostMonitoring.Admission
