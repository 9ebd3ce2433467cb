import HostMonitoring.Admission.Delays

namespace HostMonitoring.Admission

open HostMonitoring.Framework

namespace BoundedBuckets

variable {K : Type} [DecidableEq K]

/-- The tokens a check of the key finds. -/
def available (m : BoundedBuckets K) (key : K) (now : Instant) : ℚ :=
  match (m.retainFresh now).entries.get? key with
  | some e => e.tokensAt m.rule now
  | none => m.rule.burst

end BoundedBuckets

section
variable {K L : Type} [DecidableEq K] [DecidableEq L]

/-- A reachable table of the pairing limiter at the time of a check. -/
structure Ready (m : BoundedBuckets K) (now : Instant) : Prop where
  whole : m.rule.Whole
  refills : m.rule.burst * m.rule.interval ≤ m.entryTtl
  settled : m.Settled now

end

section
variable {K L : Type} [DecidableEq K] [DecidableEq L]

/-- The table has been through checks at some of these times. -/
def Visited (m₀ : BoundedBuckets K) (times : List Instant) (m : BoundedBuckets K) : Prop :=
  ∃ calls m₁ w, BoundedBuckets.Checks m₀ calls m₁ w ∧ m₁.Reorders m ∧
    (calls.map Call.now).Sublist times

namespace Visited

variable {m₀ m m₁ : BoundedBuckets K} {times : List Instant}

theorem start : Visited m₀ [] m₀ :=
  ⟨[], m₀, _, .start, BoundedBuckets.reorders_refl _, List.Sublist.refl _⟩

theorem reorder (h : Visited m₀ times m) (order : m.Reorders m₁) (now : Instant) :
    Visited m₀ (times ++ [now]) m₁ := by
  obtain ⟨calls, m', w, run, before, sub⟩ := h
  refine ⟨calls, m', w, run, ⟨?_, before.2.trans order.2⟩, sub.trans (List.sublist_append_left _ _)⟩
  rw [order.1, before.1]

theorem check (h : Visited m₀ times m) (order : m.Reorders m₁) (key : K) (now : Instant) :
    Visited m₀ (times ++ [now]) (m₁.checkAt key now).2 := by
  obtain ⟨calls, m', w, run, before, sub⟩ := h
  have whole : m'.Reorders m₁ := ⟨by rw [order.1, before.1], before.2.trans order.2⟩
  refine ⟨_, _, _, run.call whole key now, BoundedBuckets.reorders_refl _, ?_⟩
  rw [List.map_append]
  exact sub.append (List.Sublist.refl _)

/-- What production tables look like at the time of the next check. -/
theorem ready {policy : BucketPolicy} {capacity : Nat} {hc : 0 < capacity}
    (h : Visited (AdmissionPolicies.production.buckets policy capacity hc) times m)
    (token : policy.refillInterval ∈ Nanos)
    (refills : policy.rule.burst * policy.rule.interval ≤ AdmissionPolicies.production.entryTtl)
    (sorted : times.Pairwise (· ≤ ·)) (nanos : ∀ t ∈ times, t ∈ Nanos) (now : Instant)
    (hnow : ∀ t ∈ times, t ≤ now) (order : m.Reorders m₁) :
    Ready m₁ now ∧ m₁.rule = policy.rule ∧ m₁.entryTtl = ENTRY_TTL := by
  obtain ⟨calls, m', w, run, before, sub⟩ := h
  have early : ∀ c ∈ calls, c.now ∈ times := fun c hc => sub.subset (List.mem_map_of_mem hc)
  have settled := BoundedBuckets.checks_settled run rfl (policy.whole token)
    (sorted.sublist sub) (fun c hc => nanos _ (early c hc)) now fun c hc => hnow _ (early c hc)
  obtain ⟨rule, _, ttl⟩ := BoundedBuckets.checks_config run
  obtain ⟨rule', _, ttl'⟩ := BoundedBuckets.reorders_config before
  obtain ⟨rule'', _, ttl''⟩ := BoundedBuckets.reorders_config order
  have same : m₁.rule = policy.rule := rule''.trans (rule'.trans rule)
  have kept : m₁.entryTtl = ENTRY_TTL := ttl''.trans (ttl'.trans ttl)
  refine ⟨⟨?_, ?_, (settled.reorder before).reorder order⟩, same, kept⟩
  · rw [same]
    exact policy.whole token
  · rw [same, kept]
    exact refills

end Visited

end

section
variable {D : Type} [DecidableEq D] (sha256 : String → D)

inductive AdmissionCall where
  | create (source : IpAddr) (deviceId : String)
  | poll (source : IpAddr) (requestId : Uuid)
  | activation (source : IpAddr) (requestId : Uuid)
  | invite (accountId : String)

def AdmissionState.serve (s : AdmissionState D) (now : Instant) :
    AdmissionCall → Except RateLimited Unit × AdmissionState D
  | .create source deviceId => s.checkCreate sha256 source deviceId now
  | .poll source requestId => s.checkPoll source requestId now
  | .activation source requestId => s.checkActivation source requestId now
  | .invite accountId => s.checkInviteAccount sha256 accountId now

/-- The same state, each of its maps in another iteration order. -/
structure AdmissionState.Reorders (s s₁ : AdmissionState D) : Prop where
  createSources : s.createSources.Reorders s₁.createSources
  createDevices : s.createDevices.Reorders s₁.createDevices
  pollSources : s.pollSources.Reorders s₁.pollSources
  pollRequests : s.pollRequests.Reorders s₁.pollRequests
  activationSources : s.activationSources.Reorders s₁.activationSources
  activationRequests : s.activationRequests.Reorders s₁.activationRequests
  inviteAccounts : s.inviteAccounts.Reorders s₁.inviteAccounts

end

end HostMonitoring.Admission
