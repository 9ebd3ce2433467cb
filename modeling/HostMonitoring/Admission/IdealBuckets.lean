import HostMonitoring.Framework.TokenBucket
import HostMonitoring.Admission.BoundedBuckets

namespace HostMonitoring.Admission

open HostMonitoring.Framework
open HostMonitoring.Framework.TokenBucket

def RefillRule.rate (rule : RefillRule) : Rate ℚ :=
  ⟨rule.burst, rule.interval, zero_le_one.trans rule.one_le_burst, rule.interval_pos⟩

def Bucket.level (b : Bucket) : Level ℚ := .charged b.tokens b.lastRefill

theorem tokensAt_eq_read (b : Bucket) (rule : RefillRule) (now : Instant) :
    b.tokensAt rule now = b.level.read rule.rate now := by
  rw [Bucket.tokensAt, rule.gain_eq]
  rfl

/-- `now` is not before the moment `w`, if there is one. -/
def Since (w : Option Instant) (now : Instant) : Prop := ∀ s ∈ w, s ≤ now

instance (w : Option Instant) (now : Instant) : Decidable (Since w now) :=
  match w with
  | none => isTrue (by simp [Since])
  | some s => decidable_of_iff (s ≤ now) (by simp [Since])

theorem since_some (s now : Instant) : Since (some s) now ↔ s ≤ now := by simp [Since]

/-- The entry of a key, written or dropped last at `w`, stands for an ideal
bucket: equal to it when present, full when absent, from `w` on. -/
def Tracks (rule : RefillRule) (entry : Option Bucket) (ideal : Level ℚ)
    (w : Option Instant) : Prop :=
  (∀ t, Since w t → ideal.By t) ∧
  match entry with
  | some e => e.lastRefill = e.lastSeen ∧ w = some e.lastSeen ∧
      0 ≤ e.tokens ∧ e.tokens < rule.burst ∧
      ∀ t, Since w t → e.tokensAt rule t = ideal.read rule.rate t
  | none => ∀ t, Since w t → ideal.read rule.rate t = rule.burst

theorem tracks_untouched (rule : RefillRule) : Tracks rule none .untouched none :=
  ⟨fun _ _ => trivial, fun _ _ => rfl⟩

private theorem tracks_drop (rule : RefillRule) (e : Bucket) (ideal : Level ℚ)
    (w : Option Instant) (now : Instant) (h : Tracks rule (some e) ideal w) (hw : Since w now)
    (hfull : rule.burst ≤ e.tokensAt rule now) : Tracks rule none ideal (some now) := by
  obtain ⟨hs, _, _, _, _, hread⟩ := h
  refine ⟨fun t ht => (hs now hw).mono ((since_some now t).mp ht), fun t ht => ?_⟩
  apply le_antisymm (Level.read_le_burst rule.rate ideal t)
  rw [hread now hw] at hfull
  exact hfull.trans (Level.read_mono rule.rate ideal now t ((since_some now t).mp ht))

/-- An entry idle for the whole TTL has refilled, so forgetting it loses nothing. -/
theorem tracks_expire (rule : RefillRule) (e : Bucket) (ideal : Level ℚ) (w : Option Instant)
    (now ttl : Instant) (h : Tracks rule (some e) ideal w) (ht : 0 < ttl)
    (hl : rule.burst * rule.interval ≤ ttl)
    (hold : ttl ≤ saturatingDurationSince now e.lastSeen) : Tracks rule none ideal (some now) := by
  have hage : ttl ≤ now - e.lastSeen := by
    obtain h' | h' := le_max_iff.mp hold
    · exact h'
    · linarith
  have hw : Since w now := by
    rw [h.2.2.1, since_some]
    linarith
  apply tracks_drop rule e ideal w now h hw
  rw [tokensAt_eq_read]
  refine (Level.read_idle rule.rate e.tokens e.lastRefill now h.2.2.2.1 ?_).ge
  change rule.burst * rule.interval ≤ now - e.lastRefill
  linarith [h.2.1]

/-- Only time can fill an entry again, so a full one is evicted after its last check. -/
theorem tracks_evict (rule : RefillRule) (e : Bucket) (ideal : Level ℚ) (w : Option Instant)
    (now : Instant) (h : Tracks rule (some e) ideal w)
    (hfull : rule.burst ≤ e.tokensAt rule now) : Tracks rule none ideal (some now) := by
  obtain ⟨_, hr, hseen, _, hlt, _⟩ := id h
  have hw : Since w now := by
    rw [hseen, since_some]
    by_contra hn
    have hz : saturatingDurationSince now e.lastRefill = 0 :=
      max_eq_right (by linarith [not_le.mp hn])
    rw [Bucket.tokensAt, hz, rule.gain_eq, zero_div, add_zero] at hfull
    linarith [hfull.trans (min_le_left _ _)]
  exact tracks_drop rule e ideal w now h hw hfull

/-- A check of an entry that reads as the ideal bucket decides as the ideal bucket. -/
theorem check_tracks (rule : RefillRule) (e : Bucket) (ideal : Level ℚ) (now : Instant)
    (hs : ideal.By now) (he : 0 ≤ e.tokensAt rule now)
    (hread : e.tokensAt rule now = ideal.read rule.rate now) :
    ((e.check rule now).1 = .ok () ∧ 1 ≤ ideal.read rule.rate now ∧
      Tracks rule (some (e.check rule now).2) (ideal.charge rule.rate now) (some now)) ∨
    ((∃ delay, (e.check rule now).1 = .error delay) ∧ ideal.read rule.rate now < 1 ∧
      Tracks rule (some (e.check rule now).2) ideal (some now)) := by
  have hb := rule.one_le_burst
  by_cases hlt : e.tokensAt rule now < 1
  · right
    have hc : e.check rule now = (.error (rule.wait (1 - e.tokensAt rule now)),
        ⟨e.tokensAt rule now, now, now⟩) := by rw [Bucket.check]; simp [hlt]
    rw [hc]
    refine ⟨⟨_, rfl⟩, hread ▸ hlt, fun t ht => hs.mono ((since_some now t).mp ht), rfl, rfl, he,
      by dsimp only; linarith, fun t ht => ?_⟩
    rw [tokensAt_eq_read, Bucket.level, hread]
    exact Level.read_restamp rule.rate ideal now t hs ((since_some now t).mp ht)
  · left
    have hc : e.check rule now = (.ok (), ⟨e.tokensAt rule now - 1, now, now⟩) := by
      rw [Bucket.check]; simp [hlt]
    have hone : 1 ≤ e.tokensAt rule now := not_lt.mp hlt
    have hbnd : e.tokensAt rule now ≤ rule.burst := min_le_right _ _
    rw [hc]
    refine ⟨rfl, hread ▸ hone, fun t ht => (since_some now t).mp ht, rfl, rfl,
      by dsimp only; linarith, by dsimp only; linarith, fun t _ => ?_⟩
    rw [tokensAt_eq_read, Bucket.level, hread]
    rfl

end HostMonitoring.Admission
