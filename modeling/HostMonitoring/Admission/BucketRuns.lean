import HostMonitoring.Admission.CheckCases

namespace HostMonitoring.Admission

open HostMonitoring.Framework
open HostMonitoring.Framework.TokenBucket

variable {K : Type} [DecidableEq K]

/-- A check in lock order. `lastWrite` is the `now` of the earlier call that last
changed what the map holds for the key. -/
structure Call (K : Type) where
  key : K
  now : Instant
  lastWrite : Option Instant
  result : Except Duration Unit

def Call.admitted (c : Call K) : Bool :=
  match c.result with
  | .ok _ => true
  | .error _ => false

/-- The clock was read no earlier than the key's bucket was last changed. -/
def Call.InOrder (c : Call K) : Prop := Since c.lastWrite c.now

instance (c : Call K) : Decidable c.InOrder := inferInstanceAs (Decidable (Since _ _))

namespace BoundedBuckets

def Reorders (m m₁ : BoundedBuckets K) : Prop :=
  m₁ = { m with entries := m₁.entries } ∧ m.entries.Reorders m₁.entries

def writes (m m' : BoundedBuckets K) (w : K → Option Instant) (now : Instant) : K → Option Instant :=
  fun k => if m'.entries.get? k = m.entries.get? k then w k else some now

/-- The calls served under the lock; the map may iterate in any order each time. -/
inductive Checks (m₀ : BoundedBuckets K) :
    List (Call K) → BoundedBuckets K → (K → Option Instant) → Prop where
  | start : Checks m₀ [] m₀ (fun _ => none)
  | call {calls : List (Call K)} {m m₁ : BoundedBuckets K} {w : K → Option Instant}
      (before : Checks m₀ calls m w) (order : m.Reorders m₁) (key : K) (now : Instant) :
      Checks m₀ (calls ++ [⟨key, now, w key, (m₁.checkAt key now).1⟩]) (m₁.checkAt key now).2
        (m.writes (m₁.checkAt key now).2 w now)

omit [DecidableEq K] in
theorem reorders_refl (m : BoundedBuckets K) : m.Reorders m := ⟨rfl, List.Perm.refl _⟩

omit [DecidableEq K] in
theorem reorders_config {m m₁ : BoundedBuckets K} (h : m.Reorders m₁) :
    m₁.rule = m.rule ∧ m₁.capacity = m.capacity ∧ m₁.entryTtl = m.entryTtl := by
  rw [h.1]
  exact ⟨rfl, rfl, rfl⟩

theorem checks_config {m₀ m : BoundedBuckets K} {calls : List (Call K)} {w : K → Option Instant}
    (h : Checks m₀ calls m w) :
    m.rule = m₀.rule ∧ m.capacity = m₀.capacity ∧ m.entryTtl = m₀.entryTtl := by
  induction h with
  | start => exact ⟨rfl, rfl, rfl⟩
  | call before order key now ih =>
    obtain ⟨hr, hc, ht⟩ := checkAt_config _ key now
    obtain ⟨hr', hc', ht'⟩ := reorders_config order
    exact ⟨hr.trans (hr'.trans ih.1), hc.trans (hc'.trans ih.2.1), ht.trans (ht'.trans ih.2.2)⟩

/-- TTL expiry and eviction never leave the map above its capacity. -/
theorem checks_size {m₀ m : BoundedBuckets K} {calls : List (Call K)} {w : K → Option Instant}
    (h : Checks m₀ calls m w) (h₀ : m₀.entries.size ≤ m₀.capacity) :
    m.entries.size ≤ m₀.capacity := by
  induction h with
  | start => exact h₀
  | @call calls m m₁ w before order key now ih =>
    have hc : m₁.capacity = m₀.capacity :=
      (reorders_config order).2.1.trans (checks_config before).2.1
    have hs : m₁.entries.size ≤ m₁.capacity := by
      rw [hc, ← AssocMap.size_reorders _ _ order.2]
      exact ih
    exact hc ▸ checkAt_size m₁ key now hs

end BoundedBuckets

/-- The moments at which requests of `k` were admitted. -/
def charges (k : K) (calls : List (Call K)) : List Instant :=
  (calls.filter fun c => decide (c.key = k) && c.admitted).map Call.now

/-- The bucket a key would have if none were ever forgotten: full at first,
charged for each admitted request. -/
def idealBucket (rule : RefillRule) (k : K) (calls : List (Call K)) : Level ℚ :=
  (charges k calls).foldl (Level.charge rule.rate) .untouched

theorem charges_snoc (k : K) (calls : List (Call K)) (c : Call K) :
    charges k (calls ++ [c]) =
      charges k calls ++ if c.key = k ∧ c.admitted = true then [c.now] else [] := by
  by_cases h : c.key = k ∧ c.admitted = true
  · simp [charges, List.filter_append, h.1, h.2]
  · have hf : (decide (c.key = k) && c.admitted) = false := by simpa using h
    simp [charges, List.filter_append, hf, h]

theorem idealBucket_snoc (rule : RefillRule) (k : K) (calls : List (Call K)) (c : Call K) :
    idealBucket rule k (calls ++ [c]) =
      if c.key = k ∧ c.admitted = true then (idealBucket rule k calls).charge rule.rate c.now
      else idealBucket rule k calls := by
  unfold idealBucket
  rw [charges_snoc, List.foldl_append]
  split_ifs <;> rfl

namespace BoundedBuckets

variable (m : BoundedBuckets K) (key : K) (now : Instant)

/-- A call on another key leaves a tracked entry tracked. -/
theorem tracks_other (k : K) (ideal : Level ℚ) (w : K → Option Instant) (hk : k ≠ key)
    (hl : m.rule.burst * m.rule.interval ≤ m.entryTtl)
    (h : Tracks m.rule (m.entries.get? k) ideal (w k)) :
    Tracks m.rule ((m.checkAt key now).2.entries.get? k) ideal
      (m.writes (m.checkAt key now).2 w now k) := by
  obtain same | ⟨e, he, hn, hd⟩ := m.checkAt_other key k now hk
  · rw [writes, if_pos same, same]
    exact h
  · have changed : (m.checkAt key now).2.entries.get? k ≠ m.entries.get? k := by
      simp [hn, he]
    rw [writes, if_neg changed, hn]
    rw [he] at h
    obtain ht | hf := hd
    · exact tracks_expire m.rule e ideal (w k) now m.entryTtl h m.entryTtl_pos hl ht
    · exact tracks_evict m.rule e ideal (w k) now h hf

/-- The map found no slot for an absent or stale key and no entry to give up. -/
def Overfull : Prop :=
  (∀ e, m.entries.get? key = some e → m.entryTtl ≤ saturatingDurationSince now e.lastSeen) ∧
  m.capacity ≤ (m.retainFresh now).entries.size ∧
  ∀ k e, (m.retainFresh now).entries.get? k = some e → e.tokensAt m.rule now < m.rule.burst

/-- The call was decided as the ideal bucket decides it, or refused by a full
map, and the key's entry still stands for the ideal bucket. -/
def Follows (ideal : Level ℚ) (w : K → Option Instant) : Prop :=
  ((m.checkAt key now).1 = .ok () ∧ ideal.By now ∧ 1 ≤ ideal.read m.rule.rate now ∧
      Tracks m.rule ((m.checkAt key now).2.entries.get? key) (ideal.charge m.rule.rate now)
        (m.writes (m.checkAt key now).2 w now key)) ∨
    ((∃ delay, (m.checkAt key now).1 = .error delay) ∧
      (ideal.read m.rule.rate now < 1 ∨ m.Overfull key now) ∧
      Tracks m.rule ((m.checkAt key now).2.entries.get? key) ideal
        (m.writes (m.checkAt key now).2 w now key))

/-- A call in order follows the key's ideal bucket. -/
theorem tracks_self (ideal : Level ℚ) (w : K → Option Instant)
    (hl : m.rule.burst * m.rule.interval ≤ m.entryTtl) (hw : Since (w key) now)
    (h : Tracks m.rule (m.entries.get? key) ideal (w key)) :
    m.Follows key now ideal w := by
  have hby : ideal.By now := h.1 now hw
  -- A checked entry carries `now`, also when the check wrote back what was there.
  have stamp (b : Bucket) (i : Level ℚ)
      (hg : (m.checkAt key now).2.entries.get? key = some b)
      (ht : Tracks m.rule (some b) i (some now)) :
      Tracks m.rule ((m.checkAt key now).2.entries.get? key) i
        (m.writes (m.checkAt key now).2 w now key) := by
    rw [writes]
    by_cases same : (m.checkAt key now).2.entries.get? key = m.entries.get? key
    · rw [if_pos same, hg]
      rw [← same, hg] at h
      rw [h.2.2.1, ← ht.2.2.1]
      exact ht
    · rw [if_neg same, hg]
      exact ht
  have checked (e : Bucket) (he : 0 ≤ e.tokensAt m.rule now)
      (hread : e.tokensAt m.rule now = ideal.read m.rule.rate now)
      (hres : (m.checkAt key now).1 = (e.check m.rule now).1)
      (hg : (m.checkAt key now).2.entries.get? key = some (e.check m.rule now).2) :
      m.Follows key now ideal w := by
    obtain ⟨hok, hone, ht⟩ | ⟨herr, hlt, ht⟩ := check_tracks m.rule e ideal now hby he hread
    · left; exact ⟨hres.trans hok, hby, hone, stamp _ _ hg ht⟩
    · right; exact ⟨hres ▸ herr, Or.inl hlt, stamp _ _ hg ht⟩
  have hb := m.rule.one_le_burst
  obtain ⟨e, he, _, hres, hg⟩ | ⟨hstale, hnew | ⟨herr, hn, hcap, hfull⟩⟩ := m.checkAt_self key now
  · rw [he] at h
    have hread := h.2.2.2.2.2 now hw
    have hnn : 0 ≤ e.tokensAt m.rule now := by
      rw [tokensAt_eq_read]
      have hgain : 0 ≤ max (now - e.lastRefill) 0 / m.rule.interval :=
        div_nonneg (le_max_right _ _) m.rule.interval_pos.le
      exact le_min (add_nonneg h.2.2.2.1 hgain) (zero_le_one.trans hb)
    exact checked e hnn hread hres hg
  · have full : (Bucket.new m.rule now).tokensAt m.rule now = m.rule.burst := by
      rw [Bucket.tokensAt, m.rule.gain_eq, saturatingDurationSince]
      simp [Bucket.new]
    have hread : ideal.read m.rule.rate now = m.rule.burst := by
      cases hg : m.entries.get? key with
      | none => rw [hg] at h; exact h.2 now hw
      | some e =>
        rw [hg] at h
        have hx := tracks_expire m.rule e ideal (w key) now m.entryTtl h m.entryTtl_pos hl
          (hstale e hg)
        exact hx.2 now ((since_some now now).mpr (le_refl now))
    exact checked _ (full ▸ zero_le_one.trans hb) (full.trans hread.symm) hnew.1 hnew.2
  · right
    refine ⟨herr, Or.inr ⟨hstale, hcap, hfull⟩, ?_⟩
    rw [writes, hn]
    cases hg : m.entries.get? key with
    | none => rw [hg] at h; rw [if_pos rfl]; exact h
    | some e =>
      rw [hg] at h
      rw [if_neg (by simp)]
      exact tracks_expire m.rule e ideal (w key) now m.entryTtl h m.entryTtl_pos hl (hstale e hg)

/-- Along a run whose calls of `k` are in order, the map holds for `k` what the
ideal bucket holds, and the ideal bucket pays for every admitted request. -/
theorem checks_track {m₀ m : BoundedBuckets K} {calls : List (Call K)} {w : K → Option Instant}
    (run : Checks m₀ calls m w) (h₀ : m₀.entries = .empty)
    (hl : m₀.rule.burst * m₀.rule.interval ≤ m₀.entryTtl) (k : K)
    (hin : ∀ c ∈ calls, c.key = k → c.InOrder) :
    Tracks m₀.rule (m.entries.get? k) (idealBucket m₀.rule k calls) (w k) ∧
    Pays m₀.rule.rate .untouched (charges k calls) (idealBucket m₀.rule k calls) := by
  induction run with
  | start =>
    rw [h₀]
    exact ⟨tracks_untouched m₀.rule, .nil _⟩
  | @call calls m m₁ w before order key now ih =>
    obtain ⟨ht, hp⟩ := ih (fun c hc => hin c (List.mem_append_left _ hc))
    have last := hin _ (List.mem_append_right calls (List.mem_singleton_self _))
    have get (k' : K) : m.entries.get? k' = m₁.entries.get? k' :=
      AssocMap.get?_reorders _ _ order.2 k'
    have hrule : m₁.rule = m₀.rule := (reorders_config order).1.trans (checks_config before).1
    have httl : m₁.entryTtl = m₀.entryTtl :=
      (reorders_config order).2.2.trans (checks_config before).2.2
    have hw : m.writes (m₁.checkAt key now).2 w now = m₁.writes (m₁.checkAt key now).2 w now := by
      funext k'
      rw [writes, writes, get k']
    rw [get k, ← hrule] at ht
    rw [hw, idealBucket_snoc, charges_snoc, ← hrule]
    rw [← hrule] at hp
    have hl' : m₁.rule.burst * m₁.rule.interval ≤ m₁.entryTtl := by rw [hrule, httl]; exact hl
    by_cases hk : key = k
    · subst hk
      obtain ⟨hok, hby, hone, ht'⟩ | ⟨⟨delay, herr⟩, _, ht'⟩ :=
        m₁.tracks_self key now _ w hl' (last rfl) ht
      · simp only [Call.admitted, hok, and_self, if_true]
        exact ⟨ht', hp.snoc hby hone⟩
      · simp only [Call.admitted, herr, Bool.false_eq_true, and_false, if_false, List.append_nil]
        exact ⟨ht', hp⟩
    · simp only [hk, false_and, if_false, List.append_nil]
      exact ⟨m₁.tracks_other key now k _ w (Ne.symm hk) hl' ht, hp⟩

end BoundedBuckets
end HostMonitoring.Admission
