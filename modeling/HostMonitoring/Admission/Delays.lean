import Mathlib.Algebra.Group.Subgroup.ZPowers.Basic
import HostMonitoring.Admission.IdealRefinement

namespace HostMonitoring.Admission

open HostMonitoring.Framework

/-- Clock readings and durations are whole nanoseconds. -/
def Nanos : AddSubgroup ℚ := AddSubgroup.zmultiples (1 / 1000000000)

theorem nanos_of_whole (x : ℚ) (h : x * 1000000000 = ⌊x * 1000000000⌋) : x ∈ Nanos := by
  refine AddSubgroup.mem_zmultiples_iff.mpr ⟨⌊x * 1000000000⌋, ?_⟩
  rw [zsmul_eq_mul, ← h]
  ring

theorem nanos_le (x : ℚ) (hx : x ∈ Nanos) (pos : 0 < x) : 1 / 1000000000 ≤ x := by
  obtain ⟨n, rfl⟩ := AddSubgroup.mem_zmultiples_iff.mp hx
  rw [zsmul_eq_mul] at pos ⊢
  have hn : 0 < (n : ℚ) := pos_of_mul_pos_left pos (by norm_num)
  have one : (1 : ℚ) ≤ n := by exact_mod_cast hn
  linarith [mul_le_mul_of_nonneg_right one (by norm_num : (0 : ℚ) ≤ 1 / 1000000000)]

/-- A rule whose tokens are worth whole nanoseconds. -/
structure RefillRule.Whole (rule : RefillRule) : Prop where
  token : rule.interval ∈ Nanos
  burst : rule.burst * rule.interval ∈ Nanos

theorem BucketPolicy.whole (policy : BucketPolicy) (h : policy.refillInterval ∈ Nanos) :
    policy.rule.Whole where
  token := h
  burst := by
    have multiple := AddSubgroup.nsmul_mem Nanos h policy.burst
    rwa [nsmul_eq_mul] at multiple

namespace Bucket

/-- A bucket stamped by a check no later than `now`. -/
structure Settled (b : Bucket) (rule : RefillRule) (now : Instant) : Prop where
  stamped : b.lastRefill = b.lastSeen
  past : b.lastSeen ≤ now
  nonneg : 0 ≤ b.tokens
  le_burst : b.tokens ≤ rule.burst
  stamp_whole : b.lastRefill ∈ Nanos
  tokens_whole : b.tokens * rule.interval ∈ Nanos

/-- A bucket holds a number of tokens from the moment on that has refilled what it misses. -/
theorem le_tokensAt_iff (b : Bucket) (rule : RefillRule) (now : Instant) (x : ℚ)
    (hx : x ≤ rule.burst) (past : b.lastRefill ≤ now) :
    x ≤ b.tokensAt rule now ↔ b.lastRefill + (x - b.tokens) * rule.interval ≤ now := by
  rw [tokensAt, saturatingDurationSince, max_eq_left (sub_nonneg.mpr past), rule.gain_eq,
    le_min_iff, and_iff_left hx, ← sub_le_iff_le_add', le_div_iff₀ rule.interval_pos]
  constructor <;> intro h <;> linarith

theorem tokensAt_whole (b : Bucket) (rule : RefillRule) (now : Instant) (whole : rule.Whole)
    (hb : b.Settled rule now) (hnow : now ∈ Nanos) :
    b.tokensAt rule now * rule.interval ∈ Nanos := by
  have elapsed : saturatingDurationSince now b.lastRefill ∈ Nanos := by
    obtain h | h := max_choice (now - b.lastRefill) 0
    · rw [saturatingDurationSince, h]
      exact Nanos.sub_mem hnow hb.stamp_whole
    · rw [saturatingDurationSince, h]
      exact Nanos.zero_mem
  rw [tokensAt, rule.gain_eq, min_mul_of_nonneg _ _ rule.interval_pos.le, add_mul,
    div_mul_cancel₀ _ rule.interval_pos.ne']
  obtain h | h := min_choice (b.tokens * rule.interval + saturatingDurationSince now b.lastRefill)
    (rule.burst * rule.interval)
  · rw [h]
    exact Nanos.add_mem hb.tokens_whole elapsed
  · rw [h]
    exact whole.burst

theorem tokensAt_nonneg (b : Bucket) (rule : RefillRule) (now : Instant)
    (hb : b.Settled rule now) : 0 ≤ b.tokensAt rule now := by
  have burst := zero_le_one.trans rule.one_le_burst
  rw [b.le_tokensAt_iff rule now 0 burst (hb.stamped.trans_le hb.past)]
  have owed := mul_nonneg hb.nonneg rule.interval_pos.le
  linarith [hb.stamped.trans_le hb.past]

theorem check_settled (b : Bucket) (rule : RefillRule) (now : Instant) (whole : rule.Whole)
    (hb : b.Settled rule now) (hnow : now ∈ Nanos) : (b.check rule now).2.Settled rule now := by
  have tokens := b.tokensAt_whole rule now whole hb hnow
  have nonneg := b.tokensAt_nonneg rule now hb
  have le : b.tokensAt rule now ≤ rule.burst := min_le_right _ _
  unfold check
  simp only
  split_ifs with h
  · exact ⟨rfl, le_refl _, nonneg, le, hnow, tokens⟩
  · refine ⟨rfl, le_refl _, sub_nonneg.mpr (not_lt.mp h), by linarith, hnow, ?_⟩
    rw [sub_mul, one_mul]
    exact Nanos.sub_mem tokens whole.token

theorem new_settled (rule : RefillRule) (now : Instant) (whole : rule.Whole) (hnow : now ∈ Nanos) :
    (new rule now).Settled rule now :=
  ⟨rfl, le_refl _, zero_le_one.trans rule.one_le_burst, le_refl _, hnow, whole.burst⟩

theorem new_tokensAt (rule : RefillRule) (now : Instant) :
    (new rule now).tokensAt rule now = rule.burst := by
  simp [tokensAt, new, saturatingDurationSince, rule.gain_eq]

theorem new_admits (rule : RefillRule) (now : Instant) :
    ((new rule now).check rule now).1 = .ok () := by
  rw [check, new_tokensAt]
  simp [not_lt.mpr rule.one_le_burst]

theorem check_ok_iff (b : Bucket) (rule : RefillRule) (now : Instant) :
    (b.check rule now).1 = .ok () ↔ 1 ≤ b.tokensAt rule now := by
  unfold check
  simp only
  split_ifs with h
  · simp [not_le.mpr h]
  · simp [not_lt.mp h]

theorem check_error (b : Bucket) (rule : RefillRule) (now : Instant) (delay : Duration)
    (h : (b.check rule now).1 = .error delay) :
    b.tokensAt rule now < 1 ∧ delay = (1 - b.tokensAt rule now) * rule.interval ∧
      (b.check rule now).2 = ⟨b.tokensAt rule now, now, now⟩ := by
  unfold check at h ⊢
  simp only at h ⊢
  split_ifs at h ⊢ with empty
  cases h
  exact ⟨empty, rule.wait_eq _, rfl⟩

theorem check_refused (b : Bucket) (rule : RefillRule) (now : Instant)
    (h : b.tokensAt rule now < 1) : ∃ delay, (b.check rule now).1 = .error delay := by
  cases hr : (b.check rule now).1 with
  | error delay => exact ⟨delay, rfl⟩
  | ok u =>
    have admitted := (b.check_ok_iff rule now).mp hr
    exact absurd h (not_lt.mpr admitted)

end Bucket

namespace BoundedBuckets

variable {K : Type} [DecidableEq K]

/-- Every entry was stamped no later than `now`, and the map keeps its bound. -/
structure Settled (m : BoundedBuckets K) (now : Instant) : Prop where
  size : m.entries.size ≤ m.capacity
  entry : ∀ k e, m.entries.get? k = some e → e.Settled m.rule now

theorem Settled.mono {m : BoundedBuckets K} {now later : Instant} (h : m.Settled now)
    (hle : now ≤ later) : m.Settled later :=
  ⟨h.size, fun k e he =>
    { h.entry k e he with past := (h.entry k e he).past.trans hle }⟩

theorem Settled.reorder {m m₁ : BoundedBuckets K} {now : Instant} (h : m.Settled now)
    (order : m.Reorders m₁) : m₁.Settled now := by
  obtain ⟨rule, capacity, _⟩ := reorders_config order
  refine ⟨?_, fun k e he => ?_⟩
  · rw [capacity, ← AssocMap.size_reorders _ _ order.2]
    exact h.size
  · rw [rule]
    rw [← AssocMap.get?_reorders _ _ order.2 k] at he
    exact h.entry k e he

/-- One check leaves every entry stamped by its time. -/
theorem checkAt_settled (m : BoundedBuckets K) (key : K) (now : Instant) (whole : m.rule.Whole)
    (hnow : now ∈ Nanos) (h : m.Settled now) : (m.checkAt key now).2.Settled now := by
  obtain ⟨rule, capacity, _⟩ := m.checkAt_config key now
  refine ⟨?_, fun k e he => ?_⟩
  · rw [capacity]
    exact m.checkAt_size key now h.size
  · rw [rule]
    by_cases hk : k = key
    · subst hk
      obtain ⟨e₀, he₀, _, _, hg⟩ | ⟨_, ⟨_, hg⟩ | ⟨_, hg, _⟩⟩ := m.checkAt_self k now
      · rw [hg] at he
        cases he
        exact e₀.check_settled m.rule now whole (h.entry k e₀ he₀) hnow
      · rw [hg] at he
        cases he
        exact (Bucket.new m.rule now).check_settled m.rule now whole
          (Bucket.new_settled m.rule now whole hnow) hnow
      · rw [hg] at he
        cases he
    · obtain same | ⟨_, _, hn, _⟩ := m.checkAt_other key k now hk
      · rw [same] at he
        exact h.entry k e he
      · rw [hn] at he
        cases he

theorem checks_settled {m₀ m : BoundedBuckets K} {calls : List (Call K)} {w : K → Option Instant}
    (run : Checks m₀ calls m w) (h₀ : m₀.entries = .empty) (whole : m₀.rule.Whole)
    (sorted : (calls.map Call.now).Pairwise (· ≤ ·)) (nanos : ∀ c ∈ calls, c.now ∈ Nanos)
    (now : Instant) (hnow : ∀ c ∈ calls, c.now ≤ now) : m.Settled now := by
  induction run generalizing now with
  | start =>
    refine ⟨?_, fun k e he => ?_⟩
    · rw [h₀]
      exact Nat.zero_le _
    · rw [h₀] at he
      cases he
  | @call calls m m₁ w before order key at' ih =>
    rw [List.map_append, List.pairwise_append] at sorted
    obtain ⟨early, _, across⟩ := sorted
    have last := List.mem_append_right calls (List.mem_singleton_self
      (⟨key, at', w key, (m₁.checkAt key at').1⟩ : Call K))
    have settled : m.Settled at' := by
      refine ih early (fun c hc => nanos c (List.mem_append_left _ hc)) at' fun c hc => ?_
      exact across c.now (List.mem_map_of_mem hc) at' (by simp)
    have rule : m₁.rule = m₀.rule := (reorders_config order).1.trans (checks_config before).1
    refine (m₁.checkAt_settled key at' ?_ (nanos _ last) (settled.reorder order)).mono (hnow _ last)
    rw [rule]
    exact whole

/-- The time an entry still needs to be full. -/
def untilFull (m : BoundedBuckets K) (e : Bucket) (now : Instant) : Duration :=
  (m.rule.burst - e.tokensAt m.rule now) * m.rule.interval

/-- A map without room waits for the first of its entries to be full. -/
theorem retryDelay_least (m : BoundedBuckets K) (now : Instant) (whole : m.rule.Whole)
    (hnow : now ∈ Nanos) (h : m.Settled now) (occupied : 0 < m.entries.size)
    (none_full : ∀ k e, m.entries.get? k = some e → e.tokensAt m.rule now < m.rule.burst) :
    0 < m.retryDelay now ∧
    (∃ k e, m.entries.get? k = some e ∧ m.retryDelay now = m.untilFull e now) ∧
    ∀ k e, m.entries.get? k = some e → m.retryDelay now ≤ m.untilFull e now := by
  have pos : ∀ k e, m.entries.get? k = some e → 0 < m.untilFull e now := fun k e he =>
    mul_pos (sub_pos.mpr (none_full k e he)) m.rule.interval_pos
  have waits : (m.entries.entries.map fun e =>
      m.rule.wait (max (m.rule.burst - e.2.tokensAt m.rule now) 0)) =
      m.entries.entries.map fun e => m.untilFull e.2 now := by
    refine List.map_congr_left fun e he => ?_
    have found := (m.entries.get?_eq_some_iff e.1 e.2).mpr he
    rw [max_eq_left (sub_nonneg.mpr (none_full e.1 e.2 found).le), m.rule.wait_eq]
    rfl
  cases hmin : (m.entries.entries.map fun e => m.untilFull e.2 now).min? with
  | none =>
    rw [List.min?_eq_none_iff, List.map_eq_nil_iff] at hmin
    rw [AssocMap.size, hmin] at occupied
    exact absurd occupied (Nat.lt_irrefl 0)
  | some least =>
    obtain ⟨hmem, hle⟩ := List.min?_eq_some_iff.mp hmin
    obtain ⟨e₀, he₀, rfl⟩ := List.mem_map.mp hmem
    have found := (m.entries.get?_eq_some_iff e₀.1 e₀.2).mpr he₀
    have grain : m.untilFull e₀.2 now ∈ Nanos := by
      rw [untilFull, sub_mul]
      exact Nanos.sub_mem whole.burst
        (e₀.2.tokensAt_whole m.rule now whole (h.entry _ _ found) hnow)
    have delay : m.retryDelay now = m.untilFull e₀.2 now := by
      rw [retryDelay, waits, hmin]
      exact max_eq_left (nanos_le _ grain (pos _ _ found))
    rw [delay]
    refine ⟨pos _ _ found, ⟨e₀.1, e₀.2, found, rfl⟩, fun k e he => ?_⟩
    exact hle _ (List.mem_map.mpr ⟨(k, e), (m.entries.get?_eq_some_iff k e).mp he, rfl⟩)

omit [DecidableEq K] in
/-- An entry that is not full is full once what it misses has refilled. -/
theorem full_iff (m : BoundedBuckets K) (e : Bucket) (now later : Instant)
    (he : e.Settled m.rule now) (hlt : e.tokensAt m.rule now < m.rule.burst)
    (hle : now ≤ later) :
    m.rule.burst ≤ e.tokensAt m.rule later ↔ now + m.untilFull e now ≤ later := by
  have past := he.stamped.trans_le he.past
  have tokens : e.tokensAt m.rule now = e.tokens + (now - e.lastRefill) / m.rule.interval := by
    rw [Bucket.tokensAt, saturatingDurationSince, max_eq_left (sub_nonneg.mpr past),
      m.rule.gain_eq] at hlt ⊢
    obtain h | h := min_choice (e.tokens + (now - e.lastRefill) / m.rule.interval) m.rule.burst
    · exact h
    · rw [h] at hlt
      exact absurd hlt (lt_irrefl _)
  rw [e.le_tokensAt_iff m.rule later m.rule.burst (le_refl _) (past.trans hle), untilFull, tokens]
  have moment : now + (m.rule.burst - (e.tokens + (now - e.lastRefill) / m.rule.interval)) *
      m.rule.interval = e.lastRefill + (m.rule.burst - e.tokens) * m.rule.interval := by
    have elapsed := div_mul_cancel₀ (now - e.lastRefill) m.rule.interval_pos.ne'
    linarith
  rw [moment]

omit [DecidableEq K] in
/-- An entry is kept at least until it is full. -/
theorem stale_full (m : BoundedBuckets K) (e : Bucket) (now : Instant)
    (hl : m.rule.burst * m.rule.interval ≤ m.entryTtl) (he : e.Settled m.rule now)
    (stale : m.entryTtl ≤ saturatingDurationSince now e.lastSeen) :
    m.rule.burst ≤ e.tokensAt m.rule now := by
  have past := he.stamped.trans_le he.past
  rw [e.le_tokensAt_iff m.rule now m.rule.burst (le_refl _) past]
  rw [saturatingDurationSince, max_eq_left (sub_nonneg.mpr he.past)] at stale
  have owed := mul_nonneg he.nonneg m.rule.interval_pos.le
  linarith [he.stamped]

/-- The delay of a refusal is the least time after which the key is admitted, as
long as no other check touches the map, whatever order it iterates in. -/
structure ExactDelay (m : BoundedBuckets K) (key : K) (now : Instant) (delay : Duration) : Prop where
  pos : 0 < delay
  admitted : ∀ m₂, (m.checkAt key now).2.Reorders m₂ → ∀ later, now + delay ≤ later →
    (m₂.checkAt key later).1 = .ok ()
  refused : ∀ m₂, (m.checkAt key now).2.Reorders m₂ → ∀ later, now < later → later < now + delay →
    ∃ delay', (m₂.checkAt key later).1 = .error delay'

section
variable {m : BoundedBuckets K} {key : K} {now : Instant} {delay : Duration}
  (whole : m.rule.Whole) (hl : m.rule.burst * m.rule.interval ≤ m.entryTtl) (hnow : now ∈ Nanos)
  (h : m.Settled now)
include whole hl hnow h

/-- A depleted bucket is kept until it has its token. -/
theorem exact_depleted (e : Bucket) (he : (m.retainFresh now).entries.get? key = some e)
    (hc : m.checkAt key now = (m.retainFresh now).checkEntry key e now)
    (hd : (e.check m.rule now).1 = .error delay) : m.ExactDelay key now delay := by
  have settled := m.checkAt_settled key now whole hnow h
  obtain ⟨lt_one, rfl, checked⟩ := e.check_error m.rule now delay hd
  have held : m.entries.get? key = some e := by
    rw [retainFresh, AssocMap.get?_retain, Option.filter_eq_some_iff] at he
    exact he.1
  have nonneg := e.tokensAt_nonneg m.rule now (h.entry key e held)
  generalize e.tokensAt m.rule now = tokens at lt_one checked nonneg
  have after : (m.checkAt key now).2.entries.get? key = some ⟨tokens, now, now⟩ := by
    rw [hc, ← checked]
    simp only [checkEntry, AssocMap.get?_insert, if_true]
    rfl
  have short : (1 - tokens) * m.rule.interval ≤ m.entryTtl := by
    have one : (1 - tokens) * m.rule.interval ≤ m.rule.burst * m.rule.interval := by
      apply mul_le_mul_of_nonneg_right _ m.rule.interval_pos.le
      linarith [m.rule.one_le_burst]
    exact one.trans hl
  obtain ⟨rule, capacity, ttl⟩ := m.checkAt_config key now
  refine ⟨mul_pos (sub_pos.mpr lt_one) m.rule.interval_pos, fun m₂ order later due => ?_,
    fun m₂ order later hlt early => ?_⟩
  · have settled₂ := settled.reorder order
    obtain ⟨rule₂, capacity₂, ttl₂⟩ := reorders_config order
    rw [AssocMap.get?_reorders _ _ order.2 key] at after
    have later_le : now ≤ later := by
      have delay_nonneg := mul_nonneg (sub_nonneg.mpr lt_one.le) m.rule.interval_pos.le
      linarith
    obtain ⟨e', he', _, hres, _⟩ | ⟨stale, ⟨hres, _⟩ | ⟨_, _, full, _⟩⟩ := m₂.checkAt_self key later
    · rw [after] at he'
      cases he'
      rw [hres, rule₂, rule, Bucket.check_ok_iff,
        Bucket.le_tokensAt_iff _ _ _ _ m.rule.one_le_burst later_le]
      exact due
    · rw [hres]
      exact Bucket.new_admits _ _
    · -- The key's entry is the newest: when it is stale, none is left to fill the map.
      have old := stale _ after
      have some_left := m₂.capacity_pos.trans_le full
      obtain ⟨⟨k, e'⟩, hm⟩ := List.exists_mem_of_length_pos some_left
      have fresh := (AssocMap.get?_eq_some_iff _ k e').mpr hm
      rw [retainFresh, AssocMap.get?_retain, Option.filter_eq_some_iff] at fresh
      have young := of_decide_eq_true fresh.2
      have past := (settled₂.entry k e' fresh.1).past
      have order' : saturatingDurationSince later now ≤ saturatingDurationSince later e'.lastSeen :=
        max_le_max_right 0 (by linarith)
      exact absurd (old.trans order') (not_le.mpr young)
  · obtain ⟨rule₂, _, ttl₂⟩ := reorders_config order
    rw [AssocMap.get?_reorders _ _ order.2 key] at after
    obtain ⟨e', he', _, hres, _⟩ | ⟨stale, _⟩ := m₂.checkAt_self key later
    · rw [after] at he'
      cases he'
      rw [hres]
      apply Bucket.check_refused
      rw [rule₂, rule, ← not_le, Bucket.le_tokensAt_iff _ _ _ _ m.rule.one_le_burst hlt.le, not_le]
      exact early
    · have old := stale _ after
      rw [ttl₂, ttl, saturatingDurationSince, max_eq_left (sub_nonneg.mpr hlt.le)] at old
      linarith

/-- A map without room has none before its first entry is full. -/
theorem exact_overfull (absent : (m.retainFresh now).entries.get? key = none)
    (full : m.capacity ≤ (m.retainFresh now).entries.size)
    (none_full : ∀ k e, (m.retainFresh now).entries.get? k = some e →
      e.tokensAt m.rule now < m.rule.burst)
    (hc : m.checkAt key now = (.error ((m.retainFresh now).retryDelay now), m.retainFresh now)) :
    m.ExactDelay key now ((m.retainFresh now).retryDelay now) := by
  have settled := m.checkAt_settled key now whole hnow h
  rw [hc] at settled
  obtain ⟨pos, ⟨k₀, e₀, he₀, first⟩, least⟩ := (m.retainFresh now).retryDelay_least now whole hnow
    settled (m.capacity_pos.trans_le full) none_full
  have filled (later : Instant) (hle : now ≤ later) (k : K) (e : Bucket)
      (he : (m.retainFresh now).entries.get? k = some e) :
      m.rule.burst ≤ e.tokensAt m.rule later ↔
        now + (m.retainFresh now).untilFull e now ≤ later :=
    (m.retainFresh now).full_iff e now later (settled.entry k e he) (none_full k e he) hle
  refine ⟨pos, fun m₂ order later due => ?_, fun m₂ order later hlt early => ?_⟩
  · rw [hc] at order
    obtain ⟨rule₂, capacity₂, _⟩ := reorders_config order
    obtain ⟨e', he', _⟩ | ⟨_, ⟨hres, _⟩ | ⟨_, _, full₂, none_full₂⟩⟩ := m₂.checkAt_self key later
    · rw [← AssocMap.get?_reorders _ _ order.2 key, absent] at he'
      cases he'
    · rw [hres]
      exact Bucket.new_admits _ _
    · have kept := m₂.entries.retain_eq_self _ ((settled.reorder order).size.trans full₂)
      have unfilled := none_full₂ k₀ e₀ (by
        rw [retainFresh, kept, ← AssocMap.get?_reorders _ _ order.2 k₀]
        exact he₀)
      rw [rule₂] at unfilled
      refine absurd ((filled later (by linarith) k₀ e₀ he₀).mpr ?_) (not_le.mpr unfilled)
      rw [← first]
      exact due
  · rw [hc] at order
    obtain ⟨rule₂, capacity₂, ttl₂⟩ := reorders_config order
    have unfilled : ∀ k e, m₂.entries.get? k = some e →
        ¬m.rule.burst ≤ e.tokensAt m.rule later := by
      intro k e he filled'
      rw [← AssocMap.get?_reorders _ _ order.2 k] at he
      have due := (filled later hlt.le k e he).mp filled'
      linarith [least k e he]
    have kept : (m₂.retainFresh later).entries = m₂.entries := by
      rw [AssocMap.eq_iff]
      apply List.filter_eq_self.mpr
      intro e he
      have found := (m₂.entries.get?_eq_some_iff e.1 e.2).mpr he
      have settled₂ := ((settled.reorder order).mono hlt.le).entry e.1 e.2 found
      refine decide_eq_true (not_le.mp fun stale => unfilled e.1 e.2 found ?_)
      have old := m₂.stale_full e.2 later (by rw [rule₂, ttl₂]; exact hl) settled₂ stale
      rw [rule₂] at old
      exact old
    obtain ⟨e, he, _⟩ | ⟨_, f, hf, _⟩ | ⟨_, _, _, hres⟩ := m₂.checkAt_cases key later
    · rw [kept, ← AssocMap.get?_reorders _ _ order.2 key, absent] at he
      cases he
    · rw [kept] at hf
      obtain ⟨room, _⟩ | ⟨k, e, he, filled', _⟩ := hf
      · rw [capacity₂, ← AssocMap.size_reorders _ _ order.2] at room
        exact absurd room (not_lt.mpr full)
      · rw [rule₂] at filled'
        exact absurd filled' (unfilled k e he)
    · rw [hres]
      exact ⟨_, rfl⟩

theorem exact_delay (hd : (m.checkAt key now).1 = .error delay) : m.ExactDelay key now delay := by
  obtain ⟨e, he, hc⟩ | ⟨_, f, hf, hc⟩ | ⟨absent, full, none_full, hc⟩ := m.checkAt_cases key now
  · rw [hc] at hd
    exact exact_depleted whole hl hnow h e he hc hd
  · have rule : f.rule = m.rule := by
      obtain ⟨_, rfl⟩ | ⟨_, _, _, _, rfl⟩ := hf
      · rfl
      · rfl
    rw [hc, checkEntry, rule] at hd
    rw [Bucket.new_admits] at hd
    cases hd
  · have delay_eq : delay = (m.retainFresh now).retryDelay now := by
      rw [hc] at hd
      exact (Except.error.inj hd).symm
    rw [delay_eq]
    exact exact_overfull whole hl hnow h absent full none_full hc

end
end BoundedBuckets

/-- The seconds a client is told to wait are at least one, and cover the delay. -/
def Covers (retryAfter : Nat) (delay : Duration) : Prop := 1 ≤ retryAfter ∧ delay ≤ retryAfter

theorem seconds_cover (delay : Duration) (pos : 0 < delay) :
    Covers (max (⌊delay⌋.toNat + if (⌊delay⌋ : ℚ) = delay then 0 else 1) 1) delay := by
  refine ⟨le_max_right _ _, ?_⟩
  have floor : (⌊delay⌋.toNat : ℚ) = ⌊delay⌋ := by
    exact_mod_cast Int.toNat_of_nonneg (Int.floor_nonneg.mpr pos.le)
  rw [Nat.cast_max, Nat.cast_add, floor]
  refine le_trans ?_ (le_max_left _ _)
  split_ifs with whole
  · rw [Nat.cast_zero, add_zero, whole]
  · rw [Nat.cast_one]
    exact (Int.lt_floor_add_one delay).le

/-- Whenever a check of a pairing or a report map refuses, in any state that checks
at non-decreasing times lead to, its delay is exact and covered by the seconds
the client is told. -/
theorem refusal_delay_exact :
    (∀ (K : Type) [DecidableEq K] (policy : BucketPolicy) (capacity : Nat) (entryTtl : Duration)
      (hc : 0 < capacity) (ht : 0 < entryTtl) (calls : List (Call K)) (m m₁ : BoundedBuckets K)
      (w : K → Option Instant) (key : K) (now : Instant) (delay : Duration) (message : String),
      policy.refillInterval ∈ Nanos → policy.burst * policy.refillInterval ≤ entryTtl →
      BoundedBuckets.Checks (.new policy.rule capacity entryTtl hc ht) calls m w →
      (calls.map Call.now).Pairwise (· ≤ ·) → (∀ c ∈ calls, c.now ∈ Nanos) → m.Reorders m₁ →
      (∀ c ∈ calls, c.now ≤ now) → now ∈ Nanos → (m₁.checkAt key now).1 = .error delay →
      m₁.ExactDelay key now delay ∧ Covers (limited message delay).retryAfter delay) ∧
    (∀ (capacity : Nat) (entryTtl : Duration) (hc : 0 < capacity) (ht : 0 < entryTtl)
      (calls : List (Call String)) (m m₁ : BoundedBuckets String) (w : String → Option Instant)
      (hostId : String) (now : Instant) (delay : Duration),
      REPORT_BUCKET_BURST / REPORT_BUCKET_REFILL_PER_SECOND ≤ entryTtl →
      BoundedBuckets.Checks (ReportBuckets.new capacity entryTtl hc ht) calls m w →
      (calls.map Call.now).Pairwise (· ≤ ·) → (∀ c ∈ calls, c.now ∈ Nanos) → m.Reorders m₁ →
      (∀ c ∈ calls, c.now ≤ now) → now ∈ Nanos →
      (ReportBuckets.allowAt m₁ hostId now).1 = .error delay →
      m₁.ExactDelay hostId now delay ∧ Covers (reportLimited delay).retryAfter delay) := by
  constructor
  · intro K _ policy capacity entryTtl hc ht calls m m₁ w key now delay message token hl run sorted
      nanos order hnow here hd
    have settled := BoundedBuckets.checks_settled run rfl (policy.whole token) sorted nanos now hnow
    obtain ⟨rule, _, ttl⟩ := BoundedBuckets.reorders_config order
    obtain ⟨rule', _, ttl'⟩ := BoundedBuckets.checks_config run
    have exact' := BoundedBuckets.exact_delay (by rw [rule, rule']; exact policy.whole token)
      (by rw [rule, rule', ttl, ttl']; exact hl) here (settled.reorder order) hd
    exact ⟨exact', seconds_cover delay exact'.pos⟩
  · intro capacity entryTtl hc ht calls m m₁ w hostId now delay hl run sorted nanos order hnow here
      hd
    have whole : reportRule.Whole := by
      constructor
      · exact nanos_of_whole _ (by decide +kernel)
      · exact nanos_of_whole _ (by decide +kernel)
    have refilled : reportRule.burst * reportRule.interval ≤ entryTtl := by
      refine le_trans (le_of_eq ?_) hl
      exact mul_one_div REPORT_BUCKET_BURST REPORT_BUCKET_REFILL_PER_SECOND
    have settled := BoundedBuckets.checks_settled run rfl whole sorted nanos now hnow
    obtain ⟨rule, _, ttl⟩ := BoundedBuckets.reorders_config order
    obtain ⟨rule', _, ttl'⟩ := BoundedBuckets.checks_config run
    have exact' := BoundedBuckets.exact_delay (by rw [rule, rule']; exact whole)
      (by rw [rule, rule', ttl, ttl']; exact refilled) here (settled.reorder order) hd
    exact ⟨exact', seconds_cover delay exact'.pos⟩

/-- The thirty-first poll of one moment. -/
theorem refusal_delay_exact_polls :
    (pollBuckets.serve (List.replicate 30 ((⟨7⟩ : Uuid), (0 : Instant)))).2.1.ExactDelay ⟨7⟩ 0 1 := by
  have run := BoundedBuckets.serve_checks pollBuckets (List.replicate 30 (⟨7⟩, 0))
  have times : ∀ c ∈ (pollBuckets.serve (List.replicate 30 ((⟨7⟩ : Uuid), (0 : Instant)))).1,
      c.now = 0 := by decide +kernel
  have token : AdmissionPolicies.production.pollRequest.refillInterval ∈ Nanos :=
    nanos_of_whole _ (by decide +kernel)
  refine (refusal_delay_exact.1 Uuid AdmissionPolicies.production.pollRequest IDENTIFIER_CAPACITY
    ENTRY_TTL (by decide) (by norm_num [ENTRY_TTL]) _ _ _ _ ⟨7⟩ 0 1 "" token (by decide +kernel) run
    (by decide +kernel) (fun c hc => ?_) (BoundedBuckets.reorders_refl _)
    (fun c hc => (times c hc).le) Nanos.zero_mem (by decide +kernel)).1
  rw [times c hc]
  exact Nanos.zero_mem

end HostMonitoring.Admission
