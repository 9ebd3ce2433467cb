import HostMonitoring.Admission.IdealBuckets

namespace HostMonitoring.Admission.BoundedBuckets

open HostMonitoring.Framework
open HostMonitoring.Framework.TokenBucket

variable {K : Type} [DecidableEq K]

theorem get?_retainFresh (m : BoundedBuckets K) (now : Instant) (k : K) :
    (m.retainFresh now).entries.get? k = m.entries.get? k ∨
    ∃ e, m.entries.get? k = some e ∧ (m.retainFresh now).entries.get? k = none ∧
      m.entryTtl ≤ saturatingDurationSince now e.lastSeen := by
  rw [retainFresh, AssocMap.get?_retain]
  cases m.entries.get? k with
  | none => exact Or.inl rfl
  | some e =>
    by_cases h : saturatingDurationSince now e.lastSeen < m.entryTtl
    · left; simp [Option.filter, h]
    · right; exact ⟨e, rfl, by simp [Option.filter, h], not_lt.mp h⟩

/-- Room is made by a free slot, by one full victim, or not at all. -/
theorem makeRoom_cases (m : BoundedBuckets K) (now : Instant) :
    (m.entries.size < m.capacity ∧ m.makeRoom now = (.ok (), m)) ∨
    (∃ victim e, m.entries.get? victim = some e ∧ m.rule.burst ≤ e.tokensAt m.rule now ∧
      m.makeRoom now = (.ok (), { m with entries := m.entries.erase victim })) ∨
    (m.capacity ≤ m.entries.size ∧
      (∀ k e, m.entries.get? k = some e → e.tokensAt m.rule now < m.rule.burst) ∧
      m.makeRoom now = (.error (m.retryDelay now), m)) := by
  by_cases hs : m.entries.size < m.capacity
  · left; exact ⟨hs, by simp [makeRoom, hs]⟩
  · right
    cases hv : (m.fullEntries now).argmin (fun e => e.2.lastSeen) with
    | some e =>
      left
      have hm := List.argmin_mem hv
      rw [fullEntries, List.mem_filter] at hm
      refine ⟨e.1, e.2, (m.entries.get?_eq_some_iff e.1 e.2).mpr hm.1, by simpa using hm.2, ?_⟩
      simp [makeRoom, hs, hv]
    | none =>
      right
      refine ⟨not_lt.mp hs, ?_, by simp [makeRoom, hs, hv]⟩
      intro k e he
      have hn : m.fullEntries now = [] := List.argmin_eq_none.mp hv
      have hk := List.filter_eq_nil_iff.mp hn (k, e) ((m.entries.get?_eq_some_iff k e).mp he)
      simpa using hk

/-- A check meets the key's fresh entry, opens a new one, or finds no room. -/
theorem checkAt_cases (m : BoundedBuckets K) (key : K) (now : Instant) :
    (∃ e, (m.retainFresh now).entries.get? key = some e ∧
      m.checkAt key now = (m.retainFresh now).checkEntry key e now) ∨
    ((m.retainFresh now).entries.get? key = none ∧ ∃ f : BoundedBuckets K,
      ((m.retainFresh now).entries.size < m.capacity ∧ f = m.retainFresh now ∨
        ∃ victim e, (m.retainFresh now).entries.get? victim = some e ∧
          m.rule.burst ≤ e.tokensAt m.rule now ∧
          f = { m.retainFresh now with entries := (m.retainFresh now).entries.erase victim }) ∧
      m.checkAt key now = f.checkEntry key (Bucket.new m.rule now) now) ∨
    ((m.retainFresh now).entries.get? key = none ∧
      m.capacity ≤ (m.retainFresh now).entries.size ∧
      (∀ k e, (m.retainFresh now).entries.get? k = some e →
        e.tokensAt m.rule now < m.rule.burst) ∧
      m.checkAt key now = (.error ((m.retainFresh now).retryDelay now), m.retainFresh now)) := by
  cases hg : (m.retainFresh now).entries.get? key with
  | some e => left; exact ⟨e, rfl, by simp [checkAt, hg]⟩
  | none =>
    right
    obtain ⟨hs, hr⟩ | ⟨victim, e, hv, hf, hr⟩ | ⟨hs, hn, hr⟩ :=
      (m.retainFresh now).makeRoom_cases now
    · left
      exact ⟨rfl, m.retainFresh now, Or.inl ⟨hs, rfl⟩, by simp [checkAt, hg, hr]; rfl⟩
    · left
      exact ⟨rfl, _, Or.inr ⟨victim, e, hv, hf, rfl⟩, by simp [checkAt, hg, hr]; rfl⟩
    · right
      exact ⟨rfl, hs, hn, by simp [checkAt, hg, hr]⟩

theorem checkAt_config (m : BoundedBuckets K) (key : K) (now : Instant) :
    (m.checkAt key now).2.rule = m.rule ∧ (m.checkAt key now).2.capacity = m.capacity ∧
    (m.checkAt key now).2.entryTtl = m.entryTtl := by
  obtain ⟨e, _, h⟩ | ⟨_, f, hf, h⟩ | ⟨_, _, _, h⟩ := m.checkAt_cases key now
  · rw [h]; exact ⟨rfl, rfl, rfl⟩
  · rw [h]
    rcases hf with ⟨_, rfl⟩ | ⟨_, _, _, _, rfl⟩ <;> exact ⟨rfl, rfl, rfl⟩
  · rw [h]; exact ⟨rfl, rfl, rfl⟩

theorem checkAt_size (m : BoundedBuckets K) (key : K) (now : Instant)
    (hm : m.entries.size ≤ m.capacity) : (m.checkAt key now).2.entries.size ≤ m.capacity := by
  have hr : (m.retainFresh now).entries.size ≤ m.capacity := (m.entries.size_retain_le _).trans hm
  obtain ⟨e, he, h⟩ | ⟨_, f, hf, h⟩ | ⟨_, _, _, h⟩ := m.checkAt_cases key now
  · rw [h]
    exact ((m.retainFresh now).entries.size_insert_of_mem key _ e he).trans hr
  · rw [h]
    have hlt : f.entries.size < m.capacity := by
      obtain ⟨hs, rfl⟩ | ⟨victim, e, hv, _, rfl⟩ := hf
      · exact hs
      · exact ((m.retainFresh now).entries.size_erase_of_mem victim e hv).trans_le hr
    exact (f.entries.size_insert_le key _).trans hlt
  · rw [h]; exact hr

/-- The entries of the other keys stay, unless they are stale or full. -/
theorem checkAt_other (m : BoundedBuckets K) (key k : K) (now : Instant) (hk : k ≠ key) :
    (m.checkAt key now).2.entries.get? k = m.entries.get? k ∨
    ∃ e, m.entries.get? k = some e ∧ (m.checkAt key now).2.entries.get? k = none ∧
      (m.entryTtl ≤ saturatingDurationSince now e.lastSeen ∨
        m.rule.burst ≤ e.tokensAt m.rule now) := by
  have keep (f : BoundedBuckets K) (e : Bucket) :
      (f.checkEntry key e now).2.entries.get? k = f.entries.get? k := by
    simp only [checkEntry, AssocMap.get?_insert, if_neg hk]
  have fresh : (m.retainFresh now).entries.get? k = m.entries.get? k ∨
      ∃ e, m.entries.get? k = some e ∧ (m.retainFresh now).entries.get? k = none ∧
        (m.entryTtl ≤ saturatingDurationSince now e.lastSeen ∨
          m.rule.burst ≤ e.tokensAt m.rule now) := by
    obtain h | ⟨e, he, hn, ht⟩ := m.get?_retainFresh now k
    · exact Or.inl h
    · exact Or.inr ⟨e, he, hn, Or.inl ht⟩
  obtain ⟨e, _, h⟩ | ⟨_, f, hf, h⟩ | ⟨_, _, _, h⟩ := m.checkAt_cases key now
  · rw [h, keep]; exact fresh
  · rw [h, keep]
    obtain ⟨_, rfl⟩ | ⟨victim, e, hv, hfull, rfl⟩ := hf
    · exact fresh
    · dsimp only
      rw [AssocMap.get?_erase]
      by_cases hkv : k = victim
      · subst hkv
        rw [if_pos rfl]
        obtain h' | ⟨e', he', hn', ht'⟩ := m.get?_retainFresh now k
        · exact Or.inr ⟨e, h' ▸ hv, rfl, Or.inr hfull⟩
        · exact Or.inr ⟨e', he', rfl, Or.inl ht'⟩
      · rw [if_neg hkv]; exact fresh
  · rw [h]; exact fresh

/-- The checked key's own entry: checked as it was, checked as a new bucket after
it was absent or stale, or refused for want of room. -/
theorem checkAt_self (m : BoundedBuckets K) (key : K) (now : Instant) :
    (∃ e, m.entries.get? key = some e ∧ saturatingDurationSince now e.lastSeen < m.entryTtl ∧
      (m.checkAt key now).1 = (e.check m.rule now).1 ∧
      (m.checkAt key now).2.entries.get? key = some (e.check m.rule now).2) ∨
    ((∀ e, m.entries.get? key = some e → m.entryTtl ≤ saturatingDurationSince now e.lastSeen) ∧
      (((m.checkAt key now).1 = ((Bucket.new m.rule now).check m.rule now).1 ∧
        (m.checkAt key now).2.entries.get? key =
          some ((Bucket.new m.rule now).check m.rule now).2) ∨
      ((∃ delay, (m.checkAt key now).1 = .error delay) ∧
        (m.checkAt key now).2.entries.get? key = none ∧
        m.capacity ≤ (m.retainFresh now).entries.size ∧
        ∀ k e, (m.retainFresh now).entries.get? k = some e →
          e.tokensAt m.rule now < m.rule.burst))) := by
  have hget : (m.retainFresh now).entries.get? key =
      (m.entries.get? key).filter
        (fun e => decide (saturatingDurationSince now e.lastSeen < m.entryTtl)) := by
    rw [retainFresh, AssocMap.get?_retain]
  have stale (hn : (m.retainFresh now).entries.get? key = none) :
      ∀ e, m.entries.get? key = some e →
        m.entryTtl ≤ saturatingDurationSince now e.lastSeen := by
    intro e he
    rw [hget, he] at hn
    by_contra hlt
    simp [Option.filter, not_le.mp hlt] at hn
  obtain ⟨e, he, h⟩ | ⟨hn, f, hf, h⟩ | ⟨hn, hs, hfull, h⟩ := m.checkAt_cases key now
  · left
    rw [hget, Option.filter_eq_some_iff] at he
    refine ⟨e, he.1, by simpa using he.2, ?_, ?_⟩
    · rw [h]; rfl
    · rw [h]; simp only [checkEntry, AssocMap.get?_insert, if_true]; rfl
  · right
    refine ⟨stale hn, Or.inl ?_⟩
    have hrule : f.rule = m.rule := by
      rcases hf with ⟨_, rfl⟩ | ⟨_, _, _, _, rfl⟩ <;> rfl
    rw [h]
    simp only [checkEntry, AssocMap.get?_insert, if_true, hrule, and_self]
  · right
    exact ⟨stale hn, Or.inr ⟨⟨_, by rw [h]⟩, by rw [h]; exact hn, hs, hfull⟩⟩

end HostMonitoring.Admission.BoundedBuckets
