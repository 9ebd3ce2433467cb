import Mathlib.Data.List.Nodup
import Mathlib.Data.List.MinMax
import Mathlib.Data.List.Perm.Basic

namespace HostMonitoring.Framework

/-- A finite map listed in its iteration order; no key is listed twice. -/
structure AssocMap (K V : Type) where
  entries : List (K × V)
  nodup : (entries.map Prod.fst).Nodup

namespace AssocMap

variable {K V : Type}

def empty : AssocMap K V := ⟨[], List.nodup_nil⟩

def size (m : AssocMap K V) : Nat := m.entries.length

/-- Another iteration order of the same map. -/
def Reorders (m m' : AssocMap K V) : Prop := m.entries.Perm m'.entries

def retain (m : AssocMap K V) (keep : K → V → Bool) : AssocMap K V :=
  ⟨m.entries.filter (fun e => keep e.1 e.2),
    List.Nodup.sublist (List.Sublist.map _ List.filter_sublist) m.nodup⟩

theorem eq_iff (m m' : AssocMap K V) : m = m' ↔ m.entries = m'.entries := by
  cases m
  cases m'
  simp

variable [DecidableEq K]

def get? (m : AssocMap K V) (k : K) : Option V :=
  (m.entries.find? (fun e => decide (e.1 = k))).map Prod.snd

def erase (m : AssocMap K V) (k : K) : AssocMap K V := m.retain (fun k' _ => decide (k' ≠ k))

theorem not_mem_keys_erase (m : AssocMap K V) (k : K) :
    k ∉ (m.erase k).entries.map Prod.fst := by
  simp [erase, retain]

/-- Replaces the value of a present key, adds an absent one. -/
def insert (m : AssocMap K V) (k : K) (v : V) : AssocMap K V :=
  ⟨(k, v) :: (m.erase k).entries,
    List.nodup_cons.mpr ⟨m.not_mem_keys_erase k, (m.erase k).nodup⟩⟩

theorem get?_eq_some_iff (m : AssocMap K V) (k : K) (v : V) :
    m.get? k = some v ↔ (k, v) ∈ m.entries := by
  constructor
  · intro h
    obtain ⟨e, he, hv⟩ := Option.map_eq_some_iff.mp h
    have hk : e.1 = k := by simpa using List.find?_some he
    have hm := List.mem_of_find?_eq_some he
    subst hk; subst hv
    exact hm
  · intro h
    obtain ⟨e, he⟩ : ∃ e, m.entries.find? (fun e => decide (e.1 = k)) = some e := by
      apply Option.isSome_iff_exists.mp
      rw [List.find?_isSome]
      exact ⟨(k, v), h, by simp⟩
    have hk : e.1 = k := by simpa using List.find?_some he
    have same : e = (k, v) :=
      List.inj_on_of_nodup_map m.nodup (List.mem_of_find?_eq_some he) h hk
    simp [get?, he, same]

/-- Two maps with the same entries answer every lookup alike. -/
theorem get?_congr (m m' : AssocMap K V) (k : K)
    (h : ∀ v, (k, v) ∈ m.entries ↔ (k, v) ∈ m'.entries) : m.get? k = m'.get? k := by
  apply Option.ext
  intro v
  rw [get?_eq_some_iff, get?_eq_some_iff]
  exact h v

theorem get?_reorders (m m' : AssocMap K V) (h : m.Reorders m') (k : K) :
    m.get? k = m'.get? k := get?_congr m m' k (fun _ => h.mem_iff)

omit [DecidableEq K] in
theorem size_reorders (m m' : AssocMap K V) (h : m.Reorders m') : m.size = m'.size :=
  h.length_eq

@[simp] theorem get?_empty (k : K) : (empty : AssocMap K V).get? k = none := rfl

theorem get?_retain (m : AssocMap K V) (keep : K → V → Bool) (k : K) :
    (m.retain keep).get? k = (m.get? k).filter (keep k) := by
  apply Option.ext
  intro v
  rw [get?_eq_some_iff, Option.filter_eq_some_iff, get?_eq_some_iff]
  simp [retain]

theorem get?_erase (m : AssocMap K V) (k k' : K) :
    (m.erase k).get? k' = if k' = k then none else m.get? k' := by
  rw [erase, get?_retain]
  by_cases h : k' = k
  · simp [h]
  · simp only [h, ne_eq, not_false_eq_true, decide_true, if_false]
    cases m.get? k' <;> rfl

theorem get?_insert (m : AssocMap K V) (k k' : K) (v : V) :
    (m.insert k v).get? k' = if k' = k then some v else m.get? k' := by
  by_cases h : k' = k
  · subst h
    simp [get?, insert]
  · have hr : k ≠ k' := fun he => h he.symm
    rw [if_neg h, ← (m.get?_erase k k').trans (if_neg h)]
    simp [get?, insert, hr]

omit [DecidableEq K] in
theorem size_retain_le (m : AssocMap K V) (keep : K → V → Bool) :
    (m.retain keep).size ≤ m.size := List.length_filter_le _ _

omit [DecidableEq K] in
/-- A map that lost no entry to a filter is unchanged. -/
theorem retain_eq_self (m : AssocMap K V) (keep : K → V → Bool)
    (h : m.size ≤ (m.retain keep).size) : m.retain keep = m := by
  have hs : m.entries.filter (fun e => keep e.1 e.2) = m.entries :=
    List.Sublist.eq_of_length_le List.filter_sublist h
  cases m
  simp only [retain, AssocMap.mk.injEq]
  exact hs

theorem size_erase_of_mem (m : AssocMap K V) (k : K) (v : V) (h : m.get? k = some v) :
    (m.erase k).size < m.size := by
  have hm := (m.get?_eq_some_iff k v).mp h
  apply Nat.lt_of_le_of_ne (m.size_retain_le _)
  intro he
  have hs := m.retain_eq_self (fun k' _ => decide (k' ≠ k)) he.ge
  have hg : (m.erase k).get? k = some v := by rw [erase, hs]; exact h
  rw [get?_erase, if_pos rfl] at hg
  cases hg

theorem size_insert_le (m : AssocMap K V) (k : K) (v : V) :
    (m.insert k v).size ≤ m.size + 1 :=
  Nat.succ_le_succ (m.size_retain_le _)

theorem size_insert_of_mem (m : AssocMap K V) (k : K) (v w : V) (h : m.get? k = some w) :
    (m.insert k v).size ≤ m.size := m.size_erase_of_mem k w h

theorem get?_eq_none_iff (m : AssocMap K V) (k : K) :
    m.get? k = none ↔ k ∉ m.entries.map Prod.fst := by
  rw [Option.eq_none_iff_forall_not_mem, List.mem_map]
  constructor
  · rintro h ⟨e, he, rfl⟩
    exact h e.2 ((m.get?_eq_some_iff e.1 e.2).mpr he)
  · intro h v hv
    exact h ⟨(k, v), (m.get?_eq_some_iff k v).mp hv, rfl⟩

/-- An absent key is added in front. -/
theorem entries_insert (m : AssocMap K V) (k : K) (v : V) (h : m.get? k = none) :
    (m.insert k v).entries = (k, v) :: m.entries := by
  have keep : m.entries.filter (fun e => decide (e.1 ≠ k)) = m.entries := by
    apply List.filter_eq_self.mpr
    intro e he
    have hk : e.1 ≠ k := fun hk => (m.get?_eq_none_iff k).mp h (hk ▸ List.mem_map_of_mem he)
    exact decide_eq_true hk
  simp only [insert, erase, retain, keep]

end AssocMap

section Matching

variable {α β κ : Type} (R : α → β → Prop)

theorem exists_of_forall₂ (xs : List α) (ys : List β) (h : xs.Forall₂ R ys) (y : β) (hy : y ∈ ys) :
    ∃ x ∈ xs, R x y := by
  induction h with
  | nil => cases hy
  | cons hxy _ ih =>
    rcases List.mem_cons.mp hy with rfl | hy
    · exact ⟨_, List.mem_cons_self, hxy⟩
    · obtain ⟨x, hx, hr⟩ := ih hy
      exact ⟨x, List.mem_cons_of_mem _ hx, hr⟩

theorem forall₂_of_exists (xs : List α) (ys : List β) (h : ∀ y ∈ ys, ∃ x ∈ xs, R x y) :
    ∃ picked, picked ⊆ xs ∧ picked.Forall₂ R ys := by
  induction ys with
  | nil => exact ⟨[], List.nil_subset _, .nil⟩
  | cons y ys ih =>
    obtain ⟨x, hx, hr⟩ := h y List.mem_cons_self
    obtain ⟨picked, hs, hp⟩ := ih fun y' hy => h y' (List.mem_cons_of_mem _ hy)
    exact ⟨x :: picked, List.cons_subset.mpr ⟨hx, hs⟩, .cons hr hp⟩

theorem map_eq_of_forall₂ (k : α → κ) (l : β → κ) (keys : ∀ x y, R x y → k x = l y) (xs : List α)
    (ys : List β) (h : xs.Forall₂ R ys) : xs.map k = ys.map l := by
  induction h with
  | nil => rfl
  | cons hr _ ih => rw [List.map_cons, List.map_cons, keys _ _ hr, ih]

/-- Items found by their own keys in a list no longer than theirs match it one to one. -/
theorem matched_iff (k : α → κ) (l : β → κ) (keys : ∀ x y, R x y → k x = l y) (xs : List α)
    (ys : List β) (distinct : (xs.map k).Nodup) :
    (∃ order, order.Perm ys ∧ xs.Forall₂ R order) ↔
      (∀ y ∈ ys, ∃ x ∈ xs, R x y) ∧ (ys.map l).Nodup ∧ ys.length = xs.length := by
  constructor
  · rintro ⟨order, perm, matched⟩
    refine ⟨?_, ?_, ?_⟩
    · intro y hy
      exact exists_of_forall₂ R xs order matched y (perm.mem_iff.mpr hy)
    · rw [← (perm.map l).nodup_iff, ← map_eq_of_forall₂ R k l keys xs order matched]
      exact distinct
    · rw [← perm.length_eq, matched.length_eq]
  · rintro ⟨found, nodup, length⟩
    obtain ⟨picked, hs, hp⟩ := forall₂_of_exists R xs ys found
    have pickedNodup : picked.Nodup := by
      apply List.Nodup.of_map k
      rw [map_eq_of_forall₂ R k l keys picked ys hp]
      exact nodup
    have pickedLength : xs.length ≤ picked.length := by rw [hp.length_eq, length]
    have perm := (List.subperm_of_subset pickedNodup hs).perm_of_length_le pickedLength
    obtain ⟨order, matched, horder⟩ := List.perm_comp_forall₂ perm.symm hp
    exact ⟨order, horder, matched⟩

end Matching
end HostMonitoring.Framework
